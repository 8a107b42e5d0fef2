/-
Saving a configuration and loading it again.

Where a directory can be made and nothing is in the way but a file that can
be opened, all that can go wrong is the size of the numbers: a file has no
whole numbers from 2^63 on, while the configuration holds them up to 2^64.
-/
import CsvQuery.Proofs.Config.Text
import CsvQuery.Proofs.Files.Changes
import CsvQuery.Proofs.Text.Utf8

namespace CsvQuery.Config

section
variable {c : Config} {d : Disk} {directory : Path} {name : String}

theorem load_of_file {files : Files} {path : Path} (h : c.fits = true)
    (hfile : files path = .ok (.file (Utf8.encode c.text))) :
    load files path = .ok c := by
  simp only [load, hfile, Entry.read, Utf8.decode_encode, read?_text h]

theorem save_of_not_fits (hmade : (d.makeDirectory directory).2 = .ok ())
    (h : c.fits = false) :
    c.save directory name d
      = ((d.makeDirectory directory).1, .error .tooLarge) := by
  rw [save]
  split
  next hfault =>
    rw [hfault] at hmade
    cases hmade
  next hdone =>
    rw [hdone, h]
    rfl

theorem save_of_locked (hmade : (d.makeDirectory directory).2 = .ok ())
    (h : c.fits = true) {fault : IoFault}
    (hlocked : (d.makeDirectory directory).1.view (directory.join name)
      = .ok (.locked fault)) :
    c.save directory name d
      = ((d.makeDirectory directory).1, .error (.io fault)) := by
  have hdone : d.makeDirectory directory = ((d.makeDirectory directory).1, .ok ()) :=
    Prod.ext rfl hmade
  rw [save, hdone]
  simp only [h, if_true, Disk.write_of_locked hlocked]

/-- A configuration is saved, and loaded again as it was, exactly if both of
its numbers are below 2^63; and if it is not saved, the directory is all that
has been made. -/
theorem load_save (hmade : (d.makeDirectory directory).2 = .ok ())
    (hname : Path.IsName name) (hpath : (directory.join name).refusal? = none)
    (hdirectory : (d.makeDirectory directory).1.view (directory.join name)
      ≠ .ok .directory)
    (hdevice : (d.makeDirectory directory).1.view (directory.join name)
      ≠ .ok .device)
    (hlocked : ∀ fault,
      (d.makeDirectory directory).1.view (directory.join name)
        ≠ .ok (.locked fault)) :
    ((c.timeout < Integer.signedLimit ∧
      ∀ n ∈ c.maxRows, n < Integer.signedLimit) →
      ∃ saved, c.save directory name d = (saved, .ok ()) ∧
        load saved.view (directory.join name) = .ok c) ∧
    (¬ (c.timeout < Integer.signedLimit ∧
      ∀ n ∈ c.maxRows, n < Integer.signedLimit) →
      c.save directory name d
        = ((d.makeDirectory directory).1, .error .tooLarge)) := by
  have hfits : c.fits = true ↔ c.timeout < Integer.signedLimit ∧
      ∀ n ∈ c.maxRows, n < Integer.signedLimit := fits_iff
  rw [← hfits]
  constructor
  · intro h
    have hdone : d.makeDirectory directory = ((d.makeDirectory directory).1, .ok ()) :=
      Prod.ext rfl hmade
    obtain ⟨hrefusal, place, hplace, hthere⟩ := Disk.makeDirectory_ok hdone
    have hjoined := Disk.place_join hplace hthere hname hrefusal hpath
    obtain ⟨saved, hwrite, hview⟩ :=
      Disk.view_write hjoined hdirectory hdevice hlocked (Utf8.encode c.text)
    refine ⟨saved, ?_, load_of_file h hview⟩
    rw [save, hdone]
    simp only [h, hwrite, if_true]
  · intro h
    exact save_of_not_fits hmade (Bool.eq_false_iff.mpr h)

end

/-- The file of an earlier configuration gives way, whatever is in it. -/
theorem largest_rows_saved_over_garbage :
    let d := Disk.empty.put (path ".") (.file [255])
    (d.makeDirectory (directory ".")).2 = .ok () ∧ Path.IsName fileName ∧
      ((directory ".").join fileName).refusal? = none ∧
      (d.makeDirectory (directory ".")).1.view ((directory ".").join fileName)
        = .ok (.file [255]) ∧
      (500 < Integer.signedLimit ∧
        ∀ n ∈ some (Integer.signedLimit - 1), n < Integer.signedLimit) ∧
      ∃ saved,
        (Config.mk .json false 500 (some (Integer.signedLimit - 1))).save
          (directory ".") fileName d = (saved, .ok ()) ∧
        load saved.view ((directory ".").join fileName)
          = .ok (Config.mk .json false 500 (some (Integer.signedLimit - 1))) := by
  intro d
  have hmade : (d.makeDirectory (directory ".")).2 = .ok () := by rfl
  have hname : Path.IsName fileName :=
    ⟨by decide, by decide, by decide, by decide, by decide⟩
  have hpath : ((directory ".").join fileName).refusal? = none := by decide
  have hfile : (d.makeDirectory (directory ".")).1.view ((directory ".").join fileName)
      = .ok (.file [255]) := by rfl
  have hsmall : 500 < Integer.signedLimit ∧
      ∀ n ∈ some (Integer.signedLimit - 1), n < Integer.signedLimit := by
    decide
  exact ⟨hmade, hname, hpath, hfile, hsmall,
    (load_save hmade hname hpath (by simp [hfile]) (by simp [hfile]) (by simp [hfile])).1 hsmall⟩

/-- A number of milliseconds from the upper half of the 64-bit range is not
saved. -/
theorem large_timeout_not_saved :
    Integer.signedLimit ≤ Settings.longestTimeout ∧
      (Disk.empty.makeDirectory (directory ".")).2 = .ok () ∧
      Path.IsName fileName ∧
      ((directory ".").join fileName).refusal? = none ∧
      (Disk.empty.makeDirectory (directory ".")).1.view
        ((directory ".").join fileName)
        = .error .notFound ∧
      ({ standard with timeout := Integer.signedLimit }.save
        (directory ".") fileName Disk.empty).2
        = .error .tooLarge := by
  have hname : Path.IsName fileName :=
    ⟨by decide, by decide, by decide, by decide, by decide⟩
  exact ⟨by decide, by rfl, hname, by decide, by rfl, by rfl⟩

end CsvQuery.Config
