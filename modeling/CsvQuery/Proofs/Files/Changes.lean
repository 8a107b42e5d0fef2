/-
What changes to a disk leave behind.

A directory stays one when something is put into a place where no directory
has been (`IsDirectory.set`).  So a walk that has got along a path does so
again after such a change, for it needs directories only where it goes on
(`Keeps.walk`).  From this come the two facts about changes: a directory that
has been made is found where its path leads (`makeDirectory_ok`), and a file
that has been written is what its path names (`view_write`).
-/
import CsvQuery.Proofs.Files.Walks

namespace CsvQuery

namespace FileTree

theorem lookup_filter_ne {contents : List (List Char × FileTree)}
    {name other : List Char} (h : other ≠ name) :
    (contents.filter fun old => old.1 != name).lookup other
      = contents.lookup other := by
  induction contents with
  | nil => rfl
  | cons e contents ih =>
      by_cases he : e.1 = name
      · have hother : (other == e.1) = false := beq_false_of_ne (he ▸ h)
        rw [List.filter_cons_of_neg (by simp [he]), ih, List.lookup_cons, hother]
      · rw [List.filter_cons_of_pos (by simp [he]), List.lookup_cons,
          List.lookup_cons, ih]

@[simp] theorem at?_nil (t : FileTree) : t.at? [] = some t := by
  cases t <;> rfl

theorem at?_cons (t : FileTree) (name : List Char) (names : List (List Char)) :
    t.at? (name :: names)
      = (t.contents.lookup name).bind fun inner => inner.at? names := by
  rw [at?]
  cases t.contents.lookup name <;> rfl

theorem at?_set (new : FileTree) : ∀ (names : List (List Char)) (t : FileTree),
    (t.set names new).at? names = some new := by
  intro names
  induction names with
  | nil => exact fun t => at?_nil new
  | cons name names ih =>
      intro t
      rw [set, at?_cons]
      simp [contents, ih]

theorem at?_set_cons_of_ne (new : FileTree) {name first : List Char}
    (h : first ≠ name) (names rest : List (List Char)) (t : FileTree) :
    (t.set (name :: names) new).at? (first :: rest)
      = t.at? (first :: rest) := by
  have hfirst : (first == name) = false := beq_false_of_ne h
  rw [set, at?_cons, at?_cons, contents, List.lookup_cons, hfirst, lookup_filter_ne h]

theorem at?_set_cons_self (new : FileTree) (name : List Char)
    (names rest : List (List Char)) (t : FileTree) :
    (t.set (name :: names) new).at? (name :: rest)
      = (((t.contents.lookup name).getD empty).set names new).at? rest := by
  rw [set, at?_cons, contents, List.lookup_cons, BEq.rfl]
  rfl

/-- The place is a directory. -/
def IsDirectory (t : FileTree) (names : List (List Char)) : Prop :=
  (t.at? names).map entry = some .directory

theorem not_isDirectory_of_lookup {t : FileTree} {name : List Char}
    {names : List (List Char)} (h : t.contents.lookup name = none) :
    ¬ t.IsDirectory (name :: names) := by
  rw [IsDirectory, at?_cons, h]
  simp

/-- Behind anything but a directory there is nothing. -/
theorem contents_eq_nil {t : FileTree}
    (h : t.entry ≠ .directory) : t.contents = [] := by
  cases t with
  | directory contents => exact absurd rfl h
  | _ => rfl

/-- A directory stays one when something is put where no directory is. -/
theorem IsDirectory.set (new : FileTree) {names other : List (List Char)} :
    ∀ {t : FileTree}, t.IsDirectory other → ¬ t.IsDirectory names →
      (t.set names new).IsDirectory other := by
  induction names generalizing other with
  | nil =>
      intro t hother hnames
      rw [IsDirectory, at?_nil] at hnames
      have hentry : t.entry ≠ .directory := fun heq => hnames (congrArg some heq)
      cases other with
      | nil => exact absurd hother (by rwa [IsDirectory, at?_nil])
      | cons first rest =>
          exact absurd hother (not_isDirectory_of_lookup (by rw [contents_eq_nil hentry]; rfl))
  | cons name names ih =>
      intro t hother hnames
      cases other with
      | nil => rfl
      | cons first rest =>
          by_cases hfirst : first = name
          · subst hfirst
            cases hlookup : t.contents.lookup first with
            | none => exact absurd hother (not_isDirectory_of_lookup hlookup)
            | some inner =>
                rw [IsDirectory, at?_cons, hlookup] at hother hnames
                rw [IsDirectory, at?_set_cons_self, hlookup]
                exact ih hother hnames
          · rw [IsDirectory, at?_set_cons_of_ne new hfirst]
            exact hother

end FileTree

/-! ## Pieces of paths -/

namespace Path

theorem piecesFrom_append_slash (cs ds : List Char) : ∀ piece : List Char,
    piecesFrom piece (cs ++ '/' :: ds)
      = piecesFrom piece cs ++ piecesFrom [] ds := by
  induction cs with
  | nil => exact fun piece => rfl
  | cons c cs ih =>
      intro piece
      rw [List.cons_append, piecesFrom, piecesFrom, ih, ih]
      split <;> rfl

theorem piecesFrom_of_notMem {cs : List Char} (h : '/' ∉ cs) :
    ∀ piece : List Char,
    piecesFrom piece cs = [piece.reverse ++ cs] := by
  induction cs with
  | nil =>
      intro piece
      rw [piecesFrom, List.append_nil]
  | cons c cs ih =>
      intro piece
      obtain ⟨hc, hcs⟩ := not_or.mp (mt List.mem_cons.mpr h)
      rw [piecesFrom, if_neg (Ne.symm hc), ih hcs, List.reverse_cons, List.append_assoc]
      rfl

theorem pieces_ne_nil (p : Path) : p.pieces ≠ [] := by
  have hne : ∀ (cs piece : List Char), piecesFrom piece cs ≠ [] := by
    intro cs
    induction cs with
    | nil => exact fun piece => List.cons_ne_nil _ _
    | cons c cs ih =>
        intro piece
        rw [piecesFrom]
        split
        · exact List.cons_ne_nil _ _
        · exact ih _
  exact hne p.text.toList []

/-- A name that stands for itself in a path. -/
structure IsName (name : String) : Prop where
  ne_nil : name.toList ≠ []
  ne_here : name.toList ≠ ['.']
  ne_parent : name.toList ≠ ['.', '.']
  noSlash : '/' ∉ name.toList
  short : name.utf8ByteSize ≤ mostNameBytes

end Path

namespace Disk

/-! ## Directories that stay -/

/-- The place is a directory. -/
def IsDirectory (d : Disk) (place : List (List Char)) : Prop :=
  d.entryAt place = some .directory

/-- All directories of the first disk are on the second one. -/
def Keeps (d d' : Disk) : Prop :=
  ∀ place, d.IsDirectory place → d'.IsDirectory place

/-- The disk with a tree in a place. -/
def withTree (d : Disk) (place : List (List Char)) (t : FileTree) : Disk :=
  { d with root := d.root.set place.reverse t }

section
variable {d d' : Disk} {place next last : List (List Char)}

theorem keeps_withTree (h : ¬ d.IsDirectory place)
    (t : FileTree) : Keeps d (d.withTree place t) :=
  fun _ hother => FileTree.IsDirectory.set t hother h

theorem entryAt_withTree (d : Disk) (place : List (List Char)) (t : FileTree) :
    (d.withTree place t).entryAt place = some t.entry := by
  rw [entryAt, withTree, FileTree.at?_set]
  rfl

theorem Keeps.trans {d'' : Disk} (h : Keeps d d')
    (h' : Keeps d' d'') : Keeps d d'' :=
  fun place hplace => h' place (h place hplace)

theorem step_of_isDirectory (h : d.IsDirectory place) (piece : List Char) :
    d.step place piece
      = if piece = [] || piece = ['.'] then .ok place
        else if piece = ['.', '.'] then .ok place.tail
        else if Path.mostNameBytes < (String.ofList piece).utf8ByteSize then .error .nameTooLong
        else .ok (piece :: place) := by
  rw [step, h]

theorem isDirectory_of_step {piece : List Char}
    (h : d.step place piece = .ok next) :
    d.IsDirectory place := by
  unfold step at h
  split at h
  · cases h
  next hentry => exact hentry
  · cases h

theorem Keeps.step (keeps : Keeps d d') {piece : List Char}
    (h : d.step place piece = .ok next) :
    d'.step place piece = .ok next := by
  have hplace := isDirectory_of_step h
  rw [step_of_isDirectory (keeps place hplace), ← step_of_isDirectory hplace]
  exact h

theorem walk_cons_iff {piece : List Char} {pieces : List (List Char)} :
    (piece :: pieces).foldlM d.step place = .ok last
      ↔ ∃ next, d.step place piece = .ok next ∧
        pieces.foldlM d.step next = .ok last := by
  rw [List.foldlM_cons]
  constructor
  · intro h
    cases hstep : d.step place piece with
    | error fault =>
        rw [hstep] at h
        cases h
    | ok next =>
        rw [hstep] at h
        exact ⟨next, rfl, h⟩
  · rintro ⟨next, hstep, hrest⟩
    rw [hstep]
    exact hrest

theorem Keeps.walk (keeps : Keeps d d') {pieces : List (List Char)} :
    ∀ {place : List (List Char)},
    pieces.foldlM d.step place = .ok last →
    pieces.foldlM d'.step place = .ok last := by
  induction pieces with
  | nil => exact fun h => h
  | cons piece pieces ih =>
      intro place h
      obtain ⟨next, hstep, hrest⟩ := walk_cons_iff.mp h
      exact walk_cons_iff.mpr ⟨next, keeps.step hstep, ih hrest⟩

theorem start_congr {p p' : Path} (hwork : d'.work = d.work)
    (htext : p'.text.toList.head? = p.text.toList.head?) :
    d'.start p' = d.start p := by
  rw [start, start, hwork, htext]

theorem Keeps.place_eq_ok (keeps : Keeps d d') (hwork : d'.work = d.work)
    {p : Path} (h : d.place p = .ok place) : d'.place p = .ok place := by
  unfold Disk.place at h ⊢
  split at h
  · cases h
  next hrefusal =>
    rw [start_congr hwork rfl]
    exact keeps.walk h

end

/-! ## Directories that are made -/

theorem makeFrom_ok {pieces : List (List Char)} :
    ∀ {d d' : Disk} {place : List (List Char)} {made : Bool},
      d.IsDirectory place → d.makeFrom place made pieces = (d', .ok ()) →
      Keeps d d' ∧ d'.work = d.work ∧
        ∃ last, pieces.foldlM d'.step place = .ok last ∧
          d'.IsDirectory last := by
  induction pieces with
  | nil =>
      intro d d' place made hplace h
      cases h
      exact ⟨fun _ h => h, rfl, place, rfl, hplace⟩
  | cons piece pieces ih =>
      intro d d' place made hplace h
      rw [makeFrom] at h
      split at h
      · cases h
      next next hstep =>
        -- The next directory is made or is there; the walk goes on from it
        -- either way.
        have hgoesOn : ∀ {between : Disk} {made : Bool}, Keeps d between →
            between.work = d.work → between.IsDirectory next →
            between.makeFrom next made pieces = (d', .ok ()) →
            Keeps d d' ∧ d'.work = d.work ∧
              ∃ last, (piece :: pieces).foldlM d'.step place = .ok last ∧ d'.IsDirectory last := by
          intro between made hkeeps hwork hnext hrest
          obtain ⟨hkeeps', hwork', last, hwalk, hlast⟩ := ih hnext hrest
          have hall := hkeeps.trans hkeeps'
          exact ⟨hall, hwork'.trans hwork, last,
            walk_cons_iff.mpr ⟨next, hall.step hstep, hwalk⟩, hlast⟩
        split at h
        next hnone =>
          have hnew : ¬ d.IsDirectory next := by simp [IsDirectory, hnone]
          exact hgoesOn (keeps_withTree hnew .empty) rfl (entryAt_withTree d next .empty) h
        next hthere => exact hgoesOn (fun _ h => h) rfl hthere h
        · cases h

/-- A directory that has been made is where its path leads. -/
theorem makeDirectory_ok {d d' : Disk} {p : Path}
    (h : d.makeDirectory p = (d', .ok ())) :
    p.refusal? = none ∧
    ∃ place, d'.place p = .ok place ∧ d'.IsDirectory place := by
  unfold makeDirectory at h
  split at h
  · cases h
  next hrefusal =>
    have hstart : d.IsDirectory (d.start p) := by
      obtain ⟨piece, pieces, hpieces⟩ := List.exists_cons_of_ne_nil p.pieces_ne_nil
      rw [hpieces, makeFrom] at h
      split at h
      · cases h
      next hstep => exact isDirectory_of_step hstep
    obtain ⟨-, hwork, place, hwalk, hplace⟩ := makeFrom_ok hstart h
    refine ⟨hrefusal, place, ?_, hplace⟩
    rw [Disk.place, hrefusal, start_congr hwork rfl]
    exact hwalk

/-! ## Files that are written -/

theorem walk_concat (d : Disk) (front : List (List Char)) (piece : List Char)
    (first : List (List Char)) :
    (front ++ [piece]).foldlM d.step first
      = (front.foldlM d.step first).bind fun place => d.step place piece := by
  rw [List.foldlM_append]
  simp only [List.foldlM_cons, List.foldlM_nil, bind_pure]
  rfl

/-- An empty piece at the end of a path leads nowhere. -/
theorem walk_front {d : Disk} {front : List (List Char)}
    {first place : List (List Char)}
    (h : (front ++ [[]]).foldlM d.step first = .ok place) :
    front.foldlM d.step first = .ok place := by
  rw [walk_concat] at h
  cases hfront : front.foldlM d.step first with
  | error fault =>
      rw [hfront] at h
      cases h
  | ok last =>
      rw [hfront] at h
      have hstep : d.step last [] = .ok place := h
      rw [step_of_isDirectory (isDirectory_of_step hstep)] at hstep
      exact hstep

/-- The pieces of a path in a directory are those that lead to the directory,
and the name. -/
theorem pieces_join {d : Disk} {p : Path} {place : List (List Char)}
    {name : String} (hwalk : p.pieces.foldlM d.step (d.start p) = .ok place)
    (htext : p.text ≠ "") (hname : '/' ∉ name.toList) :
    ∃ front, (p.join name).pieces = front ++ [name.toList] ∧
      front.foldlM d.step (d.start (p.join name)) = .ok place := by
  have hlast : Path.piecesFrom [] name.toList = [name.toList] :=
    Path.piecesFrom_of_notMem hname []
  by_cases hslash : p.text.toList.getLast? = some '/'
  · obtain ⟨cs, hcs⟩ := List.getLast?_eq_some_iff.mp hslash
    have hjoin : (p.join name).text.toList = cs ++ '/' :: name.toList := by
      simp [Path.join, htext, hcs]
    have hpieces : p.pieces = Path.piecesFrom [] cs ++ [[]] := by
      rw [Path.pieces, hcs, Path.piecesFrom_append_slash]
      rfl
    have hstart : d.start (p.join name) = d.start p := by
      refine start_congr rfl ?_
      rw [hjoin, hcs]
      cases cs <;> rfl
    refine ⟨Path.piecesFrom [] cs, ?_, ?_⟩
    · rw [Path.pieces, hjoin, Path.piecesFrom_append_slash, hlast]
    · rw [hstart]
      exact walk_front (hpieces ▸ hwalk)
  · have hjoin : (p.join name).text.toList = p.text.toList ++ '/' :: name.toList := by
      simp [Path.join, htext, hslash]
    have hstart : d.start (p.join name) = d.start p := by
      refine start_congr rfl ?_
      rw [hjoin]
      obtain ⟨c, cs, hcs⟩ :=
        List.exists_cons_of_ne_nil (mt String.toList_eq_nil_iff.mp htext)
      rw [hcs]
      rfl
    refine ⟨p.pieces, ?_, hstart ▸ hwalk⟩
    rw [Path.pieces, hjoin, Path.piecesFrom_append_slash, hlast, Path.pieces]

theorem place_join {d : Disk} {p : Path} {place : List (List Char)}
    {name : String} (hplace : d.place p = .ok place)
    (hdirectory : d.IsDirectory place) (hname : Path.IsName name)
    (hrefusal : p.refusal? = none) (hjoined : (p.join name).refusal? = none) :
    d.place (p.join name) = .ok (name.toList :: place) := by
  have hstep : d.step place name.toList = .ok (name.toList :: place) := by
    rw [step_of_isDirectory hdirectory, String.ofList_toList]
    simp [hname.ne_nil, hname.ne_here, hname.ne_parent, hname.short]
  have htext : p.text ≠ "" := by
    intro hempty
    simp [Path.refusal?, hempty] at hrefusal
  have hwalk : p.pieces.foldlM d.step (d.start p) = .ok place := by
    rw [Disk.place, hrefusal] at hplace
    exact hplace
  obtain ⟨front, hpieces, hfront⟩ := pieces_join hwalk htext hname.noSlash
  rw [Disk.place, hjoined, ← hstep]
  show (p.join name).pieces.foldlM d.step _ = _
  rw [hpieces, walk_concat, hfront]
  rfl

/-- What has been written is what the path names. -/
theorem view_write {d : Disk} {p : Path} {place : List (List Char)}
    (hplace : d.place p = .ok place) (hdirectory : d.view p ≠ .ok .directory)
    (hdevice : d.view p ≠ .ok .device)
    (hlocked : ∀ fault, d.view p ≠ .ok (.locked fault)) (bytes : List UInt8) :
    ∃ d', d.write p bytes = .ok d' ∧ d'.view p = .ok (.file bytes) := by
  have hview : ∀ e, d.entryAt place = some e → d.view p = .ok e :=
    fun e hentry => view_eq_ok_iff.mpr ⟨place, hplace, hentry⟩
  have hnot : ¬ d.IsDirectory place := fun hthere => hdirectory (hview _ hthere)
  refine ⟨d.withTree place (.file bytes), ?_, ?_⟩
  · rw [write, hplace]
    simp only [bind, Except.bind]
    split
    next hthere => exact absurd hthere hnot
    next fault hthere => exact absurd (hview _ hthere) (hlocked fault)
    next hthere => exact absurd (hview _ hthere) hdevice
    next => rfl
  · have hsame := (keeps_withTree hnot (.file bytes)).place_eq_ok rfl hplace
    exact view_eq_ok_iff.mpr ⟨place, hsame, entryAt_withTree d place (.file bytes)⟩

/-- A file that cannot be opened is not written to. -/
theorem write_of_locked {d : Disk} {p : Path} {fault : IoFault}
    (h : d.view p = .ok (.locked fault)) (bytes : List UInt8) :
    d.write p bytes = .error fault := by
  obtain ⟨place, hplace, hentry⟩ := view_eq_ok_iff.mp h
  rw [write, hplace]
  simp only [bind, Except.bind, hentry]

end Disk

end CsvQuery
