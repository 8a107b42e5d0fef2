/-
Where a path leads.

A walk along a path needs a directory wherever it goes on, so paths with the
same components can fare differently: where `t.csv` is a file, `t.csv/.` names
nothing.  A walk that gets to its end, though, has gone where the components
say, and so all paths with these components that name something name the same.
-/
import CsvQuery.Disk

namespace CsvQuery

/-- Paths with the same components name the same, if both name something. -/
def ComponentsDecide (files : Files) : Prop :=
  ∀ (p p' : Path) (e e' : Entry),
    p.sameAs p' = true → files p = .ok e → files p' = .ok e' → e = e'

theorem Path.sameAs_iff {p p' : Path} :
    p.sameAs p' = true ↔ p.components = p'.components :=
  beq_iff_eq

namespace Path

theorem component?_ne_root (piece : List Char) :
    component? piece ≠ some .root := by
  unfold component?
  split
  · simp
  · split <;> simp

/-- A path that starts with a slash, and no other, has the root among its
components. -/
theorem head?_components (p : Path) :
    p.components.head? = some .root ↔ p.text.toList.head? = some '/' := by
  have hnone : ∀ pieces : List (List Char), (pieces.filterMap component?).head? ≠ some .root := by
    intro pieces hroot
    obtain ⟨piece, -, hpiece⟩ := List.mem_filterMap.mp (List.mem_of_mem_head? hroot)
    exact component?_ne_root piece hpiece
  unfold components
  split
  next rest htext => simp [htext]
  next hslash =>
    have htext : p.text.toList.head? ≠ some '/' := by
      intro hhead
      obtain ⟨rest, hrest⟩ := List.head?_eq_some_iff.mp hhead
      exact hslash rest hrest
    split
    · simp [htext]
    · exact iff_of_false (hnone p.pieces) htext

end Path

namespace Disk

/-- The place that a component leads to from another one. -/
def follow (place : List (List Char)) : Path.Component → List (List Char)
  | .root => place
  | .here => place
  | .parent => place.tail
  | .name name => name :: place

/-- The place that components lead to. -/
def destination (d : Disk)
    (components : List Path.Component) : List (List Char) :=
  components.foldl follow (if components.head? = some .root then [] else d.work.reverse)

variable {d : Disk}

theorem step_eq_follow {place next : List (List Char)} {piece : List Char}
    (h : d.step place piece = .ok next) :
    next = (Path.component? piece).elim place (follow place) := by
  unfold step at h
  unfold Path.component?
  split at h
  · cases h
  · split at h
    next hstay => cases h; simp [hstay]
    next hstay =>
      split at h
      next hparent => cases h; simp [hparent, follow]
      next hparent =>
        split at h
        · cases h
        · cases h; simp [hstay, hparent, follow]
  · cases h

/-- A walk that gets to its end has followed the components. -/
theorem walk_eq_follow :
    ∀ {pieces : List (List Char)} {place last : List (List Char)},
    pieces.foldlM d.step place = .ok last →
      last = (pieces.filterMap Path.component?).foldl follow place
  | [], place, last, h => by
      cases h
      rfl
  | piece :: pieces, place, last, h => by
      rw [List.foldlM_cons] at h
      cases hstep : d.step place piece with
      | error fault =>
          rw [hstep] at h
          cases h
      | ok next =>
          rw [hstep] at h
          have hrest := walk_eq_follow h
          rw [step_eq_follow hstep] at hrest
          cases hpiece : Path.component? piece with
          | none => rw [List.filterMap_cons_none hpiece, hrest, hpiece]; rfl
          | some c => rw [List.filterMap_cons_some hpiece, hrest, hpiece]; rfl

/-- The root and the leading dot of a path lead nowhere. -/
theorem follow_components (p : Path) (place : List (List Char)) :
    p.components.foldl follow place
      = (p.pieces.filterMap Path.component?).foldl follow place := by
  unfold Path.components
  split
  · rfl
  · split
    next hpieces => rw [hpieces]; rfl
    · rfl

theorem place_eq_destination {p : Path} {place : List (List Char)}
    (h : d.place p = .ok place) :
    place = d.destination p.components := by
  have hstart : d.start p
      = if p.components.head? = some .root then [] else d.work.reverse := by
    simp only [start, Path.head?_components]
  unfold Disk.place at h
  split at h
  · cases h
  · rw [walk_eq_follow h, ← follow_components, hstart]
    rfl

theorem view_eq_ok_iff {p : Path} {e : Entry} :
    d.view p = .ok e ↔
      ∃ place, d.place p = .ok place ∧ d.entryAt place = some e := by
  unfold view
  cases d.place p with
  | error fault => simp [bind, Except.bind]
  | ok place => cases hentry : d.entryAt place <;> simp [bind, Except.bind, hentry]

theorem entryAt_destination {p : Path} {e : Entry} (h : d.view p = .ok e) :
    d.entryAt (d.destination p.components) = some e := by
  obtain ⟨place, hplace, hentry⟩ := view_eq_ok_iff.mp h
  rw [← place_eq_destination hplace]
  exact hentry

/-- Every disk keeps to the components of paths. -/
theorem componentsDecide_view (d : Disk) : ComponentsDecide d.view := by
  intro p p' e e' hsame hp hp'
  have hentry := entryAt_destination hp
  rw [Path.sameAs_iff.mp hsame, entryAt_destination hp'] at hentry
  exact (Option.some.inj hentry).symm

end Disk
end CsvQuery
