/-
What the header cache lists.

The cache knows the table names that were used and not forgotten since
(`World.UsedSince`), each of them once, in order.  A query uses its table name
when it gets its header, from the cache or from its file, whatever becomes of it
then; one that is refused or finds no header leaves the cache as it was, even
when its table name is known for another file.

Whether a name is known after an event is read off what the event can do
(`Change.isSome_find?`), and what a history has done follows event by event.
-/
import CsvQuery.Proofs.Engine.Transparency

namespace CsvQuery

/-! ## The names in a cache -/

namespace HeaderCache

/-- Each name is there once. -/
def NamesOnce (c : HeaderCache) : Prop := (c.entries.map Prod.fst).Nodup

theorem NamesOnce.erase {c : HeaderCache} (h : c.NamesOnce) (table : String) :
    (c.erase table).NamesOnce :=
  h.sublist (List.filter_sublist.map Prod.fst)

theorem notMem_names_erase (c : HeaderCache) (table : String) :
    table ∉ (c.erase table).entries.map Prod.fst := by
  simp [HeaderCache.erase]

theorem NamesOnce.insert {c : HeaderCache} (h : c.NamesOnce) (table : String)
    (header : Header) :
    (c.insert table header).NamesOnce :=
  List.nodup_cons.mpr ⟨c.notMem_names_erase table, h.erase table⟩

theorem mem_tables_iff {c : HeaderCache} {table : String} :
    table ∈ c.tables ↔ (c.find? table).isSome = true := by
  rw [tables, (List.mergeSort_perm _ _).mem_iff, find?, List.lookup_isSome_iff,
    List.mem_map]
  simp only [beq_iff_eq]
  exact exists_congr fun entry => and_congr_right fun _ => eq_comm

theorem compare_ne_gt_iff {a b : String} :
    (compare a b != .gt) = true ↔ a ≤ b := by
  show (compareOfLessAndEq a b != .gt) = true ↔ a ≤ b
  unfold compareOfLessAndEq
  split
  next hlt => simpa using String.not_lt.mp (String.lt_asymm hlt)
  next hge =>
    split
    next heq => simp [heq]
    next hne =>
        simpa using fun hle => hne (String.le_antisymm hle (String.not_lt.mp hge))

/-- The names are listed in order. -/
theorem NamesOnce.pairwise_tables {c : HeaderCache} (h : c.NamesOnce) :
    c.tables.Pairwise (· < ·) := by
  have htrans : ∀ a b c : String, (compare a b != .gt) = true → (compare b c != .gt) = true →
      (compare a c != .gt) = true := by
    intro a b c hab hbc
    rw [compare_ne_gt_iff] at hab hbc ⊢
    exact String.le_trans hab hbc
  have htotal : ∀ a b : String, (compare a b != .gt || compare b a != .gt) = true := by
    intro a b
    rw [Bool.or_eq_true, compare_ne_gt_iff, compare_ne_gt_iff]
    exact String.le_total a b
  have hsorted := List.pairwise_mergeSort htrans htotal (c.entries.map Prod.fst)
  have honce : c.tables.Nodup := (List.mergeSort_perm _ _).nodup_iff.mpr h
  refine hsorted.imp₂ ?_ honce
  intro a b hle hne
  rw [compare_ne_gt_iff] at hle
  exact String.not_le.mp fun hge => hne (String.le_antisymm hle hge)

end HeaderCache

namespace Engine

/-! ## Use and forgetting -/

/-- The event drops what is kept under the table name. -/
def Event.Forgets (table : String) : Event → Prop
  | .invalidate other => other = table
  | .clearCache => True
  | _ => False

namespace World

/-- Some run among the events used the table name, and no later one forgot
it. -/
def UsedSince (w : World) (events : List Event) (table : String) : Prop :=
  ∃ before event after q, events = before ++ event :: after ∧
    (w.live before).use? event = some q ∧ q.table = table ∧
    ∀ later ∈ after, ¬ later.Forgets table

theorem not_usedSince_nil (w : World)
    (table : String) : ¬ w.UsedSince [] table := by
  rintro ⟨before, event, after, q, hevents, -⟩
  cases before <;> cases hevents

theorem usedSince_cons_iff {w : World} {event : Event} {events : List Event}
    {table : String} :
    w.UsedSince (event :: events) table ↔
      (∃ q ∈ w.use? event, q.table = table) ∧
      (∀ later ∈ events, ¬ later.Forgets table) ∨
        (w.happen event).UsedSince events table := by
  constructor
  · rintro ⟨before, run, after, q, hevents, huse, htable, hkept⟩
    cases before with
    | nil =>
        cases hevents
        exact .inl ⟨⟨q, huse, htable⟩, hkept⟩
    | cons first before =>
        cases hevents
        exact .inr ⟨before, run, after, q, rfl, huse, htable, hkept⟩
  · rintro (⟨⟨q, huse, htable⟩, hkept⟩ | ⟨before, run, after, q, rfl, huse, htable, hkept⟩)
    · exact ⟨[], event, events, q, rfl, huse, htable, hkept⟩
    · exact ⟨event :: before, run, after, q, rfl, huse, htable, hkept⟩

/-! ## One event -/

section
variable {w w' : World} {event : Event} {use : Option Query} {table : String}

/-- After an event the names are known that it has used, and those known
before that it has not forgotten. -/
theorem Change.isSome_find? (change : Change w event use w') :
    (w'.engine.cache.find? table).isSome = true ↔ (∃ q ∈ use, q.table = table) ∨
      (w.engine.cache.find? table).isSome = true ∧ ¬ event.Forgets table := by
  cases change with
  | failed => simp [Event.Forgets]
  | @found timeout sql q h _ hfind _ =>
      have hknown : q.table = table → (w.engine.cache.find? table).isSome = true := by
        rintro rfl
        rw [hfind]
        rfl
      simpa [Event.Forgets] using hknown
  | @read timeout sql q h _ _ _ =>
      by_cases htable : table = q.table
      · simp [withCache, HeaderCache.find?_insert, htable]
      · simp [withCache, HeaderCache.find?_insert, Event.Forgets, htable,
          Ne.symm htable]
  | @invalidated other =>
      by_cases htable : table = other
      · simp [withCache, HeaderCache.find?_erase, Event.Forgets, htable]
      · simp [withCache, HeaderCache.find?_erase, Event.Forgets, htable, Ne.symm htable]
  | cleared => simp [Event.Forgets, withCache, HeaderCache.find?, HeaderCache.empty]
  | changed => simp [Event.Forgets]

theorem Change.namesOnce (change : Change w event use w')
    (h : w.engine.cache.NamesOnce) :
    w'.engine.cache.NamesOnce := by
  cases change with
  | failed => exact h
  | found => exact h
  | read _ _ _ => exact h.insert _ _
  | invalidated => exact h.erase _
  | cleared => exact List.nodup_nil
  | changed => exact h

/-- A run that has not used its table name leaves the cache as it was. -/
theorem Change.eq_of_unused {timeout : Nat} {sql : String}
    (change : Change w (.run timeout sql) none w') : w' = w := by
  cases change
  rfl

/-- A run only touches what is kept under its own table name. -/
theorem Change.find?_other {timeout : Nat} {sql : String}
    (change : Change w (.run timeout sql) use w')
    (other : ∀ q, Query.parse w.files sql = .ok q → q.table ≠ table) :
    w'.engine.cache.find? table = w.engine.cache.find? table := by
  cases change with
  | failed => rfl
  | found => rfl
  | read hparse _ _ =>
      exact (HeaderCache.find?_insert _ _ _ _).trans (if_neg (other _ hparse).symm)

/-- A run that is refused or finds no header has not used its table name. -/
theorem use?_eq_none {timeout : Nat} {sql : String}
    (h : (∃ errors, Query.parse w.files sql = .error errors) ∨
      ∃ q error, Query.parse w.files sql = .ok q ∧
        w.engine.cache.header? q = none ∧
        Header.read w.files q.path = .error error) :
    w.use? (.run timeout sql) = none := by
  unfold use?
  rcases h with ⟨errors, hparse⟩ | ⟨q, error, hparse, hcached, hread⟩
  · simp only [hparse]
  · simp only [hparse, headerFor, hcached, hread]

end

/-! ## Any history -/

theorem namesOnce_live (settings : Settings) (files : Files)
    (events : List Event) :
    ((new settings files).live events).engine.cache.NamesOnce := by
  refine keep (fun _ w => w.engine.cache.NamesOnce) events ?_ [] List.nodup_nil
  intro event _ uses w use w' change h
  exact change.namesOnce h

/-- What is known after a history was known before and not forgotten, or used
since. -/
theorem isSome_find?_live (w : World) (events : List Event) (table : String) :
    ((w.live events).engine.cache.find? table).isSome = true ↔
      (w.engine.cache.find? table).isSome = true ∧
      (∀ event ∈ events, ¬ event.Forgets table) ∨
        w.UsedSince events table := by
  induction events generalizing w with
  | nil => simp [live, not_usedSince_nil]
  | cons event events ih =>
      have hlive : w.live (event :: events) = (w.happen event).live events := rfl
      rw [hlive, ih, (w.change_of_happen event).isSome_find?, usedSince_cons_iff,
        List.forall_mem_cons, or_and_right, and_assoc, or_assoc, or_left_comm]

/-- After any history of a new engine the cache lists, in order and each
once, the table names that a run with a header has used and that were not
forgotten since.  A run that is refused, or cannot read its header, leaves
the cache as it was; no run touches what is kept under another name than its
own; and a name that is forgotten was listed when the engine says so, and
nothing else goes with it. -/
theorem cache_lists_names_in_use (settings : Settings) (files : Files)
    (events : List Event) {w : World}
    (lived : (new settings files).live events = w) :
    w.engine.cache.tables.Pairwise (· < ·) ∧
    (∀ table, table ∈ w.engine.cache.tables ↔
        (new settings files).UsedSince events table) ∧
    (∀ timeout sql, ((∃ errors, Query.parse w.files sql = .error errors) ∨
        ∃ q error, Query.parse w.files sql = .ok q ∧
          w.engine.cache.header? q = none ∧
          Header.read w.files q.path = .error error) →
      (w.happen (.run timeout sql)).engine.cache = w.engine.cache) ∧
    (∀ timeout sql table,
      (∀ q, Query.parse w.files sql = .ok q → q.table ≠ table) →
      (w.happen (.run timeout sql)).engine.cache.find? table
        = w.engine.cache.find? table) ∧
    ∀ table, ((w.engine.invalidate table).1 = true ↔
        table ∈ w.engine.cache.tables) ∧
      ∀ other, (w.happen (.invalidate table)).engine.cache.find? other
        = if other = table then none else w.engine.cache.find? other := by
  subst lived
  refine ⟨(namesOnce_live settings files events).pairwise_tables, ?listed, ?unused, ?others,
    ?forgotten⟩
  case listed =>
    intro table
    rw [HeaderCache.mem_tables_iff, isSome_find?_live]
    simp [new, Engine.new, HeaderCache.empty, HeaderCache.find?]
  case unused =>
    intro timeout sql h
    have change := change_of_run ((new settings files).live events) timeout sql
    rw [use?_eq_none h] at change
    rw [change.eq_of_unused]
  case others =>
    intro timeout sql table other
    exact (change_of_run _ timeout sql).find?_other other
  case forgotten =>
    intro table
    refine ⟨HeaderCache.mem_tables_iff.symm, fun other => ?_⟩
    exact HeaderCache.find?_erase _ table other

/-- The name `e` is known for `t.csv`.  A query that uses it for `u.csv`,
which has no header, takes nothing away. -/
theorem failed_read_keeps_entry :
    let files := filesWith [97, 10, 49, 10] []
    let w := (new .standard files).live [.run 1 "SELECT * FROM path:t.csv AS e"]
    (new .standard files).UsedSince [.run 1 "SELECT * FROM path:t.csv AS e"] "e" ∧
      (w.happen (.run 1 "SELECT * FROM path:u.csv AS e")).engine.cache = w.engine.cache := by
  intro files w
  obtain ⟨-, hlisted, hunused, -, -⟩ := cache_lists_names_in_use .standard files
    [.run 1 "SELECT * FROM path:t.csv AS e"] (w := w) rfl
  constructor
  · exact (hlisted "e").mp (by decide +kernel)
  · refine hunused 1 _ (.inr ⟨wholeFile "u.csv", .noHeader "u.csv", ?_, ?_, ?_⟩)
    · exact ofTokens_eq_ok (by decide +kernel) (by decide +kernel)
    · decide +kernel
    · rfl

end World
end Engine
end CsvQuery
