/-
Histories of an engine.

An engine lives among files, which others write and remove between its queries.
`live` plays what happens, in order; `uses` notes the queries of a history that
got their header, be it from the cache or from their file, as these are the
only ones that can touch the cache.

`Change` lists what an event can do.  It is the one place where a run of the
engine is opened; what the cache holds after a history is proved from it.
-/
import CsvQuery.Engine.Basic

namespace CsvQuery

/-! ## Looking into the cache -/

namespace HeaderCache

theorem find?_erase (c : HeaderCache) (table other : String) :
    (c.erase table).find? other
      = if other = table then none else c.find? other := by
  obtain ⟨entries⟩ := c
  simp only [find?, erase]
  induction entries with
  | nil => simp
  | cons entry entries ih =>
      obtain ⟨name, header⟩ := entry
      by_cases hname : name = table
      · rw [List.filter_cons_of_neg (by simp [hname]), ih, List.lookup_cons, hname]
        split
        next => rfl
        next hne => rw [beq_false_of_ne hne]
      · rw [List.filter_cons_of_pos (by simp [hname]), List.lookup_cons,
          List.lookup_cons, ih]
        by_cases hother : other = name
        · simp [hother, hname]
        · simp [beq_false_of_ne hother]

theorem find?_insert (c : HeaderCache) (table other : String) (h : Header) :
    (c.insert table h).find? other
      = if other = table then some h else c.find? other := by
  have hrest := c.find?_erase table other
  simp only [find?, insert] at hrest ⊢
  rw [List.lookup_cons, hrest]
  by_cases hother : other = table
  · simp [hother]
  · simp [hother, beq_false_of_ne hother]

theorem find?_erase_eq_some_iff {c : HeaderCache} {table other : String}
    {h : Header} :
    (c.erase table).find? other = some h ↔
      other ≠ table ∧ c.find? other = some h := by
  rw [find?_erase]
  split
  next heq => simp [heq]
  next hne => simp [hne]

theorem find?_insert_eq_some_iff {c : HeaderCache} {table other : String}
    {h new : Header} :
    (c.insert table new).find? other = some h ↔
      other = table ∧ h = new ∨ other ≠ table ∧ c.find? other = some h := by
  rw [find?_insert]
  split
  next heq => simp [heq, eq_comm]
  next hne => simp [hne]

/-- What holds of the headers kept and of a new one holds of all headers when
that is kept too. -/
theorem forall_insert {c : HeaderCache} {P : Header → Prop}
    (h : ∀ table header, c.find? table = some header → P header)
    (table : String) {new : Header} (hnew : P new) :
    ∀ other header, (c.insert table new).find? other = some header →
      P header := by
  intro other header hfind
  rcases find?_insert_eq_some_iff.mp hfind with ⟨-, rfl⟩ | ⟨-, hfind⟩
  · exact hnew
  · exact h other header hfind

theorem header?_eq_some_iff {c : HeaderCache} {q : Query} {h : Header} :
    c.header? q = some h ↔
      c.find? q.table = some h ∧ h.path.sameAs q.path = true :=
  Option.filter_eq_some_iff

end HeaderCache

namespace Engine

/-! ## Events -/

/-- What happens to an engine and to the files around it. -/
inductive Event where
  | run (timeout : Nat) (sql : String)
  | invalidate (table : String)
  | clearCache
  /-- Files are written and removed. -/
  | change (files : Files)

/-- An engine and the files around it. -/
structure World where
  files : Files
  engine : Engine

namespace World

/-- A new engine among files. -/
def new (settings : Settings) (files : Files) : World :=
  { files, engine := .new settings }

/-- The world with another cache. -/
def withCache (w : World) (cache : HeaderCache) : World :=
  { w with engine := { w.engine with cache } }

/-- The world after an event. -/
def happen (w : World) : Event → World
  | .run timeout sql => { w with engine := (w.engine.runWithin timeout w.files sql).2 }
  | .invalidate table => { w with engine := (w.engine.invalidate table).2 }
  | .clearCache => { w with engine := w.engine.clearCache }
  | .change files => { w with files }

/-- The world after events, oldest first. -/
def live (w : World) (events : List Event) : World :=
  events.foldl happen w

/-- The query of a run, if it got its header. -/
def use? (w : World) : Event → Option Query
  | .run _ sql =>
    match Query.parse w.files sql with
    | .error _ => none
    | .ok q =>
      match (headerFor w.files w.engine.cache q).1 with
      | .error _ => none
      | .ok _ => some q
  | _ => none

/-- The queries among events that got their headers, oldest first. -/
def uses (w : World) : List Event → List Query
  | [] => []
  | event :: events => (w.use? event).toList ++ (w.happen event).uses events

end World

/-- The last of some queries that uses a table name. -/
def lastUse? (uses : List Query) (table : String) : Option Query :=
  uses.reverse.find? fun q => q.table == table

theorem lastUse?_append_own (uses : List Query) (q : Query) :
    lastUse? (uses ++ [q]) q.table = some q := by
  simp [lastUse?]

theorem lastUse?_append_other {uses : List Query} {q : Query} {table : String}
    (h : table ≠ q.table) :
    lastUse? (uses ++ [q]) table = lastUse? uses table := by
  simp [lastUse?, h.symm]

/-! ## What an event does -/

namespace World

/-- What an event can do, and which query has used the cache for it. -/
inductive Change (w : World) : Event → Option Query → World → Prop
  | failed {timeout : Nat} {sql : String} : Change w (.run timeout sql) none w
  | found {timeout : Nat} {sql : String} {q : Query} {h : Header} :
      Query.parse w.files sql = .ok q → w.engine.cache.find? q.table = some h →
      h.path.sameAs q.path = true → Change w (.run timeout sql) (some q) w
  | read {timeout : Nat} {sql : String} {q : Query} {h : Header} :
      Query.parse w.files sql = .ok q → w.engine.cache.header? q = none →
      Header.read w.files q.path = .ok h →
      Change w (.run timeout sql) (some q)
        (w.withCache (w.engine.cache.insert q.table h))
  | invalidated {table : String} :
      Change w (.invalidate table) none
        (w.withCache (w.engine.cache.erase table))
  | cleared : Change w .clearCache none (w.withCache .empty)
  | changed {files : Files} : Change w (.change files) none { w with files }

theorem change_of_run (w : World) (timeout : Nat) (sql : String) :
    w.Change (.run timeout sql) (w.use? (.run timeout sql))
      (w.happen (.run timeout sql)) := by
  simp only [use?, happen, runWithin]
  cases hparse : Query.parse w.files sql with
  | error errors => exact .failed
  | ok q =>
      simp only [headerFor]
      cases hcached : w.engine.cache.header? q with
      | some h =>
          obtain ⟨hfind, hpath⟩ := HeaderCache.header?_eq_some_iff.mp hcached
          exact .found hparse hfind hpath
      | none =>
          cases hread : Header.read w.files q.path with
          | error error => exact .failed
          | ok h => exact .read hparse hcached hread

/-- Whatever happens is one of the changes. -/
theorem change_of_happen (w : World) (event : Event) :
    w.Change event (w.use? event) (w.happen event) := by
  cases event with
  | run timeout sql => exact w.change_of_run timeout sql
  | invalidate table => exact .invalidated
  | clearCache => exact .cleared
  | change files => exact .changed

/-- What holds of the headers kept and of all headers that can be read goes
on to hold of those kept. -/
theorem Change.kept {w w' : World} {event : Event} {use : Option Query}
    (change : Change w event use w') {P : Header → Prop}
    (h : ∀ table header, w.engine.cache.find? table = some header → P header)
    (read : ∀ path header, Header.read w.files path = .ok header → P header) :
    ∀ table header, w'.engine.cache.find? table = some header → P header := by
  cases change with
  | failed => exact h
  | found => exact h
  | read _ _ hread => exact HeaderCache.forall_insert h _ (read _ _ hread)
  | invalidated =>
      intro table header hfind
      exact h table header (HeaderCache.find?_erase_eq_some_iff.mp hfind).2
  | cleared =>
      intro table header hfind
      cases hfind
  | changed => exact h

/-- What every change keeps holds after every history. -/
theorem keep (holds : List Query → World → Prop) (events : List Event)
    (step : ∀ event ∈ events, ∀ {uses w use w'}, Change w event use w' →
      holds uses w → holds (uses ++ use.toList) w')
    (before : List Query) {w : World} (first : holds before w) :
    holds (before ++ w.uses events) (w.live events) := by
  induction events generalizing before w with
  | nil =>
      rw [uses, List.append_nil]
      exact first
  | cons event events ih =>
      rw [uses, ← List.append_assoc]
      refine ih (fun e he => step e (List.mem_cons_of_mem event he)) _ ?_
      exact step event List.mem_cons_self (w.change_of_happen event) first

theorem Change.settings {w w' : World} {event : Event} {use : Option Query}
    (change : Change w event use w') :
    w'.engine.settings = w.engine.settings := by
  cases change <;> rfl

/-- An engine keeps its settings. -/
theorem live_settings (w : World) (events : List Event) :
    (w.live events).engine.settings = w.engine.settings := by
  refine keep (fun _ w' => w'.engine.settings = w.engine.settings) events ?_ [] rfl
  intro event _ uses w₁ use w₂ change h
  exact change.settings.trans h

end World
end Engine
end CsvQuery
