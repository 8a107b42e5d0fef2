/-
The header cache does not show.

A run with a cached header differs from a run of a new engine only if the
header is stale: kept for the path of the query, but not what its file has for
a header now (`World.Stale`).  That is all the cache can do to a single run;
when it cannot happen is read off the history.  What is kept under a table name
stems from the last query that used the name (`Remembers`), so a header kept
for another path is never used, and as long as no file changes every header
kept is the one its file has (`Current`).

A query uses its table name when it gets its header.  One that fails before, as
its file has no header to be read, leaves the cache as it was, and the name
stands for what it stood for.
-/
import CsvQuery.Proofs.Engine.History
import CsvQuery.Proofs.Files.Walks
import CsvQuery.Proofs.Query.Language

namespace CsvQuery

/-! ## Reading a header -/

theorem CsvSource.ofContents_header (name name' : String) (c : Contents) :
    (ofContents name c).header = (ofContents name' c).header := by
  unfold ofContents
  cases Csv.recordsOf c.fault.isNone c.bytes <;> rfl

/-- The name of a source only shows when it has no header. -/
theorem CsvSource.headerRow_congr {source source' : CsvSource}
    {names : List String} (h : source.headerRow = .ok names)
    (header : source'.header = source.header) :
    source'.headerRow = .ok names := by
  unfold headerRow at h ⊢
  rw [header]
  split at h
  · cases h
  next hsome => rw [if_neg hsome, h]

theorem Header.read_eq_ok_iff {files : Files} {path : Path} {h : Header} :
    Header.read files path = .ok h ↔
      h.path = path ∧ ∃ source, CsvSource.ofFile files path = .ok source ∧
        source.headerRow = .ok h.names := by
  unfold read
  cases hfile : CsvSource.ofFile files path with
  | error error => simp [bind, Except.bind]
  | ok source =>
      cases hrow : source.headerRow with
      | error error => simp [bind, Except.bind, hrow]
      | ok names =>
          obtain ⟨path', names'⟩ := h
          simp [bind, Except.bind, hrow, pure, Except.pure, eq_comm]

/-- A header is read from something. -/
theorem Header.exists_entry_of_read {files : Files} {path : Path} {h : Header}
    (hread : Header.read files path = .ok h) : ∃ e, files h.path = .ok e := by
  obtain ⟨rfl, source, hfile, -⟩ := Header.read_eq_ok_iff.mp hread
  unfold CsvSource.ofFile Files.read at hfile
  cases hentry : files h.path with
  | error fault =>
      rw [hentry] at hfile
      cases hfile
  | ok e => exact ⟨e, rfl⟩

/-- Paths that name the same file have the same header. -/
theorem Header.read_congr {files : Files} {path path' : Path} {h : Header}
    (hread : Header.read files path = .ok h) (same : files path = files path') :
    Header.read files path' = .ok ⟨path', h.names⟩ := by
  obtain ⟨-, source, hfile, hrow⟩ := Header.read_eq_ok_iff.mp hread
  refine Header.read_eq_ok_iff.mpr ⟨rfl, ?_⟩
  unfold CsvSource.ofFile Files.read at hfile ⊢
  rw [← same]
  split at hfile
  · cases hfile
  · cases hfile
    exact ⟨_, rfl, CsvSource.headerRow_congr hrow (CsvSource.ofContents_header _ _ _)⟩

namespace Engine

/-- Of a header only the names count for the answer. -/
theorem answer_congr {files : Files} {settings : Settings} {timeout : Nat}
    {q : Query} {h h' : Header} (names : h.names = h'.names) :
    answer files settings timeout h q = answer files settings timeout h' q := by
  obtain ⟨path, names⟩ := h
  obtain ⟨path', names'⟩ := h'
  cases names
  rfl

namespace World

/-! ## One run -/

/-- The outcome of a query text. -/
def outcome (w : World) (timeout : Nat) (sql : String) : Outcome :=
  (w.engine.runWithin timeout w.files sql).1

/-- A header is kept for the path of a query, and is not the one its file has
now. -/
def Stale (w : World) (q : Query) : Prop :=
  ∃ h, w.engine.cache.find? q.table = some h ∧ h.path.sameAs q.path = true ∧
    ∀ now, Header.read w.files q.path = .ok now → now.names ≠ h.names

theorem not_stale_of_unkept {w : World} {q : Query}
    (h : w.engine.cache.find? q.table = none) :
    ¬ w.Stale q := by
  rintro ⟨kept, hfind, -⟩
  cases h.symm.trans hfind

/-- Without a stale header a run has the outcome that a new engine gives it. -/
theorem outcome_of_not_stale {w : World} (timeout : Nat) (sql : String)
    (current : ∀ q, Query.parse w.files sql = .ok q → ¬ w.Stale q) :
    w.outcome timeout sql
      = (new w.engine.settings w.files).outcome timeout sql := by
  unfold outcome runWithin
  cases hparse : Query.parse w.files sql with
  | error errors => simp [new, hparse]
  | ok q =>
      have hnone : (Engine.new w.engine.settings).cache.header? q = none := rfl
      simp only [new, hparse, headerFor, hnone]
      cases hcached : w.engine.cache.header? q with
      | none => cases Header.read w.files q.path <;> rfl
      | some h =>
          obtain ⟨hfind, hpath⟩ := HeaderCache.header?_eq_some_iff.mp hcached
          obtain ⟨now, hread, hnames⟩ : ∃ now, Header.read w.files q.path = .ok now ∧
              now.names = h.names := by
            apply Classical.byContradiction
            intro hunread
            refine current q hparse ⟨h, hfind, hpath, ?_⟩
            intro now hread hnames
            exact hunread ⟨now, hread, hnames⟩
          simp only [hread]
          rw [answer_congr hnames]
          rfl

/-! ## What the cache remembers -/

/-- What is kept under a table name is for the path that the name was last
used for. -/
def Remembers (uses : List Query) (w : World) : Prop :=
  ∀ table h, w.engine.cache.find? table = some h →
    ∃ q, lastUse? uses table = some q ∧ h.path.sameAs q.path = true

theorem Remembers.change {uses : List Query} {w w' : World} {event : Event}
    {use : Option Query} (h : Remembers uses w)
    (change : Change w event use w') :
    Remembers (uses ++ use.toList) w' := by
  have hunused : Remembers (uses ++ []) w := by
    rw [List.append_nil]
    exact h
  cases change with
  | failed => exact hunused
  | @found timeout sql q header _ hfind hpath =>
      intro table kept hkept
      by_cases htable : table = q.table
      · subst htable
        cases hfind.symm.trans hkept
        exact ⟨q, lastUse?_append_own uses q, hpath⟩
      · obtain ⟨last, hlast, hsame⟩ := h table kept hkept
        exact ⟨last, (lastUse?_append_other htable).trans hlast, hsame⟩
  | @read timeout sql q header _ _ hread =>
      intro table kept hkept
      rcases HeaderCache.find?_insert_eq_some_iff.mp hkept with ⟨rfl, rfl⟩ | ⟨htable, hkept⟩
      · refine ⟨q, lastUse?_append_own uses q, ?_⟩
        rw [(Header.read_eq_ok_iff.mp hread).1]
        exact Path.sameAs_iff.mpr rfl
      · obtain ⟨last, hlast, hsame⟩ := h table kept hkept
        exact ⟨last, (lastUse?_append_other htable).trans hlast, hsame⟩
  | invalidated =>
      intro table kept hkept
      exact hunused table kept (HeaderCache.find?_erase_eq_some_iff.mp hkept).2
  | cleared =>
      intro table kept hkept
      cases hkept
  | changed => exact hunused

/-- A table name that was last used for another path, or never, has no stale
header. -/
theorem Remembers.not_stale {uses : List Query} {w : World}
    (h : Remembers uses w) {q : Query}
    (other : ∀ used, lastUse? uses q.table = some used →
        used.path.sameAs q.path = false) :
    ¬ w.Stale q := by
  rintro ⟨kept, hfind, hpath, -⟩
  obtain ⟨used, hlast, hsame⟩ := h q.table kept hfind
  have hother := other used hlast
  rw [← Bool.not_eq_true, Path.sameAs_iff] at hother
  exact hother ((Path.sameAs_iff.mp hsame).symm.trans (Path.sameAs_iff.mp hpath))

/-- Every header kept is the one that its file has. -/
def Current (files : Files) (w : World) : Prop :=
  w.files = files ∧ ∀ table h, w.engine.cache.find? table = some h →
    Header.read files h.path = .ok h

/-- The header that a file has can be kept. -/
theorem Current.insert {files : Files} {w : World} (h : Current files w)
    (table : String) {path : Path} {header : Header}
    (read : Header.read files path = .ok header) :
    Current files (w.withCache (w.engine.cache.insert table header)) := by
  obtain ⟨rfl, hkept⟩ := h
  refine ⟨rfl, HeaderCache.forall_insert hkept table ?_⟩
  rw [(Header.read_eq_ok_iff.mp read).1]
  exact read

/-- As long as no file changes, the headers kept stay current. -/
theorem Current.change {files : Files} {w w' : World} {event : Event}
    {use : Option Query} (h : Current files w)
    (change : Change w event use w')
    (unchanged : ∀ changed, event = .change changed → changed = files) :
    Current files w' := by
  obtain ⟨rfl, hkept⟩ := h
  refine ⟨?_, change.kept hkept ?_⟩
  · cases change with
    | changed => exact unchanged _ rfl
    | _ => rfl
  · intro path header hread
    rw [(Header.read_eq_ok_iff.mp hread).1]
    exact hread

/-- A header kept for the path of a query is the one the query would read. -/
theorem Current.own_header {files : Files} {w : World} (h : Current files w)
    (decides : ComponentsDecide files) {sql : String} {q : Query}
    {kept : Header} (hparse : Query.parse files sql = .ok q)
    (hfind : w.engine.cache.find? q.table = some kept)
    (hpath : kept.path.sameAs q.path = true) :
    ∃ own, Header.read files q.path = .ok own ∧ own.names = kept.names := by
  have hread := h.2 q.table kept hfind
  obtain ⟨e, hkept⟩ := Header.exists_entry_of_read hread
  obtain ⟨e', hown, -⟩ := exists_file_of_parse hparse
  have hsame : files kept.path = files q.path := by
    rw [hkept, hown, decides _ _ _ _ hpath hkept hown]
  exact ⟨_, Header.read_congr hread hsame, rfl⟩

theorem Current.not_stale {files : Files} {w : World} (h : Current files w)
    (decides : ComponentsDecide files) {sql : String} {q : Query}
    (hparse : Query.parse files sql = .ok q) : ¬ w.Stale q := by
  rintro ⟨kept, hfind, hpath, hstale⟩
  obtain ⟨own, hread, hnames⟩ := h.own_header decides hparse hfind hpath
  rw [← h.1] at hread
  exact hstale own hread hnames

/-! ## Any history -/

/-- What is kept after any history is for the paths last used. -/
theorem remembers_live (settings : Settings) (files : Files)
    (events : List Event) :
    Remembers ((new settings files).uses events)
      ((new settings files).live events) := by
  refine keep Remembers events ?_ [] ?_
  · intro event _ uses w use w' change h
    exact h.change change
  · intro table h hfind
    cases hfind

/-- After a history in which no file changes every header kept is current. -/
theorem current_live (settings : Settings) (files : Files) (events : List Event)
    (unchanged : ∀ changed, .change changed ∈ events → changed = files) :
    Current files ((new settings files).live events) := by
  refine keep (fun _ w => Current files w) events ?_ [] ⟨rfl, ?_⟩
  · intro event hevent uses w use w' change h
    refine h.change change ?_
    rintro changed rfl
    exact unchanged changed hevent
  · intro table h hfind
    cases hfind

/-- After any history a query text has the outcome that a new engine gives it
over the same files, unless the header kept for it is stale.  None is right
after its table was invalidated or the cache was cleared, none is as long as
its table was last used for another path or not at all, and none ever is if no
file changes and paths with the same components name the same, as on a disk. -/
theorem cache_is_transparent (settings : Settings) (files : Files)
    (events : List Event) (timeout : Nat) (sql : String) {w : World}
    (lived : (new settings files).live events = w) :
    ((∀ q, Query.parse w.files sql = .ok q → ¬ w.Stale q) →
      w.outcome timeout sql = (new settings w.files).outcome timeout sql) ∧
    (∀ q, Query.parse w.files sql = .ok q →
      (w.happen (.invalidate q.table)).outcome timeout sql
        = (new settings w.files).outcome timeout sql) ∧
    (w.happen .clearCache).outcome timeout sql
      = (new settings w.files).outcome timeout sql ∧
    (∀ q, Query.parse w.files sql = .ok q →
      (∀ used, lastUse? ((new settings files).uses events) q.table = some used →
        used.path.sameAs q.path = false) →
      w.outcome timeout sql = (new settings w.files).outcome timeout sql) ∧
    ((∀ changed, .change changed ∈ events → changed = files) →
      ComponentsDecide files →
      w.outcome timeout sql = (new settings w.files).outcome timeout sql) := by
  have hsettings : w.engine.settings = settings := by
    rw [← lived]
    exact live_settings _ events
  have fresh : ∀ w' : World, w'.engine.settings = w.engine.settings → w'.files = w.files →
      (∀ q, Query.parse w'.files sql = .ok q → ¬ w'.Stale q) →
      w'.outcome timeout sql = (new settings w.files).outcome timeout sql := by
    intro w' hsame hfiles current
    rw [← hsettings, ← hsame, ← hfiles]
    exact outcome_of_not_stale timeout sql current
  refine ⟨fresh w rfl rfl, ?invalidated, ?cleared, ?other, ?unchanged⟩
  case invalidated =>
    intro q hparse
    refine fresh _ rfl rfl ?_
    intro q' hparse'
    cases hparse.symm.trans hparse'
    exact not_stale_of_unkept ((HeaderCache.find?_erase _ _ _).trans (if_pos rfl))
  case cleared =>
    refine fresh _ rfl rfl ?_
    intro q _
    exact not_stale_of_unkept rfl
  case other =>
    intro q hparse hother
    refine fresh w rfl rfl ?_
    intro q' hparse'
    cases hparse.symm.trans hparse'
    have hremembers := remembers_live settings files events
    rw [lived] at hremembers
    exact hremembers.not_stale hother
  case unchanged =>
    intro hunchanged decides
    refine fresh w rfl rfl ?_
    intro q hparse
    have hcurrent := current_live settings files events hunchanged
    rw [lived] at hcurrent
    rw [hcurrent.1] at hparse
    exact hcurrent.not_stale decides hparse

/-- The file `t.csv` with these bytes, and every other file with those. -/
def filesWith (bytes others : List UInt8) : Files := fun path =>
  .ok (.file (if path.sameAs ⟨"t.csv"⟩ then bytes else others))

theorem filesWith_congr {bytes others : List UInt8} {p p' : Path}
    (h : p.sameAs p' = true) :
    filesWith bytes others p = filesWith bytes others p' := by
  have hname : p.sameAs ⟨"t.csv"⟩ = p'.sameAs ⟨"t.csv"⟩ := by
    rw [Path.sameAs, Path.sameAs, Path.sameAs_iff.mp h]
  rw [filesWith, filesWith, hname]

/-- All of a file, as the table `e`. -/
def wholeFile (name : String) : Query :=
  { select := [.all], path := ⟨name⟩, table := "e", conditions := [], constraints := {} }

/-- A disk with the files `t.csv` and `u.csv`. -/
def twoFiles : Disk :=
  { root := .directory
      [("t.csv".toList, .file [97, 10, 49, 10]), ("u.csv".toList, .file [98, 10, 50, 10])]
    work := [] }

/-- The name `e` is used for `t.csv` and then for `u.csv`, and the column `a` of
`t.csv` is renamed to `b`. -/
def repointed (others : List UInt8) : List Event :=
  [.run 1 "SELECT * FROM path:t.csv AS e", .run 1 "SELECT * FROM path:u.csv AS e",
    .change (filesWith [98, 10, 49, 10] others)]

/-- The name stands for `t.csv` again, whose old header went with `u.csv`.  On a
disk, where nothing changes, the header kept for `./t.csv` serves `.//t.csv`,
although not all that has the same components names a file there. -/
theorem repointed_name_is_fresh :
    Outcome.allColumns
      (((new .standard (filesWith [97, 10, 49, 10] [99, 10])).live
        (repointed [99, 10])).outcome 1
        "SELECT * FROM path:t.csv AS e") = ["b"] ∧
    (⟨"./t.csv/."⟩ : Path).sameAs ⟨"./t.csv"⟩ = true ∧
    twoFiles.view ⟨"./t.csv/."⟩ = .error .notDirectory ∧
    Outcome.rows
      (((new .standard twoFiles.view).live
        [.run 1 "SELECT * FROM path:./t.csv AS e"]).outcome 1
        "SELECT * FROM path:.//t.csv AS e") = [[("a", "1")]] := by
  have hparse : Query.parse (filesWith [98, 10, 49, 10] [99, 10]) "SELECT * FROM path:t.csv AS e"
      = .ok (wholeFile "t.csv") :=
    ofTokens_eq_ok (by decide +kernel) (by decide +kernel)
  have huses : lastUse? ((new .standard (filesWith [97, 10, 49, 10] [99, 10])).uses
      (repointed [99, 10])) "e" = some (wholeFile "u.csv") := by
    decide +kernel
  obtain ⟨-, -, -, hother, -⟩ := cache_is_transparent .standard
    (filesWith [97, 10, 49, 10] [99, 10]) (repointed [99, 10]) 1 "SELECT * FROM path:t.csv AS e" rfl
  obtain ⟨-, -, -, -, hunchanged⟩ := cache_is_transparent .standard twoFiles.view
    [.run 1 "SELECT * FROM path:./t.csv AS e"] 1 "SELECT * FROM path:.//t.csv AS e" rfl
  refine ⟨?_, by decide +kernel, by rfl, ?_⟩
  · rw [hother (wholeFile "t.csv") hparse ?_]
    · decide +kernel
    · intro used hused
      cases huses.symm.trans hused
      decide +kernel
  · rw [hunchanged (by simp) (Disk.componentsDecide_view twoFiles)]
    decide +kernel

/-- A query that finds no header uses its table name for nothing: with `u.csv`
empty the old header is still there for `t.csv`, and is stale. -/
theorem failed_use_leaves_stale_header :
    (∀ bytes (p p' : Path), p.sameAs p' = true →
        filesWith bytes [] p = filesWith bytes [] p') ∧
      Query.parse (filesWith [97, 10, 49, 10] [])
        "SELECT * FROM path:u.csv AS e"
        = .ok (wholeFile "u.csv") ∧
      Query.parse (filesWith [98, 10, 49, 10] [])
        "SELECT * FROM path:t.csv AS e"
        = .ok (wholeFile "t.csv") ∧
      (wholeFile "u.csv").path.sameAs (wholeFile "t.csv").path = false ∧
      Outcome.allColumns
        (((new .standard (filesWith [97, 10, 49, 10] [])).live
          (repointed [])).outcome 1
          "SELECT * FROM path:t.csv AS e") = ["a"] ∧
      Outcome.allColumns
        ((new .standard (filesWith [98, 10, 49, 10] [])).outcome 1
          "SELECT * FROM path:t.csv AS e") = ["b"] := by
  refine ⟨fun _ _ _ => filesWith_congr, ?_, ?_, ?_, ?_, ?_⟩
  · exact ofTokens_eq_ok (by decide +kernel) (by decide +kernel)
  · exact ofTokens_eq_ok (by decide +kernel) (by decide +kernel)
  · decide +kernel
  · decide +kernel
  · decide +kernel

end World
end Engine
end CsvQuery
