/-
Queries that share an engine.

Several queries run on one engine at the same time.  A query holds the lock of
the header cache for one lookup and for one insertion and lets it go in
between, so these are moves of their own: between any two moves of one query
the others can move, tables can be invalidated and the cache can be cleared.
`live` plays moves in any order, and `live_alone` says that a query which is
left to itself makes the moves of `runWithin`.

A query never goes back to the cache for what it has found there.  So all that
it takes from the others is a header that was kept for its own path, and as
long as no file changes that is the header it would have read (`Accords`).
-/
import CsvQuery.Proofs.Engine.AnyDeadline

namespace CsvQuery

namespace Engine

/-! ## Moves -/

/-- A query text to be run, and how the pool of its run will deliver. -/
structure Request where
  sql : String
  pool : Pool

/-- How far a query has come. -/
inductive Phase where
  | submitted
  /-- The text has been read. -/
  | parsed (q : Query)
  /-- The cache has no header for the query. -/
  | missed (q : Query)
  /-- The header has been read, and is not kept yet. -/
  | loaded (q : Query) (h : Header)
  /-- The header is at hand. -/
  | ready (q : Query) (h : Header)
  | answered (outcome : Outcome)

/-- What the next move of a query makes of it and of the cache. -/
def Request.next (w : World) (request : Request) : Phase → Phase × HeaderCache
  | .submitted =>
    match Query.parse w.files request.sql with
    | .error errors => (.answered (.failed (errors.map .grammar)), w.engine.cache)
    | .ok q => (.parsed q, w.engine.cache)
  | .parsed q =>
    match w.engine.cache.header? q with
    | some h => (.ready q h, w.engine.cache)
    | none => (.missed q, w.engine.cache)
  | .missed q =>
    match Header.read w.files q.path with
    | .error error => (.answered (.failed [.source error]), w.engine.cache)
    | .ok h => (.loaded q h, w.engine.cache)
  | .loaded q h => (.ready q h, w.engine.cache.insert q.table h)
  | .ready q h =>
    (.answered (outcomeOf (answerBy request.pool w.files w.engine.settings h q)), w.engine.cache)
  | .answered outcome => (.answered outcome, w.engine.cache)

/-- A query in its run. -/
structure Session where
  request : Request
  phase : Phase

/-- An engine among its files, with the queries that share it. -/
structure Shared where
  world : World
  sessions : List Session

inductive Move where
  /-- The query with this number makes its next move. -/
  | advance (i : Nat)
  | invalidate (table : String)
  | clearCache
deriving DecidableEq

namespace Shared

/-- Requests to an engine, none of which has been taken up. -/
def new (w : World) (requests : List Request) : Shared :=
  { world := w, sessions := requests.map fun request => ⟨request, .submitted⟩ }

/-- All after a move. -/
def move (s : Shared) : Move → Shared
  | .advance i =>
    match s.sessions[i]? with
    | none => s
    | some session =>
      let (phase, cache) := session.request.next s.world session.phase
      { world := s.world.withCache cache
        sessions := s.sessions.set i ⟨session.request, phase⟩ }
  | .invalidate table => { s with world := s.world.happen (.invalidate table) }
  | .clearCache => { s with world := s.world.happen .clearCache }

/-- All after some moves, the first one made first. -/
def live (s : Shared) (moves : List Move) : Shared :=
  moves.foldl move s

end Shared

/-- How many moves a query makes at most. -/
def mostMoves : Nat := 5

/-- How many moves a query still makes at most. -/
def Phase.left : Phase → Nat
  | .submitted => mostMoves
  | .parsed _ => 4
  | .missed _ => 3
  | .loaded _ _ => 2
  | .ready _ _ => 1
  | .answered _ => 0

theorem Phase.eq_answered {phase : Phase}
    (h : phase.left = 0) : ∃ o, phase = .answered o := by
  cases phase with
  | answered o => exact ⟨o, rfl⟩
  | submitted => cases h
  | parsed q => cases h
  | missed q => cases h
  | loaded q header => cases h
  | ready q header => cases h

/-! ## What a move does -/

/-- What a move can make of a query and of the cache. -/
inductive Request.Step (w : World)
    (request : Request) : Phase → Phase → HeaderCache → Prop
  | refused {errors : List GrammarError} :
      Query.parse w.files request.sql = .error errors →
        Step w request .submitted
          (.answered (.failed (errors.map .grammar))) w.engine.cache
  | accepted {q : Query} :
      Query.parse w.files request.sql = .ok q →
        Step w request .submitted (.parsed q) w.engine.cache
  | hit {q : Query} {h : Header} :
      w.engine.cache.header? q = some h →
        Step w request (.parsed q) (.ready q h) w.engine.cache
  | miss {q : Query} :
      w.engine.cache.header? q = none →
        Step w request (.parsed q) (.missed q) w.engine.cache
  | unread {q : Query} {error : SourceError} :
      Header.read w.files q.path = .error error →
        Step w request (.missed q)
          (.answered (.failed [.source error])) w.engine.cache
  | read {q : Query} {h : Header} :
      Header.read w.files q.path = .ok h →
        Step w request (.missed q) (.loaded q h) w.engine.cache
  | kept {q : Query} {h : Header} :
      Step w request (.loaded q h) (.ready q h)
        (w.engine.cache.insert q.table h)
  | searched {q : Query} {h : Header} :
      Step w request (.ready q h)
        (.answered (outcomeOf
          (answerBy request.pool w.files w.engine.settings h q))) w.engine.cache
  | finished {o : Outcome} :
      Step w request (.answered o) (.answered o) w.engine.cache

theorem Request.step_of_next (w : World) (request : Request) (phase : Phase) :
    request.Step w phase (request.next w phase).1 (request.next w phase).2 := by
  cases phase with
  | submitted =>
      dsimp only [next]
      cases hparse : Query.parse w.files request.sql with
      | error errors => exact .refused hparse
      | ok q => exact .accepted hparse
  | parsed q =>
      dsimp only [next]
      cases hcached : w.engine.cache.header? q with
      | some h => exact .hit hcached
      | none => exact .miss hcached
  | missed q =>
      dsimp only [next]
      cases hread : Header.read w.files q.path with
      | error error => exact .unread hread
      | ok h => exact .read hread
  | loaded q h => exact .kept
  | ready q h => exact .searched
  | answered o => exact .finished

/-- Every move brings a query nearer to its end. -/
theorem Request.Step.left_le {w : World} {request : Request}
    {phase phase' : Phase} {cache : HeaderCache}
    (step : request.Step w phase phase' cache) :
    phase'.left ≤ phase.left - 1 := by
  cases step <;> simp [Phase.left, mostMoves]

/-! ## A query that is left to itself -/

/-- A query that nobody disturbs makes the moves of a run. -/
theorem Shared.live_alone (w : World) (timeout : Nat) (sql : String) :
    (new w [⟨sql, runJob timeout⟩]).live (List.replicate mostMoves (.advance 0))
      = { world := w.happen (.run timeout sql)
          sessions := [⟨⟨sql, runJob timeout⟩, .answered (w.outcome timeout sql)⟩] } := by
  obtain ⟨files, settings, cache⟩ := w
  simp only [live, new, mostMoves, List.replicate, List.foldl, move, World.outcome, World.happen,
    runWithin, List.map]
  cases hparse : Query.parse files sql with
  | error errors => simp [Request.next, hparse, World.withCache]
  | ok q =>
      cases hcached : cache.header? q with
      | some h =>
          simp [Request.next, hparse, hcached, headerFor, World.withCache,
            answerBy_runJob]
      | none =>
          cases hread : Header.read files q.path with
          | error error =>
              simp [Request.next, hparse, hcached, hread, headerFor, World.withCache]
          | ok h =>
              simp [Request.next, hparse, hcached, hread, headerFor, World.withCache,
                answerBy_runJob]

/-! ## A query among others -/

section
variable {settings : Settings} {files : Files}

/-- What a query has in hand is what it would have on an engine of its own. -/
def Request.Accords (settings : Settings) (files : Files)
    (request : Request) : Phase → Prop
  | .submitted => True
  | .parsed q => Query.parse files request.sql = .ok q
  | .missed q => Query.parse files request.sql = .ok q
  | .loaded q h => Query.parse files request.sql = .ok q ∧ Header.read files q.path = .ok h
  | .ready q h =>
    Query.parse files request.sql = .ok q ∧
      ∃ own, Header.read files q.path = .ok own ∧ own.names = h.names
  | .answered o => o = (World.new settings files).outcomeBy request.pool request.sql

section
variable {pool : Pool} {sql : String} {q : Query}

theorem World.outcomeBy_new_of_refused {errors : List GrammarError}
    (hparse : Query.parse files sql = .error errors) :
    (World.new settings files).outcomeBy pool sql
      = .failed (errors.map .grammar) := by
  simp [outcomeBy, new, hparse]

theorem World.headerFor_new :
    (headerFor files (Engine.new settings).cache q).1
      = Header.read files q.path := by
  have hnone : (Engine.new settings).cache.header? q = none := rfl
  simp only [headerFor, hnone]
  cases Header.read files q.path <;> rfl

theorem World.outcomeBy_new_of_unread {error : SourceError}
    (hparse : Query.parse files sql = .ok q)
    (hread : Header.read files q.path = .error error) :
    (World.new settings files).outcomeBy pool sql
      = .failed [.source error] := by
  simp [outcomeBy, new, hparse, headerFor_new, hread]

theorem World.outcomeBy_new_of_read {h : Header}
    (hparse : Query.parse files sql = .ok q)
    (hread : Header.read files q.path = .ok h) :
    (World.new settings files).outcomeBy pool sql
      = outcomeOf (answerBy pool files settings h q) := by
  simp [outcomeBy, new, hparse, headerFor_new, hread]
  rfl

end

/-- A move of a query leaves it as it would be on its own, and the cache
current. -/
theorem Request.Step.accords {w : World} {request : Request}
    {phase phase' : Phase} {cache : HeaderCache}
    (step : request.Step w phase phase' cache)
    (decides : ComponentsDecide files) (current : w.Current files)
    (own : w.engine.settings = settings)
    (h : request.Accords settings files phase) :
    request.Accords settings files phase' ∧
    (w.withCache cache).Current files := by
  obtain ⟨rfl, -⟩ := id current
  subst own
  cases step with
  | refused hparse => exact ⟨(World.outcomeBy_new_of_refused hparse).symm, current⟩
  | accepted hparse => exact ⟨hparse, current⟩
  | hit hcached =>
      obtain ⟨hfind, hpath⟩ := HeaderCache.header?_eq_some_iff.mp hcached
      exact ⟨⟨h, current.own_header decides h hfind hpath⟩, current⟩
  | miss => exact ⟨h, current⟩
  | unread hread => exact ⟨(World.outcomeBy_new_of_unread h hread).symm, current⟩
  | read hread => exact ⟨⟨h, hread⟩, current⟩
  | @kept q header =>
      obtain ⟨hparse, hread⟩ := h
      exact ⟨⟨hparse, header, hread, rfl⟩, current.insert q.table hread⟩
  | searched =>
      obtain ⟨hparse, own, hread, hnames⟩ := h
      refine ⟨?_, current⟩
      rw [Accords, World.outcomeBy_new_of_read hparse hread, answerBy_congr hnames]
  | finished => exact ⟨h, current⟩

/-! ## Queries that share an engine -/

/-- All the headers kept are current, and every query is as it would be on
its own. -/
structure Shared.Coherent (settings : Settings) (files : Files)
    (s : Shared) : Prop where
  current : s.world.Current files
  own : s.world.engine.settings = settings
  each : ∀ session ∈ s.sessions,
    session.request.Accords settings files session.phase

namespace Shared

theorem coherent_new (settings : Settings) (files : Files)
    (requests : List Request) :
    (new (.new settings files) requests).Coherent settings files := by
  refine ⟨⟨rfl, ?_⟩, rfl, ?_⟩
  · intro table h hfind
    cases hfind
  · intro session hsession
    obtain ⟨request, -, rfl⟩ := List.mem_map.mp hsession
    exact trivial

theorem Coherent.move {s : Shared} (h : s.Coherent settings files)
    (decides : ComponentsDecide files) (move : Move) :
    (s.move move).Coherent settings files := by
  cases move with
  | advance i =>
      cases hsession : s.sessions[i]? with
      | none => simpa only [Shared.move, hsession] using h
      | some session =>
          simp only [Shared.move, hsession]
          have hstep := session.request.step_of_next s.world session.phase
          obtain ⟨haccords, hcurrent⟩ := hstep.accords decides h.current h.own
            (h.each session (List.mem_of_getElem? hsession))
          refine ⟨hcurrent, h.own, ?_⟩
          intro other hother
          rcases List.mem_or_eq_of_mem_set hother with hother | rfl
          · exact h.each other hother
          · exact haccords
  | invalidate table =>
      refine ⟨h.current.change (s.world.change_of_happen (.invalidate table)) ?_, h.own, h.each⟩
      rintro changed ⟨⟩
  | clearCache =>
      refine ⟨h.current.change (s.world.change_of_happen .clearCache) ?_, h.own, h.each⟩
      rintro changed ⟨⟩

theorem Coherent.live {s : Shared} (h : s.Coherent settings files)
    (decides : ComponentsDecide files) (moves : List Move) :
    (s.live moves).Coherent settings files := by
  induction moves generalizing s with
  | nil => exact h
  | cons move moves ih => exact ih (h.move decides move)

/-- A query comes nearer to its end with every move of its own, and the moves
of others let it be. -/
theorem session_move {s : Shared} {i : Nat} {session : Session}
    (h : s.sessions[i]? = some session) (move : Move) :
    ∃ phase, (s.move move).sessions[i]? = some ⟨session.request, phase⟩ ∧
      phase.left ≤ session.phase.left - [move].count (.advance i) := by
  cases move with
  | advance j =>
      by_cases hij : j = i
      · subst hij
        refine ⟨(session.request.next s.world session.phase).1, ?_, ?_⟩
        · obtain ⟨hlt, -⟩ := List.getElem?_eq_some_iff.mp h
          simp only [Shared.move, h, List.getElem?_set_self hlt]
        · simpa using (session.request.step_of_next s.world session.phase).left_le
      · refine ⟨session.phase, ?_, by simp [hij]⟩
        cases hother : s.sessions[j]? with
        | none => simpa [Shared.move, hother] using h
        | some other => simpa [Shared.move, hother, hij] using h
  | invalidate table => exact ⟨session.phase, h, by simp⟩
  | clearCache => exact ⟨session.phase, h, by simp⟩

theorem session_live {s : Shared} {i : Nat} {session : Session}
    (h : s.sessions[i]? = some session) (moves : List Move) :
    ∃ phase, (s.live moves).sessions[i]? = some ⟨session.request, phase⟩ ∧
      phase.left ≤ session.phase.left - moves.count (.advance i) := by
  induction moves generalizing s session with
  | nil => exact ⟨session.phase, h, Nat.le_refl _⟩
  | cons move moves ih =>
      obtain ⟨next, hnext, hleft⟩ := session_move h move
      obtain ⟨phase, hphase, hrest⟩ := ih hnext
      refine ⟨phase, hphase, ?_⟩
      have hcount : (move :: moves).count (.advance i)
          = [move].count (.advance i) + moves.count (.advance i) := by
        rw [← List.singleton_append, List.count_append]
      dsimp only at hrest
      omega

/-- Queries that share an engine do not disturb each other.  Whatever moves they
make among invalidations of tables and clearings of the cache, all headers kept
are those of their own paths, and each query has after enough moves the
outcome that it has on a new engine of its own. -/
theorem sharing_disturbs_no_query (settings : Settings) {files : Files}
    (decides : ComponentsDecide files) (requests : List Request)
    (moves : List Move) {s : Shared}
    (lived : (new (.new settings files) requests).live moves = s) :
    (∀ table h, s.world.engine.cache.find? table = some h →
        Header.read files h.path = .ok h) ∧
      ∀ i request, requests[i]? = some request →
        ∃ phase, s.sessions[i]? = some ⟨request, phase⟩ ∧
          (∀ o, phase = .answered o →
            o = (World.new settings files).outcomeBy request.pool request.sql ∧
            ∀ timeout, request.pool = runJob timeout →
              o = (World.new settings files).outcome timeout request.sql) ∧
          (mostMoves ≤ moves.count (.advance i) →
            ∃ o, phase = .answered o) := by
  subst lived
  have hcoherent := (coherent_new settings files requests).live decides moves
  refine ⟨hcoherent.current.2, ?_⟩
  intro i request hrequest
  have hnew : (new (.new settings files) requests).sessions[i]? = some ⟨request, .submitted⟩ := by
    simp [new, hrequest]
  obtain ⟨phase, hphase, hleft⟩ := session_live hnew moves
  refine ⟨phase, hphase, ?outcome, ?enough⟩
  case outcome =>
    rintro o rfl
    have ho : o = (World.new settings files).outcomeBy request.pool request.sql :=
      hcoherent.each _ (List.mem_of_getElem? hphase)
    refine ⟨ho, ?_⟩
    intro timeout hpool
    rw [ho, hpool, World.outcomeBy_runJob]
  case enough =>
    intro henough
    apply Phase.eq_answered
    have hmost : phase.left ≤ mostMoves - moves.count (.advance i) := hleft
    omega

/-- Two queries that call their files `e`. -/
def bothCalledE : List Request :=
  [⟨"SELECT * FROM path:t.csv AS e", runJob 1⟩,
    ⟨"SELECT * FROM path:u.csv AS e", runJob 1⟩]

/-- The queries take turns: the name `e` goes from `t.csv` to `u.csv` before the
search of `t.csv` begins, and is then forgotten. -/
def inTurns : List Move :=
  [.advance 0, .advance 1, .advance 0, .advance 1, .advance 0, .advance 1,
    .advance 0, .advance 1, .invalidate "e", .advance 1, .clearCache,
    .advance 0]

/-- Both queries get the columns of their own file. -/
theorem same_name_in_turns :
    ∃ s o o',
      (new (.new .standard World.twoFiles.view) bothCalledE).live inTurns
        = s ∧
      s.sessions[0]?.map Session.phase = some (.answered o) ∧
      s.sessions[1]?.map Session.phase = some (.answered o') ∧
      o.allColumns = ["a"] ∧ o'.allColumns = ["b"] := by
  obtain ⟨-, heach⟩ :=
    sharing_disturbs_no_query .standard (Disk.componentsDecide_view World.twoFiles)
    bothCalledE inTurns rfl
  obtain ⟨_, hfirst, houtcome, hanswered⟩ := heach 0 _ rfl
  obtain ⟨o, rfl⟩ := hanswered (by decide)
  obtain ⟨_, hsecond, houtcome', hanswered'⟩ := heach 1 _ rfl
  obtain ⟨o', rfl⟩ := hanswered' (by decide)
  refine ⟨_, o, o', rfl, ?_, ?_, ?_, ?_⟩
  · rw [hfirst]
    rfl
  · rw [hsecond]
    rfl
  · rw [(houtcome o rfl).2 1 rfl]
    decide +kernel
  · rw [(houtcome' o' rfl).2 1 rfl]
    decide +kernel

end Shared

end

end Engine
end CsvQuery
