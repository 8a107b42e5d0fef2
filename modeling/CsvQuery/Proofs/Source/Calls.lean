/-
Sources as their callers know them.

A caller asks for the header and for the next row, in any order and as often as
it likes, and knows of a source nothing but the answers.  Two sources answer
every sequence of calls alike when a relation between them says so of one call
and lasts through it (`answers_eq`).
-/
import CsvQuery.Csv.Source

namespace CsvQuery

/-- What can be asked of a source. -/
class RowSource (σ : Type) where
  /-- The header, and the source after it has been asked for. -/
  readHeader : σ → Except SourceError (List String) × σ
  /-- The next row, or none at the end, and the source behind it. -/
  next : σ → Except SourceError (Option Row) × σ

instance : RowSource CsvSource where
  readHeader := CsvSource.readHeader
  next := CsvSource.next

instance : RowSource MemorySource where
  readHeader s := (s.readHeader, s)
  next s := (.ok s.next.1, s.next.2)

inductive SourceCall where
  | header
  | row
deriving DecidableEq

inductive SourceAnswer where
  | header (answer : Except SourceError (List String))
  | row (answer : Except SourceError (Option Row))

namespace SourceAnswer

def header? : SourceAnswer → Option (Except SourceError (List String))
  | .header answer => some answer
  | .row _ => none

def row? : SourceAnswer → Option (Except SourceError (Option Row))
  | .header _ => none
  | .row answer => some answer

end SourceAnswer

namespace RowSource

/-- The answer to a call, and the source after it. -/
def answer {σ : Type} [RowSource σ] (s : σ) : SourceCall → SourceAnswer × σ
  | .header => (.header (readHeader s).1, (readHeader s).2)
  | .row => (.row (next s).1, (next s).2)

/-- The answers to some calls, the first one made first. -/
def answers {σ : Type} [RowSource σ] (s : σ) :
    List SourceCall → List SourceAnswer
  | [] => []
  | call :: calls => (answer s call).1 :: answers (answer s call).2 calls

theorem answers_eq {σ τ : Type} [RowSource σ] [RowSource τ]
    {agree : σ → τ → Prop}
    (keeps : ∀ s t call, agree s t →
      (answer s call).1 = (answer t call).1 ∧
      agree (answer s call).2 (answer t call).2) {s : σ} {t : τ}
    (h : agree s t) (calls : List SourceCall) :
    answers s calls = answers t calls := by
  induction calls generalizing s t with
  | nil => rfl
  | cons call calls ih =>
      obtain ⟨hanswer, hagree⟩ := keeps s t call h
      rw [answers, answers, hanswer, ih hagree]

end RowSource
end CsvQuery
