/-
Paths as they are written in a query, and the components they stand for.
-/

namespace CsvQuery

/-- A path as written. -/
structure Path where
  text : String
deriving DecidableEq, Repr, Inhabited

namespace Path

inductive Component where
  | root
  | here
  | parent
  | name (text : List Char)
deriving DecidableEq, Repr

/-- The pieces between slashes, the piece read so far being in reverse. -/
def piecesFrom (piece : List Char) : List Char → List (List Char)
  | [] => [piece.reverse]
  | c :: cs => if c = '/' then piece.reverse :: piecesFrom [] cs else piecesFrom (c :: piece) cs

def pieces (p : Path) : List (List Char) :=
  piecesFrom [] p.text.toList

/-- The component a piece stands for after the first one: empty pieces and
single dots stand for nothing. -/
def component? (piece : List Char) : Option Component :=
  if piece = [] || piece = ['.'] then none
  else if piece = ['.', '.'] then some .parent
  else some (.name piece)

/-- The components of a path.  A leading slash is the root and a leading dot
is kept; two paths with the same components name the same file. -/
def components (p : Path) : List Component :=
  match p.text.toList with
  | '/' :: _ => .root :: p.pieces.filterMap component?
  | _ =>
    match p.pieces with
    | ['.'] :: rest => .here :: rest.filterMap component?
    | pieces => pieces.filterMap component?

/-- Equality by components, under which `d//t.csv` and `d/./t.csv` are
`d/t.csv` but `./d/t.csv` is not. -/
def sameAs (p q : Path) : Bool :=
  p.components == q.components

/-- The last component, if it is a name. -/
def fileName? (p : Path) : Option (List Char) :=
  match p.components.getLast? with
  | some (.name n) => some n
  | _ => none

/-- What follows the last dot of a file name, unless nothing precedes it. -/
def extensionOf? (name : List Char) : Option (List Char) :=
  let tail := name.reverse.takeWhile (· != '.')
  match name.reverse.dropWhile (· != '.') with
  | _ :: _ :: _ => some tail.reverse
  | _ => none

def extension? (p : Path) : Option (List Char) :=
  p.fileName?.bind extensionOf?

/-- A path inside the directory `p`. -/
def join (p : Path) (name : String) : Path :=
  if p.text = "" then ⟨name⟩
  else if p.text.toList.getLast? = some '/' then ⟨p.text ++ name⟩
  else ⟨p.text ++ "/" ++ name⟩

end Path
end CsvQuery
