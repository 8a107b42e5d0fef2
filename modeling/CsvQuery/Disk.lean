/-
A disk that can be read and written, with a working directory on it.

A path is walked piece by piece, and every step needs a directory to start
from: so there is nothing behind a file, not even the file itself under `.`,
and a fault tells where the walk came to an end.
-/
import CsvQuery.Files

namespace CsvQuery

/-- A file, a device, or a directory with named trees in it. -/
inductive FileTree where
  | file (bytes : List UInt8)
  | broken (bytes : List UInt8) (fault : IoFault)
  | locked (fault : IoFault)
  | device
  | directory (contents : List (List Char × FileTree))

namespace FileTree

/-- A directory with nothing in it. -/
def empty : FileTree := .directory []

/-- What a name for the whole tree names. -/
def entry : FileTree → Entry
  | .file bytes => .file bytes
  | .broken bytes fault => .broken bytes fault
  | .locked fault => .locked fault
  | .device => .device
  | .directory _ => .directory

def contents : FileTree → List (List Char × FileTree)
  | .directory contents => contents
  | _ => []

/-- The tree that some names lead to. -/
def at? : FileTree → List (List Char) → Option FileTree
  | t, [] => some t
  | t, name :: names =>
    match t.contents.lookup name with
    | none => none
    | some inner => inner.at? names

/-- The tree with another one where some names lead to; the directories on
the way are made. -/
def set : FileTree → List (List Char) → FileTree → FileTree
  | _, [], new => new
  | t, name :: names, new =>
    .directory ((name, ((t.contents.lookup name).getD empty).set names new) ::
      t.contents.filter fun old => old.1 != name)

/-- The tree without what some names lead to. -/
def unset : FileTree → List (List Char) → FileTree
  | t, [] => t
  | t, [name] => .directory (t.contents.filter fun old => old.1 != name)
  | t, name :: names =>
    match t.contents.lookup name with
    | none => t
    | some inner =>
      .directory ((name, inner.unset names) :: t.contents.filter fun old => old.1 != name)

end FileTree

/-- A disk with a working directory, given by the names that lead to it. -/
structure Disk where
  root : FileTree
  work : List (List Char)

namespace Disk

def usualDirectories : List String :=
  ["bin", "dev", "etc", "home", "lib", "opt", "proc", "root", "run", "sbin", "sys", "tmp", "usr",
    "var"]

def usualDevices : List String :=
  ["full", "null", "random", "tty", "urandom", "zero"]

/-- What every system has on its disk, as far as it matters that it is there. -/
def usualRoot : FileTree :=
  let bare : FileTree :=
    .directory (usualDirectories.map fun name => (name.toList, FileTree.empty))
  let devices : FileTree :=
    .directory (usualDevices.map fun name => (name.toList, FileTree.device))
  (bare.set ["dev".toList] devices).set ["etc".toList, "passwd".toList] (.file [])

/-- A disk with nothing else on it than an empty working directory.  That one
has a name without characters, which no path can spell. -/
def empty : Disk :=
  let work := ["home".toList, []]
  { root := usualRoot.set work .empty, work }

/-- What is found in a place, given by the names that lead to it, innermost
first. -/
def entryAt (d : Disk) (place : List (List Char)) : Option Entry :=
  (d.root.at? place.reverse).map FileTree.entry

/-! ## Walks -/

def step (d : Disk) (place : List (List Char)) (piece : List Char) :
    Except IoFault (List (List Char)) :=
  match d.entryAt place with
  | none => .error .notFound
  | some .directory =>
    if piece = [] || piece = ['.'] then .ok place
    else if piece = ['.', '.'] then .ok place.tail
    else if Path.mostNameBytes < (String.ofList piece).utf8ByteSize then .error .nameTooLong
    else .ok (piece :: place)
  | some _ => .error .notDirectory

def start (d : Disk) (p : Path) : List (List Char) :=
  if p.text.toList.head? = some '/' then [] else d.work.reverse

def place (d : Disk) (p : Path) : Except IoFault (List (List Char)) :=
  match p.refusal? with
  | some fault => .error fault
  | none => p.pieces.foldlM d.step (d.start p)

/-- What a path names. -/
def view (d : Disk) : Files := fun p => do
  match d.entryAt (← d.place p) with
  | none => .error .notFound
  | some e => .ok e

/-! ## Changes -/

/-- Make the directories that lead from a place along the pieces of a path,
where they are missing; `made` says whether one has been made before.  A file
in the way is no directory, but where directories are being made it is
something that is there already. -/
def makeFrom (d : Disk) (place : List (List Char)) (made : Bool) :
    List (List Char) → Disk × Except IoFault Unit
  | [] => (d, .ok ())
  | piece :: pieces =>
    match d.step place piece with
    | .error fault => (d, .error fault)
    | .ok next =>
      match d.entryAt next with
      | none => makeFrom { d with root := d.root.set next.reverse .empty } next true pieces
      | some .directory => makeFrom d next made pieces
      | some _ => (d, .error (if made || pieces.isEmpty then .alreadyThere else .notDirectory))

/-- Make a path a directory, with those on the way. -/
def makeDirectory (d : Disk) (p : Path) : Disk × Except IoFault Unit :=
  match p.refusal? with
  | some fault => (d, .error fault)
  | none => d.makeFrom (d.start p) false p.pieces

/-- Write a file into a directory that is there.  What has been in a file
before, even if it could not be read, is gone. -/
def write (d : Disk) (p : Path) (bytes : List UInt8) : Except IoFault Disk := do
  let place ← d.place p
  match d.entryAt place with
  | some .directory => .error .isDirectory
  | some (.locked fault) => .error fault
  | some .device => .ok d
  | _ => .ok { d with root := d.root.set place.reverse (.file bytes) }

/-- Put a tree where a path leads to, with the directories on the way. -/
def putTree (d : Disk) (p : Path) (t : FileTree) : Disk :=
  let made := (d.makeFrom (d.start p) false p.pieces.dropLast).1
  match made.place p with
  | .error _ => made
  | .ok place => { made with root := made.root.set place.reverse t }

/-- Put an entry where a path leads to, with the directories on the way. -/
def put (d : Disk) (p : Path) : Entry → Disk
  | .file bytes => d.putTree p (.file bytes)
  | .broken bytes fault => d.putTree p (.broken bytes fault)
  | .locked fault => d.putTree p (.locked fault)
  | .directory => (d.makeDirectory p).1
  | .device => d.putTree p .device

/-- Remove what a path names, with everything inside.  The working directory
is emptied instead. -/
def remove (d : Disk) (p : Path) : Disk :=
  match d.place p with
  | .error _ => d
  | .ok place =>
    let root :=
      if place.reverse = d.work then d.root.set d.work .empty else d.root.unset place.reverse
    { d with root }

end Disk
end CsvQuery
