/-
The files a query can see.

A query only asks what a path names, so files are a function from paths to
entries, or to the fault that the system answers with instead.  That something
is a file does not mean that it can be read: opening it may fail, and so may
reading it, after some of its bytes.
-/
import CsvQuery.Path

namespace CsvQuery

inductive IoFault where
  | notFound
  | denied
  | isDirectory
  | notDirectory
  | alreadyThere
  | nameTooLong
  | nulByte
  | other (reason : String)
deriving DecidableEq, Repr

def IoFault.message : IoFault → String
  | .notFound => "No such file or directory (os error 2)"
  | .denied => "Permission denied (os error 13)"
  | .isDirectory => "Is a directory (os error 21)"
  | .notDirectory => "Not a directory (os error 20)"
  | .alreadyThere => "File exists (os error 17)"
  | .nameTooLong => "File name too long (os error 36)"
  | .nulByte => "file name contained an unexpected NUL byte"
  | .other reason => reason

/-- What a path names. -/
inductive Entry where
  | file (bytes : List UInt8)
  /-- A file that cannot be read to its end, but only up to a fault. -/
  | broken (bytes : List UInt8) (fault : IoFault)
  /-- A file that cannot be opened. -/
  | locked (fault : IoFault)
  | directory
  /-- A device, which is no file but can be read, and gives nothing. -/
  | device
deriving DecidableEq, Repr

/-- What reading gives: bytes, and the fault that comes behind them where that
is not the end. -/
structure Contents where
  bytes : List UInt8
  fault : Option IoFault
deriving DecidableEq, Repr

namespace Entry

/-- Is it a file, whether or not it can be read? -/
def isFile : Entry → Bool
  | .file _ => true
  | .broken _ _ => true
  | .locked _ => true
  | .directory => false
  | .device => false

/-- What reading it gives, or why it cannot be opened.  A directory can, but
not read. -/
def read : Entry → Except IoFault Contents
  | .file bytes => .ok ⟨bytes, none⟩
  | .broken bytes fault => .ok ⟨bytes, some fault⟩
  | .locked fault => .error fault
  | .directory => .ok ⟨[], some .isDirectory⟩
  | .device => .ok ⟨[], none⟩

end Entry

/-- What every path names, or why it names nothing. -/
abbrev Files := Path → Except IoFault Entry

/-- What reading a path gives, or why it cannot be opened. -/
def Files.read (files : Files) (path : Path) : Except IoFault Contents :=
  (files path).bind Entry.read

namespace Path

def mostBytes : Nat := 4095

def mostNameBytes : Nat := 255

/-- Why the system does not even look for what a path names. -/
def refusal? (p : Path) : Option IoFault :=
  if p.text.toList.contains '\x00' then some .nulByte
  else if p.text = "" then some .notFound
  else if mostBytes < p.text.utf8ByteSize then some .nameTooLong
  else none

end Path
end CsvQuery
