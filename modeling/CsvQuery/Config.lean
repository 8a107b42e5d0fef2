/-
The configuration of the command line, and its file.

The file is a TOML document whose entries may be missing or, if unknown, are
skipped.  Its whole numbers have 64 bits with a sign, so a number from 2^63 on
can be held but not saved.
-/
import CsvQuery.Disk
import CsvQuery.Output.Format
import CsvQuery.Text.Utf8
import CsvQuery.Toml.Document

namespace CsvQuery

/-- The configuration of the command line.  Numbers are below 2^64. -/
structure Config where
  format : OutputFormat
  colored : Bool
  /-- The time for one query, in milliseconds. -/
  timeout : Nat
  /-- The most rows a query returns. -/
  maxRows : Option Nat
deriving DecidableEq, Repr

/-- Why a configuration file gives no configuration. -/
inductive ConfigError where
  | unreadable (path : Path)
  | invalid (path : Path)
deriving DecidableEq, Repr

def ConfigError.message : ConfigError → String
  | .unreadable path => "Failed to read " ++ path.text
  | .invalid path => "Invalid config file " ++ path.text

/-- Why a configuration cannot be saved. -/
inductive SaveError where
  | io (fault : IoFault)
  | tooLarge
deriving DecidableEq, Repr

def SaveError.message : SaveError → String
  | .io fault => fault.message
  | .tooLarge => "out-of-range value for u64 type"

namespace Config

/-- The configuration without a file. -/
def standard : Config :=
  { format := .table, colored := true, timeout := Settings.standard.timeout,
    maxRows := Settings.standard.maxRows }

def settings (c : Config) : Settings :=
  { timeout := c.timeout, maxRows := c.maxRows }

/-! ## Reading -/

/-- The names of the entries. -/
def formatKey : String := "output_format"

def coloredKey : String := "colored"

def timeoutKey : String := "query_timeout_ms"

def maxRowsKey : String := "max_rows"

/-- Is there nothing in this table or array? -/
def isHollow : Toml.Value → Bool
  | .array [] => true
  | .table _ [] => true
  | _ => false

/-- The format that a value names: its word, alone or as the only key of a
table with nothing below. -/
def formatOf? : Toml.Value → Option OutputFormat
  | .text word => OutputFormat.ofWord? word
  | .table _ [(word, v)] => if isHollow v then OutputFormat.ofWord? word else none
  | _ => none

def flagOf? : Toml.Value → Option Bool
  | .boolean b => some b
  | _ => none

def countOf? : Toml.Value → Option Nat
  | .integer (.ofNat n) => some n
  | _ => none

/-- An entry read by `read?`, or `missing` where there is none. -/
def field {α : Type} (entries : Toml.Entries) (key : String)
    (read? : Toml.Value → Option α) (missing : α) : Option α :=
  match entries.lookup key with
  | none => some missing
  | some v => read? v

def ofEntries (entries : Toml.Entries) : Option Config := do
  let format ← field entries formatKey formatOf? standard.format
  let colored ← field entries coloredKey flagOf? standard.colored
  let timeout ← field entries timeoutKey countOf? standard.timeout
  let maxRows ← field entries maxRowsKey (fun v => (countOf? v).map some) standard.maxRows
  return { format, colored, timeout, maxRows }

def read? (text : String) : Option Config :=
  (Toml.read? text).bind ofEntries

/-- The configuration in the file a path names, or the standard one if there
is no file. -/
def load (files : Files) (path : Path) : Except ConfigError Config :=
  match files path with
  | .error _ => .ok standard
  | .ok e =>
    match e.read with
    | .ok ⟨bytes, none⟩ =>
      match Utf8.decode bytes with
      | .error _ => .error (.unreadable path)
      | .ok text =>
        match read? text with
        | none => .error (.invalid path)
        | some c => .ok c
    | _ => .error (.unreadable path)

/-! ## Writing -/

/-- The least number that a file cannot hold. -/
def tooLarge : Nat := Integer.signedLimit

def entryLine (key value : String) : String :=
  key ++ " = " ++ value ++ "\n"

def text (c : Config) : String :=
  entryLine formatKey ("\x22" ++ c.format.word ++ "\x22") ++
    entryLine coloredKey (if c.colored then "true" else "false") ++
    entryLine timeoutKey (toString c.timeout) ++
    (match c.maxRows with
      | none => ""
      | some n => entryLine maxRowsKey (toString n))

/-- Can a file hold the configuration? -/
def fits (c : Config) : Bool :=
  c.timeout < tooLarge && c.maxRows.all (· < tooLarge)

/-- Save a configuration under a name in a directory, which is made if it is
missing. -/
def save (c : Config) (directory : Path) (name : String) (d : Disk) :
    Disk × Except SaveError Unit :=
  match d.makeDirectory directory with
  | (made, .error fault) => (made, .error (.io fault))
  | (made, .ok ()) =>
    if c.fits then
      match made.write (directory.join name) (Utf8.encode c.text) with
      | .error fault => (made, .error (.io fault))
      | .ok written => (written, .ok ())
    else (made, .error .tooLarge)

/-! ## The place of the file -/

/-- The directory of the shell's files, below the home directory. -/
def directory (home : String) : Path :=
  Path.join ⟨home⟩ ".csvql"

def fileName : String := "config.toml"

def path (home : String) : Path :=
  (directory home).join fileName

end Config
end CsvQuery
