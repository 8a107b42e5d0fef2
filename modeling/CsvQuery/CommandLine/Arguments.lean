/-
The arguments of the command line.

    [-f|--format <table|json>] [-t|--timeout-ms <n>] [--max-rows <n>]
    [--no-color] [--config <file>] [-h|--help] [-V|--version] [--] [<query>]

Arguments are taken from left to right, and the first that is wrong, or that
asks for help or the version, ends it.  The value of an option is the next
argument, or is attached: `--format=json`, `-f=json`, `-fjson`.  A value that
is not attached cannot begin with a dash, unless it is a dash.  Nothing can be
given twice.  Options that are missing are looked up in the environment.
-/
import CsvQuery.Config

namespace CsvQuery

/-- What the command line says. -/
structure Arguments where
  query : Option String := none
  format : Option OutputFormat := none
  /-- The time for one query, in milliseconds. -/
  timeout : Option Nat := none
  /-- The most rows a query returns. -/
  maxRows : Option Nat := none
  noColor : Bool := false
  /-- The configuration file. -/
  config : Option Path := none
deriving DecidableEq, Repr

/-- Why a command line starts nothing. -/
inductive Stop where
  | misuse
  | help
  | version
deriving DecidableEq, Repr

/-- The options that take a value. -/
inductive ValueOption where
  | format
  | timeout
  | maxRows
  | config
deriving DecidableEq, Repr

/-- What the name of an option stands for. -/
inductive Switch where
  | takes (option : ValueOption)
  | noColor
  | stops (stop : Stop)
deriving DecidableEq, Repr

namespace Switch

def ofName? (name : String) : Option Switch :=
  match name with
  | "format" => some (.takes .format)
  | "timeout-ms" => some (.takes .timeout)
  | "max-rows" => some (.takes .maxRows)
  | "config" => some (.takes .config)
  | "no-color" => some .noColor
  | "help" => some (.stops .help)
  | "version" => some (.stops .version)
  | _ => none

def ofLetter? (letter : Char) : Option Switch :=
  match letter with
  | 'f' => some (.takes .format)
  | 't' => some (.takes .timeout)
  | 'h' => some (.stops .help)
  | 'V' => some (.stops .version)
  | _ => none

end Switch

/-- An argument by its form. -/
inductive Argument where
  | plain (text : String)
  /-- The two dashes behind which every argument is plain. -/
  | dashes
  /-- An option, perhaps with a value attached. -/
  | option (switch : Switch) (value : Option String)
  | unknown
deriving DecidableEq, Repr

namespace Argument

/-- What is attached to a short name. -/
def attached? (rest : List Char) : Option String :=
  match rest with
  | [] => none
  | '=' :: value => some (String.ofList value)
  | value => some (String.ofList value)

/-- The value behind the equals sign of a long name, if there is one. -/
def assigned? (rest : List Char) : Option String :=
  match rest with
  | [] => none
  | _ :: value => some (String.ofList value)

def ofText (text : String) : Argument :=
  match text.toList with
  | ['-', '-'] => .dashes
  | '-' :: '-' :: cs =>
    match Switch.ofName? (String.ofList (cs.takeWhile (· != '='))) with
    | none => .unknown
    | some switch => .option switch (assigned? (cs.dropWhile (· != '=')))
  | '-' :: letter :: rest =>
    match Switch.ofLetter? letter with
    | none => .unknown
    | some (.stops stop) => .option (.stops stop) none
    | some switch => .option switch (attached? rest)
  | _ => .plain text

end Argument

namespace Arguments

/-- Give something that has not been given yet. -/
def once {α : Type} (old : Option α)
    (new : Option α) : Except Stop (Option α) :=
  match old, new with
  | none, some a => .ok (some a)
  | _, _ => .error .misuse

def pathOf? (text : String) : Option Path :=
  if text = "" then none else some ⟨text⟩

def withValue (a : Arguments) (option : ValueOption)
    (text : String) : Except Stop Arguments :=
  match option with
  | .format => (once a.format (OutputFormat.ofWord? text)).map fun v => { a with format := v }
  | .timeout => (once a.timeout (Integer.readCount? text)).map fun v => { a with timeout := v }
  | .maxRows => (once a.maxRows (Integer.readCount? text)).map fun v => { a with maxRows := v }
  | .config => (once a.config (pathOf? text)).map fun v => { a with config := v }

def withQuery (a : Arguments) (text : String) : Except Stop Arguments :=
  (once a.query (some text)).map fun v => { a with query := v }

def withNoColor (a : Arguments) : Except Stop Arguments :=
  if a.noColor then .error .misuse else .ok { a with noColor := true }

/-- Can an argument be the value of the option in front of it? -/
def isValue (text : String) : Bool :=
  match Argument.ofText text with
  | .plain _ => true
  | _ => false

/-- Take the arguments one after the other. -/
def readFrom (a : Arguments) : List String → Except Stop Arguments
  | [] => .ok a
  | text :: rest =>
    match Argument.ofText text with
    | .plain text => do readFrom (← a.withQuery text) rest
    | .dashes => rest.foldlM withQuery a
    | .unknown => .error .misuse
    | .option (.takes option) (some value) => do readFrom (← a.withValue option value) rest
    | .option (.takes option) none =>
      match rest with
      | [] => .error .misuse
      | value :: rest =>
        if isValue value then do readFrom (← a.withValue option value) rest
        else .error .misuse
    | .option .noColor none => do readFrom (← a.withNoColor) rest
    | .option (.stops stop) none => .error stop
    | .option _ (some _) => .error .misuse

/-- The variable in which an option is looked up. -/
def variableOf : ValueOption → String
  | .format => "CSVQL_FORMAT"
  | .timeout => Settings.timeoutVariable
  | .maxRows => Settings.maxRowsVariable
  | .config => "CSVQL_CONFIG"

def has (a : Arguments) : ValueOption → Bool
  | .format => a.format.isSome
  | .timeout => a.timeout.isSome
  | .maxRows => a.maxRows.isSome
  | .config => a.config.isSome

/-- Look an option up in the environment if it has not been given. -/
def complete (env : String → Option String) (a : Arguments)
    (option : ValueOption) : Except Stop Arguments :=
  match env (variableOf option) with
  | some text => if a.has option then .ok a else a.withValue option text
  | none => .ok a

/-- What the arguments and the environment say. -/
def read (args : List String)
    (env : String → Option String) : Except Stop Arguments := do
  [.format, .timeout, .maxRows, .config].foldlM (complete env) (← readFrom {} args)

/-- What the command line says goes before what the configuration says. -/
def apply (a : Arguments) (c : Config) : Config :=
  { format := a.format.getD c.format
    colored := c.colored && !a.noColor
    timeout := a.timeout.getD c.timeout
    maxRows := a.maxRows.or c.maxRows }

end Arguments
end CsvQuery
