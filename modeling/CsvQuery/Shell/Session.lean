/-
A session of the interactive shell.

A session takes the lines of its input one after the other.  A line that ends
a statement has it carried out and followed by an empty line.  `Session.feed`
does this for one line and `Session.run` for all of them, with the files they
work on.
-/
import CsvQuery.Config
import CsvQuery.Output.Report
import CsvQuery.Shell.Command
import CsvQuery.Shell.History

namespace CsvQuery

/-- What a statement has done, or asks to be done. -/
inductive Reaction where
  | prints (reports : List Report)
  /-- The configuration is to be saved. -/
  | saves
deriving DecidableEq, Repr

/-- The state of a shell between two lines. -/
structure Session where
  engine : Engine
  config : Config
  /-- Whether messages are painted if the configuration allows it. -/
  paintable : Bool
  /-- The home directory, where the configuration and the history are saved. -/
  home : String
  history : History
  /-- The lines of the statement that has begun. -/
  pending : List Char
  /-- Whether the user has left. -/
  closed : Bool
deriving DecidableEq, Repr

namespace Session

def new (config : Config) (paintable : Bool) (home : String)
    (history : History) : Session :=
  { engine := .new config.settings, config, paintable, home, history, pending := [],
    closed := false }

def style (s : Session) : Style := ⟨s.config.colored && s.paintable⟩

/-! ## Texts -/

def greeting : List Report :=
  [.out "csvql interactive shell",
    .out "Type 'help' for available commands, 'exit' or Ctrl+D to quit",
    .out ""]

def farewell : List Report := [.out "Goodbye!"]

def helpText : List String :=
  ["Available commands:",
    "",
    "  Queries:",
    "    SELECT <cols|*> FROM path:<file.csv> AS <alias>",
    "      [WHERE '<alias>.<col>'[::int|::float] <op> '<value>' [AND|OR ...]]",
    "      [ORDER BY '<alias>.<col>' [ASC|DESC], ...] [LIMIT n] [OFFSET n]",
    "    End a line with \\ to continue on the next line",
    "",
    "  Header Cache:",
    "    cache list",
    "    cache clear",
    "    cache invalidate <alias>",
    "",
    "  Settings:",
    "    format <table|json>",
    "    config save",
    "",
    "  Other:",
    "    help",
    "    exit, quit"]

/-! ## Statements -/

/-- Run a query text and report its outcome. -/
def query (files : Files) (text : String)
    (s : Session) : Session × List Report :=
  let (outcome, engine) := s.engine.run files (Statement.queryText text)
  ({ s with engine }, outcome.reports s.config.format s.style)

def cacheReports (s : Session) : List Report :=
  match s.engine.cache.tables with
  | [] => [s.style.info "No cached files"]
  | tables => tables.map fun table => .out ("  " ++ table)

def invalidate (table : String) (s : Session) : Session × List Report :=
  let (dropped, engine) := s.engine.invalidate table
  ({ s with engine },
    [if dropped then s.style.info ("Dropped cached header for '" ++ table ++ "'")
      else s.style.warning ("No cached header for '" ++ table ++ "'")])

def setFormat (format : OutputFormat) (s : Session) : Session × List Report :=
  if s.config.format = format then (s, [])
  else
    ({ s with config := { s.config with format } },
      [s.style.info ("Output format set to " ++ format.word)])

def execute (files : Files) (command : Command)
    (s : Session) : Session × Reaction :=
  match command with
  | .exit => ({ s with closed := true }, .prints [])
  | .help => (s, .prints (helpText.map .out))
  | .listCache => (s, .prints s.cacheReports)
  | .clearCache =>
    ({ s with engine := s.engine.clearCache }, .prints [s.style.info "Cache cleared"])
  | .invalidate table => ((s.invalidate table).1, .prints (s.invalidate table).2)
  | .setFormat format => ((s.setFormat format).1, .prints (s.setFormat format).2)
  | .saveConfig => (s, .saves)
  | .usage usage => (s, .prints [.out ("Usage: " ++ usage.text)])
  | .query text => ((s.query files text).1, .prints (s.query files text).2)

def saveReport (s : Session) : Except SaveError Unit → Report
  | .ok () => s.style.info ("Saved config to " ++ (Config.path s.home).text)
  | .error e => s.style.error e.message

/-! ## Lines -/

/-- Take a line.  The reaction is missing when the line ends no statement. -/
def feed (files : Files) (line : String)
    (s : Session) : Session × Option Reaction :=
  match Statement.join s.pending line.toList with
  | .pending lines => ({ s with pending := lines }, none)
  | .complete [] => ({ s with pending := [] }, none)
  | .complete statement =>
    let statement := String.ofList statement
    let (s, reaction) :=
      { s with pending := [], history := s.history.add statement }.execute files
        (.ofStatement statement)
    (s, some reaction)

/-- The reports on a statement, behind which an empty line comes unless the
session is over. -/
def closing (s : Session) (reports : List Report) : List Report :=
  if s.closed then reports else reports ++ [.out ""]

/-- Let a reaction take place among the files. -/
def settle (s : Session) (d : Disk) : Option Reaction → Disk × List Report
  | none => (d, [])
  | some (.prints reports) => (d, s.closing reports)
  | some .saves =>
    let (d, result) := s.config.save (Config.directory s.home) Config.fileName d
    (d, s.closing [s.saveReport result])

/-- What is shown when the input ends before the user has left. -/
def atEnd (garbled : Bool) : Report :=
  if garbled then .err "Error reading line: stream did not contain valid UTF-8" else .out "exit"

/-- Take all lines, up to the one with which the user leaves. -/
def run (garbled : Bool) (d : Disk) (s : Session) :
    List String → Session × Disk × List Report
  | [] => (s, d, [atEnd garbled])
  | line :: lines =>
    let (s, reaction) := s.feed d.view line
    let (d, reports) := s.settle d reaction
    if s.closed then (s, d, reports)
    else
      let (s, d, others) := run garbled d s lines
      (s, d, reports ++ others)

end Session
end CsvQuery
