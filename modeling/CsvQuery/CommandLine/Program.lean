/-
The whole program: from its arguments to what it prints and its exit status.

With a query it answers the query and ends; without one it is an interactive
shell.  The configuration file is read first, and what it lacks or the
arguments contradict is settled then.
-/
import CsvQuery.CommandLine.Arguments
import CsvQuery.Shell.Session

namespace CsvQuery
namespace Program

def versionText : String := "csvql 0.1.0"

def helpText : List String :=
  ["Query CSV files with SQL-like expressions",
    "",
    "Usage: csvql [OPTIONS] [QUERY]",
    "",
    "Arguments:",
    "  [QUERY]  Query to run; starts the interactive shell when omitted",
    "",
    "Options:",
    "  -f, --format <FORMAT>          Output format [env: CSVQL_FORMAT=]"
      ++ " [possible values: table, json]",
    "  -t, --timeout-ms <TIMEOUT_MS>  Query deadline in milliseconds"
      ++ " [env: CSVQL_QUERY_TIMEOUT_MS=]",
    "      --max-rows <MAX_ROWS>      Maximum number of rows to print"
      ++ " [env: CSVQL_MAX_ROWS=]",
    "      --no-color                 Disable colored output",
    "      --config <CONFIG>          Config file (default: ~/.csvql/config.toml)"
      ++ " [env: CSVQL_CONFIG=]",
    "  -h, --help                     Print help",
    "  -V, --version                  Print version"]

def home (env : String → Option String) : String :=
  (env "HOME").getD "."

structure Ended where
  status : Nat
  reports : List Report
deriving DecidableEq, Repr

/-- The end of a program that cannot go on. -/
def broken (messages : List String) : Ended :=
  { status := 1, reports := messages.map .err }

/-- The end of a program that its command line stops. -/
def stopped : Stop → Ended
  | .misuse => { status := 2, reports := [.err "error: invalid arguments"] }
  | .help => { status := 0, reports := helpText.map .out }
  | .version => { status := 0, reports := [.out versionText] }

def misconfigured (e : ConfigError) : Ended :=
  broken ["Error: Failed to load config", "", "Caused by:", "    " ++ e.message]

inductive Start where
  | ends (ended : Ended)
  | answers (query : String) (config : Config) (style : Style)
  | converses (session : Session)
deriving DecidableEq, Repr

/-- What the program sets out to do with its arguments, its environment and
the files it finds. -/
def start (args : List String) (env : String → Option String)
    (files : Files) : Start :=
  match Arguments.read args env with
  | .error stop => .ends (stopped stop)
  | .ok arguments =>
    match Config.load files (arguments.config.getD (Config.path (home env))) with
    | .error e => .ends (misconfigured e)
    | .ok config =>
      let config := arguments.apply config
      match arguments.query with
      | some query => .answers query config ⟨config.colored && Style.forced env⟩
      | none =>
        .converses
          (.new config (Style.forced env) (home env) (History.load files (home env)))

def answer (files : Files) (query : String) (config : Config)
    (style : Style) : Ended :=
  let outcome := ((Engine.new config.settings).run files (Statement.queryText query)).1
  { status := if outcome.isOk then 0 else 1, reports := outcome.reports config.format style }

/-- The paths that a query text may ask about. -/
def pathsIn (text : String) : List Path :=
  (tokenize text).filterMap fun token => Token.path? token.toList

/-- The end of a shell that the user leaves. -/
def left : Ended :=
  { status := 0, reports := Session.farewell }

/-- The end of a shell that finds no directory to save its history in. -/
def homeless (fault : IoFault) : Ended :=
  broken ["Error: " ++ fault.message]

def unsaved (fault : IoFault) : Ended :=
  broken ["Error: " ++ fault.message, "", "Caused by:", "    " ++ fault.message]

/-- The end of a shell, which saves the history in a directory of its own. -/
def leave (session : Session) (d : Disk) : Disk × Ended :=
  match d.makeDirectory (Config.directory session.home) with
  | (d, .error fault) => (d, homeless fault)
  | (d, .ok ()) =>
    match session.history.save session.home d with
    | .error fault => (d, unsaved fault)
    | .ok d => (d, left)

/-- A shell from its greeting to its end. -/
def converse (session : Session) (input : List UInt8)
    (d : Disk) : Disk × Ended :=
  let typed := Typed.ofBytes input
  let (session, d, reports) := session.run typed.garbled d typed.lines
  let (d, ended) := leave session d
  (d, { ended with reports := Session.greeting ++ reports ++ ended.reports })

def run (args : List String) (env : String → Option String) (input : List UInt8)
    (d : Disk) : Disk × Ended :=
  match start args env d.view with
  | .ends ended => (d, ended)
  | .answers query config style => (d, answer d.view query config style)
  | .converses session => converse session input d

end Program
end CsvQuery
