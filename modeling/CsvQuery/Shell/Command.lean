/-
Commands of the interactive shell.

    exit | quit | \q
    help | \h
    cache [list | clear | invalidate <table>]
    format <table|json>
    config save

The words of a command stand between blanks.  Words that begin like one of the
last three but go on otherwise are answered with its usage; everything else is
a query.
-/
import CsvQuery.Output.Format
import CsvQuery.Shell.Statement

namespace CsvQuery

/-- The commands whose usage is explained. -/
inductive Usage where
  | cache
  | format
  | config
deriving DecidableEq, Repr

def Usage.text : Usage → String
  | .cache => "cache [list|clear|invalidate <alias>]"
  | .format => "format <table|json>"
  | .config => "config save"

/-- What a user asks of the shell. -/
inductive Command where
  | exit
  | help
  | listCache
  | clearCache
  | invalidate (table : String)
  | setFormat (format : OutputFormat)
  | saveConfig
  | usage (usage : Usage)
  | query (text : String)
deriving DecidableEq, Repr

namespace Command

/-- The command that words spell, unless they are a query. -/
def ofWords? : List String → Option Command
  | ["exit"] | ["quit"] | ["\\q"] => some .exit
  | ["help"] | ["\\h"] => some .help
  | ["cache"] | ["cache", "list"] => some .listCache
  | ["cache", "clear"] => some .clearCache
  | ["cache", "invalidate", table] => some (.invalidate table)
  | "cache" :: _ => some (.usage .cache)
  | ["format", name] =>
    match OutputFormat.ofName? name with
    | some format => some (.setFormat format)
    | none => some (.usage .format)
  | "format" :: _ => some (.usage .format)
  | ["config", "save"] => some .saveConfig
  | "config" :: _ => some (.usage .config)
  | _ => none

def ofStatement (statement : String) : Command :=
  (ofWords? (Text.words statement)).getD (.query (Statement.queryText statement))

end Command
end CsvQuery
