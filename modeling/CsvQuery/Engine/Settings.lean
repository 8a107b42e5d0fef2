/-
Settings of the query engine.

A number that the environment gives badly counts as not given.
-/
import CsvQuery.Number.Integer

namespace CsvQuery

/-- Settings of the query engine.  Numbers are below 2^64. -/
structure Settings where
  /-- The time for one query, in milliseconds. -/
  timeout : Nat
  /-- The most rows a query returns. -/
  maxRows : Option Nat
deriving DecidableEq, Repr

namespace Settings

/-- One minute, and any number of rows. -/
def standard : Settings := { timeout := 60000, maxRows := none }

def longestTimeout : Nat := Integer.unsignedLimit - 1

def timeoutVariable : String := "CSVQL_QUERY_TIMEOUT_MS"

def maxRowsVariable : String := "CSVQL_MAX_ROWS"

/-- The number a variable holds, with optional blanks around it. -/
def countIn? (env : String → Option String) (name : String) : Option Nat :=
  (env name).bind fun s => Integer.readCount? (Text.trim s)

def ofEnvironment (env : String → Option String) : Settings :=
  { timeout := (countIn? env timeoutVariable).getD standard.timeout,
    maxRows := (countIn? env maxRowsVariable).or standard.maxRows }

/-- The settings with another timeout, given in microseconds; it is cut to
milliseconds, and to the longest one. -/
def withTimeout (s : Settings) (micros : Nat) : Settings :=
  { s with timeout := min (micros / 1000) longestTimeout }

def withMaxRows (s : Settings) (n : Nat) : Settings :=
  { s with maxRows := some n }

end Settings
end CsvQuery
