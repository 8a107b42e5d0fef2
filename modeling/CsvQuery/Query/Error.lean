/-
What can be wrong with a query text, and how each fault is worded.
-/
import CsvQuery.Query.Basic

namespace CsvQuery

/-- Why a token is no column reference. -/
inductive RefFault where
  | unquoted
  | undotted
deriving DecidableEq, Repr

def RefFault.message : RefFault → String
  | .unquoted => "columns must be enclosed in single quotes"
  | .undotted => "columns must be in the form 'alias.column'"

/-- What is wrong with an entry of the select list. -/
inductive SelectFault where
  | nothing
  | starNotAlone
  | reference (fault : RefFault) (token : String)
deriving DecidableEq, Repr

def SelectFault.message : SelectFault → String
  | .nothing => "expected at least one column or *"
  | .starNotAlone => "* must be the only selected column"
  | .reference fault token => fault.message ++ ", got " ++ token

inductive PathFault where
  | malformed (token : String)
  | missing (path : Path)
  | notFile (path : Path)
  | notCsv (path : Path)
deriving DecidableEq, Repr

def PathFault.message : PathFault → String
  | .malformed token => "expected 'path:<file>', got " ++ token
  | .missing path => "file path " ++ path.text ++ " does not exist"
  | .notFile path => path.text ++ " is not a file"
  | .notCsv path =>
    "file " ++ path.text ++ " is not a csv file or it does not have a csv extension"

/-- Why a where clause has no condition where one belongs. -/
inductive WhereFault where
  | empty
  | emptyBefore (token : String)
  | nothingAfter (joiner : Connective) (token : String)
deriving DecidableEq, Repr

def WhereFault.message : WhereFault → String
  | .empty => "WHERE requires at least one condition"
  | .emptyBefore token => "WHERE requires at least one condition, got " ++ token
  | .nothingAfter joiner token =>
    "expected a condition after " ++ joiner.word ++ ", got " ++ token

inductive TypeFault where
  | unknown (word : String)
  | mismatch (valueType : ValueType) (value : String)
deriving DecidableEq, Repr

def TypeFault.message : TypeFault → String
  | .unknown word =>
    "expected one of " ++ ", ".intercalate (ValueType.all.map ValueType.word) ++
      ", got '" ++ word ++ "'"
  | .mismatch valueType value =>
    "expected a valid " ++ valueType.word ++ ", got '" ++ value ++ "'"

inductive SortFault where
  | noBy (token : String)
  | noColumn
  | reference (fault : RefFault) (token : String)
  | repeated
deriving DecidableEq, Repr

def SortFault.message : SortFault → String
  | .noBy token => "expected BY after ORDER, got " ++ token
  | .noColumn => "expected a column to order by"
  | .reference fault token => fault.message ++ ", got " ++ token
  | .repeated => "ORDER BY given more than once"

/-- The two clauses that take a number. -/
inductive Bound where
  | limit
  | offset
deriving DecidableEq, Repr

def Bound.word : Bound → String
  | .limit => "LIMIT"
  | .offset => "OFFSET"

/-- What is wrong with such a clause. -/
inductive BoundFault where
  | repeated (bound : Bound)
  | notNumber (bound : Bound) (token : String)
deriving DecidableEq, Repr

def BoundFault.message : BoundFault → String
  | .repeated bound => bound.word ++ " given more than once"
  | .notNumber bound token =>
    "expected " ++ bound.word ++ " to be a non-negative integer, got '" ++ token ++ "'"

/-- What a query that ends too early still needs. -/
inductive Expected where
  | select
  | column
  | columnAfterComma
  | fromWord
  | path
  | asWord
  | table
  | operator
  | value
  | conditionAfterJoiner
  | number (bound : Bound)
  | byWord
deriving DecidableEq, Repr

def Expected.message : Expected → String
  | .select => "expected SELECT"
  | .column => "expected selectable column"
  | .columnAfterComma => "expected selectable column after ','"
  | .fromWord => "expected FROM"
  | .path => "expected path:<file>"
  | .asWord => "expected AS"
  | .table => "expected alias"
  | .operator => "expected comparison operator"
  | .value => "expected condition value"
  | .conditionAfterJoiner => "expected a condition after logical operator"
  | .number bound => "expected integer after " ++ bound.word
  | .byWord => "expected BY after ORDER"

/-- A fault of a query text.  All but `unexpectedEnd` leave the rest of the
text readable. -/
inductive GrammarError where
  | invalidSelect (token : String)
  | invalidSelectItem (fault : SelectFault)
  | duplicateColumn (column : String)
  | invalidFrom (token : String)
  | invalidPath (fault : PathFault)
  | invalidAs (token : String)
  | invalidTable (token : String)
  | tableMismatch (expected : String) (found : ColumnRef)
  | invalidWhere (fault : WhereFault)
  | invalidConditionColumn (fault : RefFault) (token : String)
  | invalidComparison (token : String)
  | invalidConnective (token : String)
  | unquotedValue (token : String)
  | invalidType (fault : TypeFault)
  | invalidSort (fault : SortFault)
  | invalidBound (fault : BoundFault)
  | unexpectedToken (token : String)
  | unexpectedEnd (expected : Expected)
deriving DecidableEq, Repr

def GrammarError.message : GrammarError → String
  | .invalidSelect token => "Expected SELECT, got '" ++ token ++ "'"
  | .invalidSelectItem fault => "Invalid selectable column: " ++ fault.message
  | .duplicateColumn column => "Duplicate selectable column: " ++ column
  | .invalidFrom token => "Expected FROM, got '" ++ token ++ "'"
  | .invalidPath fault => "Invalid file path: " ++ fault.message
  | .invalidAs token => "Expected AS, got '" ++ token ++ "'"
  | .invalidTable token => "Invalid alias: '" ++ token ++ "'"
  | .tableMismatch expected found =>
    "Expected alias '" ++ expected ++ "', got '" ++ found.table ++ "' in '" ++ found.text ++ "'"
  | .invalidWhere fault => "Invalid WHERE clause: " ++ fault.message
  | .invalidConditionColumn fault token =>
    "Invalid condition column: " ++ fault.message ++ ", got " ++ token
  | .invalidComparison token =>
    "Invalid comparison operator '" ++ token ++ "', expected one of " ++
      ", ".intercalate (Comparison.all.map Comparison.symbol)
  | .invalidConnective token =>
    "Invalid logical operator '" ++ token ++ "', expected AND or OR"
  | .unquotedValue token =>
    "Condition values must be enclosed in single quotes, got " ++ token
  | .invalidType fault => "Invalid data type: " ++ fault.message
  | .invalidSort fault => "Invalid ORDER BY: " ++ fault.message
  | .invalidBound fault => "Invalid constraint: " ++ fault.message
  | .unexpectedToken token => "Unexpected token '" ++ token ++ "'"
  | .unexpectedEnd expected => "Unexpected end of query: " ++ expected.message

end CsvQuery
