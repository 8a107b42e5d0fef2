/-
Reading a query from its tokens.

    SELECT (* | 'e.col' [, 'e.col']...)
    FROM path:<file.csv>
    AS e
    [WHERE 'e.col'[::int|::float|::string] <op> 'value' [(AND|OR) ...]]
    [OFFSET <n>] [LIMIT <n>] [ORDER BY 'e.col' [, 'e.col']... [ASC|DESC]]

A clause reads tokens from the front and leaves the rest.  A wrong token is
an error but takes the place of the right one, so that later clauses are
still read where they stand and their errors are found too.  Only a missing
token stops the reading.
-/
import CsvQuery.Query.Error
import CsvQuery.Files
import CsvQuery.Token
import CsvQuery.Number.Binary64

namespace CsvQuery

/-! ## Clauses -/

/-- What reading a clause leaves behind: its value, unless a token was
missing, the errors on the way, and the tokens not yet read. -/
structure Walk (α : Type) where
  value : Option α
  errors : List GrammarError
  rest : List String

/-- A reader of tokens. -/
def Clause (α : Type) := List String → Walk α

namespace Clause

def pure {α : Type} (a : α) : Clause α := fun tokens => ⟨some a, [], tokens⟩

/-- Read one clause and then the one that follows it. -/
def bind {α β : Type} (c : Clause α)
    (next : α → Clause β) : Clause β := fun tokens =>
  let first := c tokens
  match first.value with
  | none => ⟨none, first.errors, first.rest⟩
  | some a =>
    let second := next a first.rest
    ⟨second.value, first.errors ++ second.errors, second.rest⟩

instance : Monad Clause where
  pure := pure
  bind := bind

/-- Stop, as a needed token is missing. -/
def stop {α : Type} (expected : Expected) : Clause α := fun tokens =>
  ⟨none, [.unexpectedEnd expected], tokens⟩

/-- Record errors and read on. -/
def report (errors : List GrammarError) : Clause Unit := fun tokens =>
  ⟨some (), errors, tokens⟩

def next (expected : Expected) : Clause String
  | [] => stop expected []
  | token :: rest => pure token rest

end Clause

/-! ## Tokens with a meaning -/

namespace Token

/-- The words that no table may be called. -/
def reserved : List String :=
  ["select", "from", "as", "where", "and", "or", "limit", "offset", "order", "by"]

def isReserved (token : String) : Bool :=
  reserved.any (Text.sameWord token)

/-- The words that start a clause after the conditions. -/
def startsConstraint (token : String) : Bool :=
  ["limit", "offset", "order"].any (Text.sameWord token)

/-- The text between the quotes of a quoted token. -/
def unquote? : List Char → Option (List Char)
  | [] => none
  | q :: cs =>
    if q = quoteMark && cs.getLast? = some quoteMark then some cs.dropLast else none

/-- The two sides of the only dot of a text, both non-empty. -/
def splitDot? (cs : List Char) : Option (List Char × List Char) :=
  let left := cs.takeWhile (· != '.')
  let right := (cs.dropWhile (· != '.')).drop 1
  if left.isEmpty || right.isEmpty || right.contains '.' then none else some (left, right)

/-- The column a token refers to. -/
def columnRef (token : List Char) : Except RefFault ColumnRef :=
  match unquote? token with
  | none => .error .unquoted
  | some inner =>
    match splitDot? inner with
    | none => .error .undotted
    | some (table, column) => .ok ⟨String.ofList table, String.ofList column⟩

/-- Split a reversed text at its last pair of colons, `right` being what
has been read of the part behind them. -/
def splitColonsFrom? (right : List Char) :
    List Char → Option (List Char × List Char)
  | ':' :: ':' :: left => some (left.reverse, right)
  | c :: left => splitColonsFrom? (c :: right) left
  | [] => none

/-- A column token without its declared type, and the word for the type. -/
def splitType (token : List Char) : List Char × Option (List Char) :=
  if (unquote? token).isSome then (token, none)
  else match splitColonsFrom? [] token.reverse with
    | some (column, word) => (column, some word)
    | none => (token, none)

/-- The path in a `path:` token, without its quotes if it has any. -/
def path? (token : List Char) : Option Path :=
  match token with
  | 'p' :: 'a' :: 't' :: 'h' :: ':' :: rest =>
    if rest.isEmpty then none else some ⟨String.ofList ((unquote? rest).getD rest)⟩
  | _ => none

/-- The connective that a token spells, in any case. -/
def connective? (token : String) : Option Connective :=
  if Text.sameWord token "and" then some .and
  else if Text.sameWord token "or" then some .or
  else none

end Token

/-- Is the text a value of the type? -/
def ValueType.accepts : ValueType → String → Bool
  | .int, s => (Integer.read? s).isSome
  | .float, s => (Binary64.read? s).isSome
  | .string, _ => true

/-! ## Select list -/

/-- Read a keyword, in any case. -/
def Clause.keyword (word : String) (expected : Expected)
    (fault : String → GrammarError) : Clause Unit := do
  let token ← next expected
  report (if Text.sameWord token word then [] else [fault token])

/-- An entry after the first: a column, or nothing and an error. -/
def selectEntry (token : String) : Option ColumnRef × List GrammarError :=
  if token = "*" then (none, [.invalidSelectItem .starNotAlone])
  else match Token.columnRef token.toList with
    | .ok ref => (some ref, [])
    | .error fault => (none, [.invalidSelectItem (.reference fault token)])

/-- The entries of a select list that starts with `token`. -/
def selectEntries (token : String) : Clause (List ColumnRef)
  | [] => ⟨some (selectEntry token).1.toList, (selectEntry token).2, []⟩
  | comma :: rest =>
    let (ref, errors) := selectEntry token
    if comma = "," then
      match rest with
      | [] => ⟨none, errors ++ [.unexpectedEnd .columnAfterComma], []⟩
      | token :: rest =>
        let others := selectEntries token rest
        ⟨others.value.map (ref.toList ++ ·), errors ++ others.errors, others.rest⟩
    else ⟨some ref.toList, errors, comma :: rest⟩

/-- The names that occur again, each once, in the order of their second
occurrences; `seen` and `reported` hold those met once and twice so far. -/
def repeatedFrom (seen reported : List String) : List String → List String
  | [] => []
  | name :: names =>
    if seen.contains name then
      if reported.contains name then repeatedFrom seen reported names
      else name :: repeatedFrom seen (name :: reported) names
    else repeatedFrom (name :: seen) reported names

/-- The names that occur more than once. -/
def repeatedNames (names : List String) : List String :=
  repeatedFrom [] [] names

/-- The columns of a select list that starts with `token`. -/
def selectColumns (token : String) : Clause (List SelectItem) := do
  let refs ← selectEntries token
  Clause.report ((repeatedNames (refs.map ColumnRef.column)).map .duplicateColumn)
  return refs.map .column

/-- What follows a `*`.  Further entries are an error, and skipped. -/
def afterStar : Clause (List SelectItem)
  | [] => Clause.pure [.all] []
  | token :: rest =>
    if token = "," then
      ⟨some [.all], [.invalidSelectItem .starNotAlone],
        (token :: rest).dropWhile fun t => !Text.sameWord t "from"⟩
    else Clause.pure [.all] (token :: rest)

def selectList : Clause (List SelectItem)
  | [] => Clause.stop .column []
  | token :: rest =>
    if Text.sameWord token "from" then
      ⟨some [], [.invalidSelectItem .nothing], token :: rest⟩
    else if token = "*" then afterStar rest
    else selectColumns token rest

/-! ## File and table -/

/-- Why a path names no csv file, if it does not. -/
def csvFault? (files : Files) (path : Path) : Option PathFault :=
  match files path with
  | .error _ => some (.missing path)
  | .ok e =>
    if e.isFile then
      match path.extension? with
      | none => some (.notCsv path)
      | some ext =>
        if Text.sameWord (String.ofList ext) "csv" then none else some (.notCsv path)
    else some (.notFile path)

def filePath (files : Files) : Clause Path := do
  let token ← Clause.next .path
  match Token.path? token.toList with
  | none =>
    Clause.report [.invalidPath (.malformed token)]
    return ⟨""⟩
  | some path =>
    Clause.report ((csvFault? files path).toList.map .invalidPath)
    return path

/-- The name of the table.  A reserved word is left for the clause it
starts. -/
def tableName : Clause (Option String)
  | [] => Clause.stop .table []
  | token :: rest =>
    if Token.isReserved token then ⟨some none, [.invalidTable token], token :: rest⟩
    else if token.toList.any fun c => c == Token.quoteMark || c == '.' || c == ',' then
      ⟨some none, [.invalidTable token], rest⟩
    else ⟨some (some token), [], rest⟩

/-- The error of a reference to another table, when the table is known. -/
def mismatch (table : Option String) (ref : ColumnRef) : List GrammarError :=
  match table with
  | none => []
  | some table => if ref.table = table then [] else [.tableMismatch table ref]

/-- The errors of the select list against the table. -/
def selectMismatches (table : Option String)
    (items : List SelectItem) : List GrammarError :=
  items.flatMap fun
    | .all => []
    | .column ref => mismatch table ref

/-! ## Conditions -/

/-- The column of a condition and its errors; a reference to another table
is no column. -/
def conditionColumn (table : Option String) (token : String)
    (column : List Char) : Option ColumnRef × List GrammarError :=
  match Token.columnRef column with
  | .error fault => (none, [.invalidConditionColumn fault token])
  | .ok ref =>
    match mismatch table ref with
    | [] => (some ref, [])
    | errors => (none, errors)

/-- The declared type of a condition and its errors.  The outer option is
empty when the word is unknown. -/
def conditionType :
    Option (List Char) → Option (Option ValueType) × List GrammarError
  | none => (some none, [])
  | some word =>
    match ValueType.ofWord? (String.ofList word) with
    | some t => (some (some t), [])
    | none => (none, [.invalidType (.unknown (String.ofList word))])

def conditionOperator (token : String) :
    Option Comparison × List GrammarError :=
  match Comparison.ofSymbol? token with
  | some c => (some c, [])
  | none => (none, [.invalidComparison token])

def conditionValue (token : String) : Option String × List GrammarError :=
  match Token.unquote? token.toList with
  | some value => (some (String.ofList value), [])
  | none => (none, [.unquotedValue token])

/-- The error of a value that is not of the declared type. -/
def valueErrors : Option (Option ValueType) → Option String → List GrammarError
  | some (some t), some value => if t.accepts value then [] else [.invalidType (.mismatch t value)]
  | _, _ => []

/-- The condition in three tokens, without its joiner, and its errors. -/
def conditionOf (table : Option String)
    (columnToken operatorToken valueToken : String) :
    Option Condition × List GrammarError :=
  let (columnPart, typePart) := Token.splitType columnToken.toList
  let (ref, refErrors) := conditionColumn table columnToken columnPart
  let (valueType, typeErrors) := conditionType typePart
  let (operator, operatorErrors) := conditionOperator operatorToken
  let (value, quoteErrors) := conditionValue valueToken
  let mismatches := valueErrors valueType value
  let condition : Option Condition := do
    let _ ← table
    let ref ← ref
    let valueType ← valueType
    let operator ← operator
    let value ← value
    if mismatches.isEmpty then
      some { ref, valueType, operator, value, joiner := none }
    else none
  (condition, refErrors ++ typeErrors ++ operatorErrors ++ quoteErrors ++ mismatches)

/-- The conditions after WHERE or after the connective `after`. -/
def conditions (table : Option String)
    (after : Option Connective) : Clause (List Condition)
  | [] =>
    match after with
    | none => ⟨some [], [.invalidWhere .empty], []⟩
    | some _ => ⟨none, [.unexpectedEnd .conditionAfterJoiner], []⟩
  | column :: tail =>
    if Token.startsConstraint column then
      match after with
      | none => ⟨some [], [.invalidWhere (.emptyBefore column)], column :: tail⟩
      | some joiner => ⟨some [], [.invalidWhere (.nothingAfter joiner column)], column :: tail⟩
    else match tail with
      | [] => ⟨none, [.unexpectedEnd .operator], []⟩
      | [_] => ⟨none, [.unexpectedEnd .value], []⟩
      | operator :: value :: rest =>
        let (condition, errors) := conditionOf table column operator value
        match rest with
        | [] => ⟨some condition.toList, errors, []⟩
        | token :: rest =>
          if Token.startsConstraint token then
            ⟨some condition.toList, errors, token :: rest⟩
          else match Token.connective? token with
            | none =>
              ⟨some condition.toList, errors ++ [.invalidConnective token],
                (token :: rest).dropWhile fun t => !Token.startsConstraint t⟩
            | some joiner =>
              let others := conditions table (some joiner) rest
              ⟨others.value.map
                  ((condition.map fun c => { c with joiner := some joiner }).toList ++ ·),
                errors ++ others.errors, others.rest⟩

def whereClause (table : Option String) : Clause (List Condition)
  | [] => Clause.pure [] []
  | token :: rest =>
    if Text.sameWord token "where" then conditions table none rest
    else Clause.pure [] (token :: rest)

/-! ## Limit, offset and sort order -/

/-- The number after LIMIT or OFFSET. -/
def boundValue (bound : Bound) : Clause (Option Nat) := do
  let token ← Clause.next (.number bound)
  match Integer.readCount? token with
  | some n => return some n
  | none =>
    Clause.report [.invalidBound (.notNumber bound token)]
    return none

/-- The error of giving a clause a second time. -/
def repeatError {α : Type} (earlier : Option α)
    (error : GrammarError) : List GrammarError :=
  if earlier.isSome then [error] else []

def sortKey (table : Option String) (token : String) :
    Option ColumnRef × List GrammarError :=
  match Token.columnRef token.toList with
  | .error fault => (none, [.invalidSort (.reference fault token)])
  | .ok ref =>
    match mismatch table ref with
    | [] => (some ref, [])
    | errors => (none, errors)

/-- The sort keys; the value is empty when one of them is wrong. -/
def sortKeys (table : Option String) :
    List String → Walk (Option (List ColumnRef))
  | [] => ⟨some none, [.invalidSort .noColumn], []⟩
  | token :: tail =>
    if Token.startsConstraint token then ⟨some none, [.invalidSort .noColumn], token :: tail⟩
    else
      let (key, errors) := sortKey table token
      match tail with
      | [] => ⟨some (key.map ([·])), errors, []⟩
      | comma :: rest =>
        if comma = "," then
          let others := sortKeys table rest
          ⟨others.value.map fun keys => do
              let key ← key
              let keys ← keys
              some (key :: keys),
            errors ++ others.errors, others.rest⟩
        else ⟨some (key.map ([·])), errors, comma :: rest⟩

/-- The direction of a sort, ascending if none is given. -/
def sortDirection : Clause Direction
  | [] => Clause.pure .ascending []
  | token :: rest =>
    if Text.sameWord token "desc" then Clause.pure .descending rest
    else if Text.sameWord token "asc" then Clause.pure .ascending rest
    else Clause.pure .ascending (token :: rest)

/-- The word BY.  Another token in its place is an error and starts the sort
keys. -/
def byWord : Clause Unit
  | [] => Clause.stop .byWord []
  | token :: rest =>
    if Text.sameWord token "by" then Clause.pure () rest
    else ⟨some (), [.invalidSort (.noBy token)], token :: rest⟩

def sortOrder (table : Option String) : Clause (Option SortOrder) := do
  byWord
  let keys ← sortKeys table
  let direction ← sortDirection
  return keys.map fun columns => { columns, direction }

/-- The constraint that `token` starts, added to those before it. -/
def constraint (table : Option String) (token : String) (found : Constraints) :
    Clause Constraints :=
  if Text.sameWord token "limit" then do
    let value ← boundValue .limit
    Clause.report (repeatError found.limit (.invalidBound (.repeated .limit)))
    return { found with limit := value.or found.limit }
  else if Text.sameWord token "offset" then do
    let value ← boundValue .offset
    Clause.report (repeatError found.offset (.invalidBound (.repeated .offset)))
    return { found with offset := value.or found.offset }
  else if Text.sameWord token "order" then do
    let order ← sortOrder table
    Clause.report (repeatError found.order (.invalidSort .repeated))
    return { found with order := order.or found.order }
  else do
    Clause.report [.unexpectedToken token]
    return found

/-! A constraint never gives tokens back, which is why reading them one
after the other ends. -/

theorem Clause.bind_rest_le {α β : Type} {c : Clause α} {next : α → Clause β}
    (hc : ∀ ts, (c ts).rest.length ≤ ts.length)
    (hn : ∀ a ts, (next a ts).rest.length ≤ ts.length) (ts : List String) :
    (Clause.bind c next ts).rest.length ≤ ts.length := by
  unfold Clause.bind
  cases h : (c ts).value with
  | none => simpa [h] using hc ts
  | some a => simpa [h] using Nat.le_trans (hn a _) (hc ts)

theorem boundValue_rest_le (bound : Bound) (ts : List String) :
    (boundValue bound ts).rest.length ≤ ts.length := by
  refine Clause.bind_rest_le (fun ts => ?_) (fun token ts => ?_) ts
  · cases ts <;> simp [Clause.next, Clause.stop, Clause.pure]
  · cases Integer.readCount? token <;>
      simp [Bind.bind, Pure.pure, Clause.bind, Clause.pure, Clause.report]

theorem sortKeys_rest_le (table : Option String) :
    ∀ ts, (sortKeys table ts).rest.length ≤ ts.length
  | [] => by simp [sortKeys]
  | token :: tail => by
      rw [sortKeys.eq_def]
      dsimp only
      split
      · exact Nat.le_refl _
      · cases tail with
        | nil => simp
        | cons comma rest =>
            have ih := sortKeys_rest_le table rest
            dsimp only
            split
            · simp only [List.length_cons]; omega
            · simp

theorem byWord_rest_le : ∀ ts, (byWord ts).rest.length ≤ ts.length
  | [] => by simp [byWord, Clause.stop]
  | token :: rest => by
      simp only [byWord, Clause.pure]
      split <;> simp

theorem sortDirection_rest_le : ∀ ts, (sortDirection ts).rest.length ≤ ts.length
  | [] => by simp [sortDirection, Clause.pure]
  | token :: rest => by
      simp only [sortDirection, Clause.pure]
      split
      · simp
      · split <;> simp

theorem sortOrder_rest_le (table : Option String) (ts : List String) :
    (sortOrder table ts).rest.length ≤ ts.length :=
  Clause.bind_rest_le byWord_rest_le
    (fun _ => Clause.bind_rest_le (sortKeys_rest_le table)
      (fun _ => Clause.bind_rest_le sortDirection_rest_le (fun _ _ => Nat.le_refl _))) ts

theorem constraint_rest_le (table : Option String) (token : String)
    (found : Constraints) (ts : List String) :
    (constraint table token found ts).rest.length ≤ ts.length := by
  unfold constraint
  split
  · exact Clause.bind_rest_le (boundValue_rest_le _) (fun _ _ => Nat.le_refl _) ts
  · split
    · exact Clause.bind_rest_le (boundValue_rest_le _) (fun _ _ => Nat.le_refl _) ts
    · split
      · exact Clause.bind_rest_le (sortOrder_rest_le table) (fun _ _ => Nat.le_refl _) ts
      · exact Nat.le_refl _

/-- The clauses after the conditions, in any order, added to those found so
far. -/
def constraints (table : Option String)
    (found : Constraints) : Clause Constraints
  | [] => Clause.pure found []
  | token :: tail =>
    let first := constraint table token found tail
    match first.value with
    | none => first
    | some updated =>
      let others := constraints table updated first.rest
      ⟨others.value, first.errors ++ others.errors, others.rest⟩
termination_by tokens => tokens.length
decreasing_by
  have := constraint_rest_le table token found tail
  simp only [List.length_cons]
  omega

/-! ## Whole queries -/

/-- A query, reading all tokens. -/
def queryClause (files : Files) : Clause Query := do
  Clause.keyword "SELECT" .select .invalidSelect
  let select ← selectList
  Clause.keyword "FROM" .fromWord .invalidFrom
  let path ← filePath files
  Clause.keyword "AS" .asWord .invalidAs
  let table ← tableName
  Clause.report (selectMismatches table select)
  let conditions ← whereClause table
  let constraints ← constraints table {}
  return { select, path, table := table.getD "", conditions, constraints }

/-- The query that a list of tokens spells, or every error found in it. -/
def Query.ofTokens (files : Files) (tokens : List String) :
    Except (List GrammarError) Query :=
  let walk := queryClause files tokens
  match walk.value with
  | some query => if walk.errors.isEmpty then .ok query else .error walk.errors
  | none => .error walk.errors

/-- The query that a text spells, or every error found in it. -/
def Query.parse (files : Files) (sql : String) :
    Except (List GrammarError) Query :=
  Query.ofTokens files (tokenize sql)

end CsvQuery
