import TableSnapshots.Gateway.Error
import TableSnapshots.Json.Read
import TableSnapshots.Text.Blank

/-!
# Replies

What the engine answers to a query. The query itself says in which format: a query that ends in
`FORMAT JSON` has a JSON answer, whose rows are looked at one by one; the answer to any other
query is text.
-/

namespace TableSnapshots

/-- An answer to a query. -/
inductive Reply where
  | json (v : Json)
  | text (s : String)

namespace Reply

/-- A letter of ASCII in upper case. -/
def upper (c : Char) : Char :=
  if 'a' ≤ c && c ≤ 'z' then Char.ofNat (c.toNat - 32) else c

/-- The end of a query that asks for JSON. -/
def jsonFormat : List Char :=
  "FORMAT JSON".toList

/-- Whether a query asks for JSON: it ends so, blanks and the case of letters aside. -/
def expectsJson (query : String) : Bool :=
  jsonFormat.isSuffixOf ((Text.trimRight query.toList).map upper)

/-- The answer that a response body is, in the format that the query asked for. -/
def ofBody (query body : String) : Except GatewayError Reply :=
  if expectsJson query then
    match Json.parse body with
    | .ok v => .ok (.json v)
    | .error e => .error (.decode e)
  else .ok (.text (Text.trim body))

/-- The fields of a value that has to be a row. -/
def row : Json → Except GatewayError Json
  | .record members => .ok (.record members)
  | v => .error (.unexpected ("row is not an object: " ++ v.compact))

/-- The rows of a JSON answer. There are none if it has no `data`. -/
def rows : Reply → Except GatewayError (List Json)
  | .text _ => .error (.unexpected "expected a JSON response")
  | .json v =>
    match v.field? "data" with
    | none => .ok []
    | some (.list items) => items.mapM row
    | some other => .error (.unexpected ("data is not an array: " ++ other.compact))

/-- The value of a row in a column: a text as it is, any other value as JSON. -/
def cell (column : String) (row : Json) : Except GatewayError String :=
  match row.field? column with
  | some (.text s) => .ok s
  | some v => .ok v.compact
  | none => .error (.unexpected ("missing column " ++ Text.quoted column))

/-- The values of a column, one for each row. -/
def column (column : String) (reply : Reply) : Except GatewayError (List String) := do
  let rows ← reply.rows
  rows.mapM (cell column)

/-- The text of an answer. -/
def toText : Reply → Except GatewayError String
  | .text s => .ok s
  | .json _ => .error (.unexpected "expected a text response")

end Reply

end TableSnapshots
