import TableSnapshots.Decimal.Shortest
import TableSnapshots.Digest.Hex
import TableSnapshots.Text.Digits

/-!
# JSON values

A JSON value and its compact text. The fields of a record are kept in the order of their names, each
name once. In a quoted text a backslash stands before a quote and a backslash, the usual control
characters have short forms, and the others are written by number, so no text contains a line break.
-/

namespace TableSnapshots

/-- A JSON value. -/
inductive Json where
  | null
  | bool (b : Bool)
  | integer (n : Int)
  | decimal (x : Float)
  | text (s : String)
  | list (items : List Json)
  | record (members : List (String × Json))
  deriving Inhabited

namespace Json

/-- The escaped form of one character of a text. -/
def escapeChar (c : Char) : List Char :=
  if c = '"' then ['\\', '"']
  else if c = '\\' then ['\\', '\\']
  else if c = '\n' then ['\\', 'n']
  else if c = '\r' then ['\\', 'r']
  else if c = '\t' then ['\\', 't']
  else if c = '\x08' then ['\\', 'b']
  else if c = '\x0c' then ['\\', 'f']
  else if c.toNat < 32 then ['\\', 'u'] ++ Digest.hexDigits 4 c.toNat
  else [c]

/-- A text in quotes. -/
def quote (s : String) : String :=
  String.ofList ('"' :: s.toList.flatMap escapeChar ++ ['"'])

mutual

/-- The text of a value, without blanks. -/
def compact : Json → String
  | null => "null"
  | bool b => if b then "true" else "false"
  | integer n => Text.signedDecimal n
  | decimal x => Decimal.floatText x
  | text s => quote s
  | list items => "[" ++ compactItems items ++ "]"
  | record members => "\x7b" ++ compactMembers members ++ "\x7d"

/-- The texts of the items of a list, with commas between them. -/
def compactItems : List Json → String
  | [] => ""
  | [v] => compact v
  | v :: w :: vs => compact v ++ "," ++ compactItems (w :: vs)

/-- The texts of the fields of a record, with commas between them. -/
def compactMembers : List (String × Json) → String
  | [] => ""
  | [(k, v)] => quote k ++ ":" ++ compact v
  | (k, v) :: m :: ms => quote k ++ ":" ++ compact v ++ "," ++ compactMembers (m :: ms)

end

/-- Put a field into fields that are in the order of their names. A field of that name gives way. -/
def insertMember (name : String) (v : Json) : List (String × Json) → List (String × Json)
  | [] => [(name, v)]
  | (k, w) :: rest =>
    if name < k then (name, v) :: (k, w) :: rest
    else if name = k then (name, v) :: rest
    else (k, w) :: insertMember name v rest

/-- The record of some fields. Of two fields of one name the last one counts. -/
def ofMembers (members : List (String × Json)) : Json :=
  record (members.foldl (fun sorted (k, v) => insertMember k v sorted) [])

/-- The field `name` of a record. -/
def field? (name : String) : Json → Option Json
  | record members => (members.find? (·.1 = name)).map (·.2)
  | _ => none

end Json

end TableSnapshots
