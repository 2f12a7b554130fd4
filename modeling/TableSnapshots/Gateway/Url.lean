import TableSnapshots.Text.Digits
import TableSnapshots.Text.Pieces

/-!
# Addresses of servers

Where requests go: the host and the port number of a server, and the target on it. The text of an
address is read generously: blanks around it and line breaks in it do not count, backslashes count
as slashes, and characters that an address cannot hold are written by the numbers of their bytes.
Only the schemes `http` and `https` are known.
-/

namespace TableSnapshots

/-- Where a request goes. -/
structure Url where
  secure : Bool
  host : String
  portNumber : Nat
  /-- The path, and the query if there is one. -/
  target : String
  deriving DecidableEq, Repr

namespace Url

/-! ## Characters -/

/-- A letter of ASCII in lower case. -/
def lower (c : Char) : Char :=
  if 'A' ≤ c && c ≤ 'Z' then Char.ofNat (c.toNat + 32) else c

/-- Whether a character is a letter of ASCII. -/
def isLetter (c : Char) : Bool :=
  'a' ≤ lower c && lower c ≤ 'z'

/-- Whether a character separates the parts of a path. -/
def isSlash (c : Char) : Bool :=
  c = '/' || c = '\\'

/-- One byte, written by its number. -/
def percent (b : UInt8) : List Char :=
  let digit (n : Nat) : Char := if n < 10 then Char.ofNat (48 + n) else Char.ofNat (55 + n)
  ['%', digit (b.toNat / 16), digit (b.toNat % 16)]

/-- The text with the characters that are not shown as they are written by number: those that
`special` names, control characters and all beyond ASCII. -/
def encode (special : Char → Bool) (cs : List Char) : List Char :=
  cs.flatMap fun c =>
    if special c || c.toNat < 32 || 126 < c.toNat then c.toString.toUTF8.toList.flatMap percent
    else [c]

/-- The characters that a path does not hold. -/
def specialInPath (c : Char) : Bool :=
  " \"#<>?`\x7b\x7d".toList.contains c

/-- The characters that a query does not hold. -/
def specialInQuery (c : Char) : Bool :=
  " \"#<>'".toList.contains c

/-- The characters that no host holds. -/
def forbiddenInHost (c : Char) : Bool :=
  c.toNat ≤ 32 || 126 < c.toNat || "#/<>?@[\\]^|%:".toList.contains c

/-! ## Parts -/

/-- The text without control characters and spaces around it and without tabs and line breaks. -/
def clean (cs : List Char) : List Char :=
  let blank (c : Char) : Bool := c.toNat ≤ 32
  ((cs.dropWhile blank).reverse.dropWhile blank).reverse.filter fun c =>
    !(c = '\t' || c = '\n' || c = '\r')

/-- The scheme in lower case, and what follows its colon. -/
def scheme? (cs : List Char) : Option (List Char × List Char) :=
  let isSchemeChar (c : Char) : Bool :=
    isLetter c || Text.isDigit c || c = '+' || c = '-' || c = '.'
  match cs.takeWhile isSchemeChar, cs.dropWhile isSchemeChar with
  | c :: word, ':' :: rest => if isLetter c then some ((c :: word).map lower, rest) else none
  | _, _ => none

/-- What follows the last `@`, or everything. -/
def afterUser (cs : List Char) : List Char :=
  (cs.reverse.takeWhile (· ≠ '@')).reverse

/-- The host and the text of the port number, if there is a colon before it. -/
def hostAndNumber (cs : List Char) : List Char × Option (List Char) :=
  let inBrackets (c : Char) : Bool := c ≠ ']'
  match cs with
  | '[' :: _ =>
    match cs.dropWhile inBrackets with
    | ']' :: ':' :: number => (cs.takeWhile inBrackets ++ [']'], some number)
    | ']' :: rest => (cs.takeWhile inBrackets ++ ']' :: rest, none)
    | _ => (cs, none)
  | _ =>
    match cs.dropWhile (· ≠ ':') with
    | _ :: number => (cs.takeWhile (· ≠ ':'), some number)
    | [] => (cs, none)

/-- Whether a text can be a host: a name without forbidden characters, or an address in brackets. -/
def isHost (cs : List Char) : Bool :=
  match cs with
  | [] => false
  | '[' :: rest =>
    rest.getLast? = some ']' &&
      rest.dropLast.all fun c => Text.isDigit c || isLetter c || c = ':' || c = '.'
  | cs => cs.all fun c => !forbiddenInHost c

/-- The port number that a text writes; without a text, that of the scheme. -/
def portNumber? (secure : Bool) : Option (List Char) → Option Nat
  | none | some [] => some (if secure then 443 else 80)
  | some cs => Text.readDigits? 16 cs

/-- Whether a segment of a path means the directory itself. -/
def isDot (segment : List Char) : Bool :=
  [".", "%2e"].contains (String.ofList (segment.map lower))

/-- Whether a segment of a path means the directory above. -/
def isDoubleDot (segment : List Char) : Bool :=
  ["..", ".%2e", "%2e.", "%2e%2e"].contains (String.ofList (segment.map lower))

/-- The segments of a path without those that mean a directory. At the end, such a segment leaves
an empty one, so that the path still ends in a slash. -/
def settle : (sofar : List (List Char)) → List (List Char) → List (List Char)
  | sofar, [] => sofar
  | sofar, s :: rest =>
    let ending : List (List Char) := if rest.isEmpty then [[]] else []
    if isDoubleDot s then settle (sofar.dropLast ++ ending) rest
    else if isDot s then settle (sofar ++ ending) rest
    else settle (sofar ++ [s]) rest

/-- The target of a path and what follows it. -/
def targetOf (cs : List Char) : List Char :=
  let stop (c : Char) : Bool := c ≠ '?' && c ≠ '#'
  let slashes := (cs.takeWhile stop).map fun c => if isSlash c then '/' else c
  let segments := match slashes with
    | '/' :: rest => settle [] (Text.pieces '/' rest)
    | rest => settle [] (Text.pieces '/' rest)
  let path := '/' :: Text.joinPieces '/' (segments.map (encode specialInPath))
  match cs.dropWhile stop with
  | '?' :: query => path ++ '?' :: encode specialInQuery (query.takeWhile (· ≠ '#'))
  | _ => path

/-- Read the text of an address. -/
def ofText? (s : String) : Option Url := do
  let (scheme, rest) ← scheme? (clean s.toList)
  let secure := scheme = "https".toList
  if !(secure || scheme = "http".toList) then none
  let rest := rest.dropWhile isSlash
  let inAuthority (c : Char) : Bool := !(isSlash c || c = '?' || c = '#')
  let (host, number) := hostAndNumber (afterUser (rest.takeWhile inAuthority))
  if !isHost host then none
  let portNumber ← portNumber? secure number
  return {
    secure
    host := String.ofList (host.map lower)
    portNumber
    target := String.ofList (targetOf (rest.dropWhile inAuthority)) }

end Url

end TableSnapshots
