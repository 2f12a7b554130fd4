import TableSnapshots.Json.Numeral

/-!
# Drafts

A text is read as JSON in two steps. The first finds the shape of the text: a draft, which ends
where the text breaks off or breaks the grammar. The second walks over the draft from left to
right and takes the values out. So a reader that asks for a certain shape meets a value of the
wrong shape before a fault of grammar that comes after it.

A reader may pass over a value instead of taking it out. It then asks less of it: numbers may be
too large, and a text may hold half of a surrogate pair. A break therefore says how it looks to
each.
-/

namespace TableSnapshots.Json

/-- How a text goes wrong. -/
inductive Flaw where
  /-- It ends too early. -/
  | ended
  /-- It goes on in a way that the grammar does not have. -/
  | malformed
  deriving DecidableEq, Repr

/-- The place where a text goes wrong, for a reader that takes the values out and for one that
passes over them. -/
structure Break where
  read : Flaw
  skip : Flaw
  deriving DecidableEq, Repr

/-- A break that looks the same to every reader. -/
def Break.both (f : Flaw) : Break := ⟨f, f⟩

/-- The shape of a text. -/
inductive Draft where
  | null
  | bool (b : Bool)
  | number (n : Numeral)
  /-- A text, or nothing if it holds half of a surrogate pair. -/
  | text (s : Option String)
  /-- The items of a list, and the break that comes instead of its end. -/
  | list (items : List Draft) (stop : Option Break)
  /-- The fields of a record, and the break that comes instead of its end. -/
  | record (members : List (Option String × Draft)) (stop : Option Break)
  /-- The text goes wrong here. -/
  | broken (b : Break)
  deriving Inhabited

namespace Draft

/-- Where the text of a draft goes wrong, if it does. -/
def stop? : Draft → Option Break
  | broken b => some b
  | list _ stop => stop
  | record _ stop => stop
  | _ => none

/-- Whether a character may stand between any two tokens. -/
def isSpace (c : Char) : Bool :=
  c = ' ' || c = '\n' || c = '\t' || c = '\r'

/-- The text without the spaces at its start. -/
def skipSpace (cs : List Char) : List Char :=
  cs.dropWhile isSpace

/-! ## Words and numbers -/

/-- Read the rest of a word. -/
def word (result : Draft) : (rest cs : List Char) → Draft × List Char
  | [], cs => (result, cs)
  | _ :: _, [] => (.broken (.both .ended), [])
  | e :: rest, c :: cs => if e = c then word result rest cs else (.broken (.both .malformed), cs)

/-- A number that breaks off: at the end of the text it may only seem so. -/
def brokenNumber (cs : List Char) : Draft × List Char :=
  (.broken ⟨if cs.isEmpty then .ended else .malformed, .malformed⟩, cs)

/-- Read the exponent of a number, if it has one. -/
def exponent (n : Numeral) (cs : List Char) : Draft × List Char :=
  match cs with
  | c :: after =>
    if c = 'e' || c = 'E' then
      let (down, digits) := match after with
        | '+' :: r => (false, r)
        | '-' :: r => (true, r)
        | r => (false, r)
      if (digits.takeWhile Text.isDigit).isEmpty then brokenNumber digits
      else
        (.number { n with exponent := some (down, digits.takeWhile Text.isDigit) },
          digits.dropWhile Text.isDigit)
    else (.number n, cs)
  | [] => (.number n, [])

/-- Read what follows the whole part of a number. -/
def fraction (n : Numeral) (cs : List Char) : Draft × List Char :=
  match cs with
  | '.' :: after =>
    if (after.takeWhile Text.isDigit).isEmpty then brokenNumber after
    else exponent { n with fraction := some (after.takeWhile Text.isDigit) }
      (after.dropWhile Text.isDigit)
  | cs => exponent n cs

/-- Read a number after its sign. No digit may follow a zero at the start. -/
def numeral (negative : Bool) (cs : List Char) : Draft × List Char :=
  match cs with
  | [] => brokenNumber []
  | c :: after =>
    if !Text.isDigit c then brokenNumber cs
    else if c = '0' then
      if (after.takeWhile Text.isDigit).isEmpty then fraction ⟨negative, ['0'], none, none⟩ after
      else (.broken (.both .malformed), after)
    else fraction ⟨negative, cs.takeWhile Text.isDigit, none, none⟩ (cs.dropWhile Text.isDigit)

/-! ## Texts -/

/-- The value of a hexadecimal digit. -/
def hexValue? (c : Char) : Option Nat :=
  if Text.isDigit c then some (Text.digitValue c)
  else if 'a' ≤ c && c ≤ 'f' then some (c.toNat - 'a'.toNat + 10)
  else if 'A' ≤ c && c ≤ 'F' then some (c.toNat - 'A'.toNat + 10)
  else none

/-- Read four hexadecimal digits. The text has ended if fewer than four bytes are left. -/
def hex4 (cs : List Char) : Except Flaw Nat :=
  if (String.ofList (cs.take 4)).utf8ByteSize < 4 then .error .ended
  else match cs.take 4 |>.mapM hexValue? with
    | some [a, b, c, d] => .ok (((a * 16 + b) * 16 + c) * 16 + d)
    | _ => .error .malformed

/-- Whether a code unit is the first half of a pair. -/
def isLeading (n : Nat) : Bool :=
  0xd800 ≤ n && n ≤ 0xdbff

/-- Whether a code unit is the second half of a pair. -/
def isTrailing (n : Nat) : Bool :=
  0xdc00 ≤ n && n ≤ 0xdfff

/-- The second half of a pair, as it should follow the first half. -/
def trailing (cs : List Char) : Except Flaw Nat :=
  match cs with
  | [] => .error .ended
  | c :: rest =>
    if c ≠ '\\' then .error .malformed
    else match rest with
      | [] => .error .ended
      | d :: digits =>
        if d ≠ 'u' then .error .malformed
        else do
          let n ← hex4 digits
          if isTrailing n then .ok n else .error .malformed

/-- The code point of a pair. -/
def pair (first second : Nat) : Char :=
  Char.ofNat ((first - 0xd800) * 0x400 + (second - 0xdc00) + 0x10000)

/-- The character of a short escape. -/
def shortEscape? (c : Char) : Option Char :=
  match c with
  | '"' | '\\' | '/' => some c
  | 'b' => some '\x08'
  | 'f' => some '\x0c'
  | 'n' => some '\n'
  | 'r' => some '\r'
  | 't' => some '\t'
  | _ => none

/-- What is known of a text while it is read: its characters in reverse order, or how it goes wrong
for a reader that takes it out. -/
abbrev Partial := Except Flaw (List Char)

/-- One more character. -/
def push (c : Char) (sofar : Partial) : Partial :=
  sofar.map (c :: ·)

/-- A break in a text of which so much is known. -/
def breakOf (sofar : Partial) (f : Flaw) : Break :=
  match sofar with
  | .ok _ => ⟨f, f⟩
  | .error g => ⟨g, f⟩

/-- Read a text after its first quote, `fuel` characters at most. -/
def textBody : (fuel : Nat) → Partial → List Char → Except Break (Option String) × List Char
  | 0, sofar, cs => (.error (breakOf sofar .ended), cs)
  | _ + 1, sofar, [] => (.error (breakOf sofar .ended), [])
  | fuel + 1, sofar, c :: cs =>
    if c = '"' then (.ok (sofar.toOption.map fun cs => String.ofList cs.reverse), cs)
    else if c = '\\' then
      match cs with
      | [] => (.error (breakOf sofar .ended), [])
      | e :: rest =>
        if e = 'u' then
          match hex4 rest with
          | .error f => (.error (breakOf sofar f), rest)
          | .ok n =>
            let after := rest.drop 4
            if isLeading n then
              match trailing after with
              | .ok m => textBody fuel (push (pair n m) sofar) (after.drop 6)
              | .error f => textBody fuel (sofar.bind fun _ => .error f) after
            else if isTrailing n then textBody fuel (sofar.bind fun _ => .error .malformed) after
            else textBody fuel (push (Char.ofNat n) sofar) after
        else match shortEscape? e with
          | some d => textBody fuel (push d sofar) rest
          | none => (.error (breakOf sofar .malformed), rest)
    else if c.toNat < 32 then (.error (breakOf sofar .malformed), cs)
    else textBody fuel (push c sofar) cs

/-- Read a text after its first quote. -/
def quotedText (cs : List Char) : Except Break (Option String) × List Char :=
  textBody (cs.length + 1) (.ok []) cs

/-! ## Lists and records -/

mutual

/-- Read a value. -/
def value : (fuel : Nat) → List Char → Draft × List Char
  | 0, cs => (.broken (.both .ended), cs)
  | fuel + 1, cs =>
    match skipSpace cs with
    | [] => (.broken (.both .ended), [])
    | 'n' :: rest => word .null ['u', 'l', 'l'] rest
    | 't' :: rest => word (.bool true) ['r', 'u', 'e'] rest
    | 'f' :: rest => word (.bool false) ['a', 'l', 's', 'e'] rest
    | '"' :: rest =>
      match quotedText rest with
      | (.ok s, after) => (.text s, after)
      | (.error b, after) => (.broken b, after)
    | '[' :: rest =>
      match skipSpace rest with
      | [] => (.list [] (some (.both .ended)), [])
      | ']' :: after => (.list [] none, after)
      | after =>
        let (items, stop, after) := items fuel after
        (.list items stop, after)
    | '\x7b' :: rest =>
      match skipSpace rest with
      | [] => (.record [] (some (.both .ended)), [])
      | '\x7d' :: after => (.record [] none, after)
      | after =>
        let (members, stop, after) := members fuel after
        (.record members stop, after)
    | '-' :: rest => numeral true rest
    | c :: rest =>
      if Text.isDigit c then numeral false (c :: rest) else (.broken (.both .malformed), rest)

/-- Read the items of a list from the next item on. -/
def items : (fuel : Nat) → List Char → List Draft × Option Break × List Char
  | 0, cs => ([], some (.both .ended), cs)
  | fuel + 1, cs =>
    let (v, after) := value fuel cs
    if v.stop?.isSome then ([v], v.stop?, after)
    else match skipSpace after with
      | [] => ([v], some (.both .ended), [])
      | ']' :: rest => ([v], none, rest)
      | ',' :: rest =>
        let (vs, stop, rest) := items fuel rest
        (v :: vs, stop, rest)
      | _ :: rest => ([v], some (.both .malformed), rest)

/-- Read the fields of a record from the next field on. -/
def members : (fuel : Nat) → List Char → List (Option String × Draft) × Option Break × List Char
  | 0, cs => ([], some (.both .ended), cs)
  | fuel + 1, cs =>
    match skipSpace cs with
    | [] => ([], some (.both .ended), [])
    | '"' :: rest =>
      match quotedText rest with
      | (.error b, after) => ([], some b, after)
      | (.ok k, after) =>
        match skipSpace after with
        | [] => ([(k, .broken (.both .ended))], some (.both .ended), [])
        | ':' :: rest =>
          let (v, after) := value fuel rest
          if v.stop?.isSome then ([(k, v)], v.stop?, after)
          else match skipSpace after with
            | [] => ([(k, v)], some (.both .ended), [])
            | '\x7d' :: rest => ([(k, v)], none, rest)
            | ',' :: rest =>
              let (ms, stop, rest) := members fuel rest
              ((k, v) :: ms, stop, rest)
            | _ :: rest => ([(k, v)], some (.both .malformed), rest)
        | _ :: rest => ([(k, .broken (.both .malformed))], some (.both .malformed), rest)
    | _ :: rest => ([], some (.both .malformed), rest)

end

end Draft

/-- The draft of a whole text, and whether anything but spaces follows it. -/
structure Document where
  body : Draft
  more : Bool

/-- The draft of a text. -/
def Document.ofText (s : String) : Document :=
  let cs := s.toList
  let (body, rest) := Draft.value (2 * cs.length + 1) cs
  { body, more := !(Draft.skipSpace rest).isEmpty }

end TableSnapshots.Json
