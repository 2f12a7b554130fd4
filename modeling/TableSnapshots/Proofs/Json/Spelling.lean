import TableSnapshots.Digest.Hex
import TableSnapshots.Json.Draft

/-!
# The grammar of JSON

Which texts spell which drafts, as the standard of JSON has it and without a word of how a text is
read: a value has many spellings, since spaces may stand between its tokens, the characters of a
text may be escaped or not, and a number may say its exponent in more than one way (`Spells`). Only
whole values are spelled, so a draft with a break in it has no spelling.
-/

namespace TableSnapshots.Json

/-- Spaces between two tokens. -/
def Gap (cs : List Char) : Prop :=
  ∀ c ∈ cs, Draft.isSpace c = true

/-- There need not be any. -/
theorem gap_nil : Gap [] := nofun

instance : DecidablePred Gap :=
  fun cs => decidable_of_iff (cs.all Draft.isSpace = true) List.all_eq_true

/-! ## Numbers -/

/-- One digit or more. -/
structure Digits (cs : List Char) : Prop where
  ne_nil : cs ≠ []
  isDigit : ∀ c ∈ cs, Text.isDigit c = true

/-- The digits before a point. More than one do not begin with a zero. -/
structure WholeDigits (cs : List Char) : Prop extends Digits cs where
  lead : ∀ rest, cs = '0' :: rest → rest = []

/-- The spellings of what comes after the whole part of a number: nothing, or a point and digits. -/
inductive SpellsFraction : Option (List Char) → List Char → Prop
  | none : SpellsFraction .none []
  | some {ds : List Char} (digits : Digits ds) : SpellsFraction (.some ds) ('.' :: ds)

/-- The spellings of an exponent. One that is not negative may have a plus. -/
inductive SpellsExponent : Option (Bool × List Char) → List Char → Prop
  | none : SpellsExponent .none []
  | down {e : Char} {ds : List Char} (letter : e = 'e' ∨ e = 'E') (digits : Digits ds) :
    SpellsExponent (.some (true, ds)) (e :: '-' :: ds)
  | plus {e : Char} {ds : List Char} (letter : e = 'e' ∨ e = 'E') (digits : Digits ds) :
    SpellsExponent (.some (false, ds)) (e :: '+' :: ds)
  | bare {e : Char} {ds : List Char} (letter : e = 'e' ∨ e = 'E') (digits : Digits ds) :
    SpellsExponent (.some (false, ds)) (e :: ds)

/-- The spellings of a number without its sign. -/
structure SpellsSize (n : Numeral) (cs : List Char) : Prop where
  whole : WholeDigits n.whole
  parts : ∃ fraction exponent, SpellsFraction n.fraction fraction ∧
    SpellsExponent n.exponent exponent ∧ cs = n.whole ++ (fraction ++ exponent)

/-! ## Texts -/

/-- A hexadecimal digit, in lower or upper case. -/
def SpellsDigit (k : Nat) (c : Char) : Prop :=
  c = Digest.hexDigit k ∨ c = (Digest.hexDigit k).toUpper

/-- Four hexadecimal digits for a number below `2 ^ 16`, the most significant one first. -/
def SpellsUnit (n : Nat) (ds : List Char) : Prop :=
  ∃ w x y z, SpellsDigit (n / 16 / 16 / 16 % 16) w ∧ SpellsDigit (n / 16 / 16 % 16) x ∧
    SpellsDigit (n / 16 % 16) y ∧ SpellsDigit (n % 16) z ∧ ds = [w, x, y, z]

/-- The letters that stand for characters after a backslash. -/
def shortEscapes : List (Char × Char) :=
  [('"', '"'), ('\\', '\\'), ('/', '/'), ('b', '\x08'), ('f', '\x0c'), ('n', '\n'), ('r', '\r'),
    ('t', '\t')]

/-- The spellings of a character in a text. -/
inductive SpellsChar : Char → List Char → Prop
  /-- It stands for itself, unless it ends a text, begins an escape, or is a control character. -/
  | plain {c : Char} (quote : c ≠ '"') (backslash : c ≠ '\\') (low : 32 ≤ c.toNat) :
    SpellsChar c [c]
  /-- A letter stands for it. -/
  | short {c e : Char} (letter : (e, c) ∈ shortEscapes) : SpellsChar c ['\\', e]
  /-- Its number stands for it. -/
  | unit {c : Char} {ds : List Char} (low : c.toNat < 0x10000) (digits : SpellsUnit c.toNat ds) :
    SpellsChar c ('\\' :: 'u' :: ds)
  /-- The two halves of its number stand for it, if that has more than 16 bits. -/
  | pair {c : Char} {ds es : List Char} (high : 0x10000 ≤ c.toNat)
    (first : SpellsUnit (0xd800 + (c.toNat - 0x10000) / 0x400) ds)
    (second : SpellsUnit (0xdc00 + (c.toNat - 0x10000) % 0x400) es) :
    SpellsChar c ('\\' :: 'u' :: (ds ++ '\\' :: 'u' :: es))

/-- The spellings of the characters of a text, one after the other. -/
inductive SpellsChars : List Char → List Char → Prop
  | nil : SpellsChars [] []
  | cons {c : Char} {s xs cs : List Char} (first : SpellsChar c xs) (rest : SpellsChars s cs) :
    SpellsChars (c :: s) (xs ++ cs)

/-! ## Values -/

mutual

/-- The spellings of a value. -/
inductive Spells : Draft → List Char → Prop
  | null : Spells .null ['n', 'u', 'l', 'l']
  | true : Spells (.bool .true) ['t', 'r', 'u', 'e']
  | false : Spells (.bool .false) ['f', 'a', 'l', 's', 'e']
  | number {n : Numeral} {cs : List Char} (sign : n.negative = .false) (size : SpellsSize n cs) :
    Spells (.number n) cs
  | negative {n : Numeral} {cs : List Char} (sign : n.negative = .true) (size : SpellsSize n cs) :
    Spells (.number n) ('-' :: cs)
  | text {s : String} {cs : List Char} (chars : SpellsChars s.toList cs) :
    Spells (.text (some s)) ('"' :: (cs ++ ['"']))
  | emptyList {gap : List Char} (hgap : Gap gap) : Spells (.list [] none) ('[' :: (gap ++ [']']))
  | list {ds : List Draft} {cs : List Char} (items : SpellsItems ds cs) :
    Spells (.list ds none) ('[' :: (cs ++ [']']))
  | emptyRecord {gap : List Char} (hgap : Gap gap) :
    Spells (.record [] none) ('\x7b' :: (gap ++ ['\x7d']))
  | record {ms : List (Option String × Draft)} {cs : List Char} (members : SpellsMembers ms cs) :
    Spells (.record ms none) ('\x7b' :: (cs ++ ['\x7d']))

/-- The spellings of a value with spaces around it. -/
inductive SpellsPadded : Draft → List Char → Prop
  | intro {d : Draft} {before cs after : List Char} (hbefore : Gap before) (value : Spells d cs)
    (hafter : Gap after) : SpellsPadded d (before ++ (cs ++ after))

/-- The spellings of the items of a list, of which there is at least one. -/
inductive SpellsItems : List Draft → List Char → Prop
  | last {d : Draft} {cs : List Char} (item : SpellsPadded d cs) : SpellsItems [d] cs
  | cons {d : Draft} {ds : List Draft} {cs rest : List Char} (item : SpellsPadded d cs)
    (items : SpellsItems ds rest) : SpellsItems (d :: ds) (cs ++ ',' :: rest)

/-- The spellings of a field of a record. -/
inductive SpellsMember : Option String × Draft → List Char → Prop
  | intro {k : String} {d : Draft} {before key after cs : List Char} (hbefore : Gap before)
    (name : SpellsChars k.toList key) (hafter : Gap after) (value : SpellsPadded d cs) :
    SpellsMember (some k, d) (before ++ '"' :: (key ++ '"' :: (after ++ ':' :: cs)))

/-- The spellings of the fields of a record, of which there is at least one. -/
inductive SpellsMembers : List (Option String × Draft) → List Char → Prop
  | last {m : Option String × Draft} {cs : List Char} (member : SpellsMember m cs) :
    SpellsMembers [m] cs
  | cons {m : Option String × Draft} {ms : List (Option String × Draft)} {cs rest : List Char}
    (member : SpellsMember m cs) (members : SpellsMembers ms rest) :
    SpellsMembers (m :: ms) (cs ++ ',' :: rest)

end

/-- A text in which no character has to be escaped spells itself. -/
theorem spellsChars_self {cs : List Char} (h : ∀ c ∈ cs, c ≠ '"' ∧ c ≠ '\\' ∧ 32 ≤ c.toNat) :
    SpellsChars cs cs := by
  induction cs with
  | nil => exact .nil
  | cons c cs ih =>
    obtain ⟨hquote, hbackslash, hlow⟩ := h c List.mem_cons_self
    exact .cons (.plain hquote hbackslash hlow) (ih fun d hd => h d (List.mem_cons_of_mem c hd))

/-- Digits spell a number without a sign. -/
theorem spells_digits {ds : List Char} (h : WholeDigits ds) :
    Spells (.number ⟨.false, ds, none, none⟩) ds :=
  .number rfl ⟨h, [], [], .none, .none, (List.append_nil ds).symm⟩

/-- A value needs no spaces around it. -/
theorem Spells.padded {d : Draft} {cs : List Char} (h : Spells d cs) : SpellsPadded d cs := by
  have hpadded := SpellsPadded.intro gap_nil h gap_nil
  rwa [List.nil_append, List.append_nil] at hpadded

end TableSnapshots.Json
