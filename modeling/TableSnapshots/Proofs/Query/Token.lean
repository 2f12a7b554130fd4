import TableSnapshots.Query
import TableSnapshots.Text.Blank

/-!
# The tokens of a statement

How an engine takes a statement apart. A quoted text goes on to the first closing quote that no
backslash stands before, and a backslash in it stands for the character after it. `Mode.read` goes
over the characters one by one, so what it reads in two texts put together is what it reads in the
first one and then, from where that ended, in the second one (`read_append`). The facts that the
templates need are that a quoted name is one token which holds the name (`read_enclose`), and that
the names of a list are tokens with commas between them (`read_values`).
-/

namespace TableSnapshots.Query

/-- A token. -/
inductive Token where
  /-- Letters, digits and underscores. -/
  | word (s : String)
  /-- Any other character that is not a blank. -/
  | symbol (c : Char)
  /-- A text between backticks. -/
  | ident (s : String)
  /-- A text between single quotes. -/
  | value (s : String)
  deriving DecidableEq, Repr

namespace Token

/-- Whether a character is part of a word. -/
def isWordChar (c : Char) : Bool :=
  c.isAlphanum || c = '_'

/-- Whether a character opens a quoted text. -/
def isQuote (c : Char) : Bool :=
  c = '\x60' || c = '\''

/-- The token of a text between two quotes. -/
def ofQuoted (quote : Char) (cs : List Char) : Token :=
  if quote = '\x60' then .ident (String.ofList cs) else .value (String.ofList cs)

end Token

/-- Where reading stands between two characters. -/
inductive Mode where
  /-- Between two tokens. -/
  | between
  /-- In a word that has these characters so far. -/
  | inWord (cs : List Char)
  /-- In a quoted text that holds these characters so far. -/
  | inQuotes (quote : Char) (cs : List Char)
  /-- Right after a backslash in a quoted text. -/
  | afterBackslash (quote : Char) (cs : List Char)
  deriving DecidableEq, Repr

namespace Mode

/-- What a character does that stands between two tokens: the token that it is, if it is one, and
where reading stands after it. -/
def start (c : Char) : List Token × Mode :=
  if Token.isQuote c then ([], .inQuotes c [])
  else if Token.isWordChar c then ([], .inWord [c])
  else if Text.isBlank c then ([], .between)
  else ([.symbol c], .between)

/-- The tokens that end with a character, and where reading stands after it. -/
def step : Mode → Char → List Token × Mode
  | .between, c => start c
  | .inWord cs, c =>
    if Token.isWordChar c then ([], .inWord (cs ++ [c]))
    else (.word (String.ofList cs) :: (start c).1, (start c).2)
  | .inQuotes quote cs, c =>
    if c = '\\' then ([], .afterBackslash quote cs)
    else if c = quote then ([.ofQuoted quote cs], .between)
    else ([], .inQuotes quote (cs ++ [c]))
  | .afterBackslash quote cs, c => ([], .inQuotes quote (cs ++ [c]))

/-- The tokens that end in a text, and where reading stands after it. -/
def read : Mode → List Char → List Token × Mode
  | m, [] => ([], m)
  | m, c :: cs => ((m.step c).1 ++ (read (m.step c).2 cs).1, (read (m.step c).2 cs).2)

/-- The token that ends where the text ends, if there is one. A quoted text must not be open. -/
def finish : Mode → Option (List Token)
  | .between => some []
  | .inWord cs => some [.word (String.ofList cs)]
  | .inQuotes .. | .afterBackslash .. => none

end Mode

/-- The tokens of a statement, unless a quoted text in it is not closed. -/
def lex (statement : String) : Option (List Token) :=
  (Mode.read .between statement.toList).2.finish.map
    ((Mode.read .between statement.toList).1 ++ ·)

/-! ## Texts put together -/

/-- Reading goes on in the second text from where it stands after the first one. -/
theorem read_append (m : Mode) (cs ds : List Char) :
    m.read (cs ++ ds) =
      ((m.read cs).1 ++ ((m.read cs).2.read ds).1, ((m.read cs).2.read ds).2) := by
  induction cs generalizing m with
  | nil => simp [Mode.read]
  | cons c cs ih => simp [Mode.read, ih, List.append_assoc]

/-- Reading two texts put together, when what is read in each is known. -/
theorem read_append_of_eq {m n k : Mode} {cs ds : List Char} {ts us : List Token}
    (hcs : m.read cs = (ts, n)) (hds : n.read ds = (us, k)) :
    m.read (cs ++ ds) = (ts ++ us, k) := by
  rw [read_append, hcs, hds]

/-- After a text that ends between two tokens, the rest is read as if it stood alone. -/
theorem lex_append_of_between {front tail : String} {ts : List Token}
    (h : Mode.read .between front.toList = (ts, .between)) :
    lex (front ++ tail) = (lex tail).map (ts ++ ·) := by
  unfold lex
  rw [String.toList_append, read_append, h, Option.map_map]
  congr 1
  funext us
  simp [List.append_assoc]

/-- The tokens of a text, when what is read in it and how it ends is known. -/
theorem lex_of_read {s : String} {ts : List Token} {m : Mode} (us : List Token)
    (h : Mode.read .between s.toList = (ts, m)) (hm : m.finish = some us) :
    lex s = some (ts ++ us) := by
  unfold lex
  rw [h, hm]
  rfl

/-! ## Quoted names -/

/-- The escaped form of a text is read as the text, and the quoted text stays open. -/
theorem read_escape (quote : Char) (sofar cs : List Char) :
    (Mode.inQuotes quote sofar).read (escape quote cs) = ([], .inQuotes quote (sofar ++ cs)) := by
  induction cs generalizing sofar with
  | nil => simp [escape, Mode.read]
  | cons c cs ih =>
    have hcons : escape quote (c :: cs)
        = (if c = '\\' || c = quote then ['\\', c] else [c]) ++ escape quote cs := by
      simp [escape]
    have hc : (Mode.inQuotes quote sofar).read
        (if c = '\\' || c = quote then ['\\', c] else [c])
          = ([], .inQuotes quote (sofar ++ [c])) := by
      split
      · simp [Mode.read, Mode.step]
      · next h =>
        simp only [Bool.or_eq_true, decide_eq_true_eq, not_or] at h
        simp [Mode.read, Mode.step, h.1, h.2]
    rw [hcons, read_append_of_eq hc (ih _)]
    simp

/-- A name between quotes is one token, which holds the name. -/
theorem read_enclose (quote : Char) (hq : Token.isQuote quote = true) (s : String) :
    Mode.read .between (enclose quote s).toList = ([.ofQuoted quote s.toList], .between) := by
  have hne : quote ≠ '\\' := by
    rintro rfl
    exact absurd hq (by decide)
  have hopen : Mode.read .between [quote] = ([], .inQuotes quote []) := by
    simp [Mode.read, Mode.step, Mode.start, hq]
  have hclose : (Mode.inQuotes quote s.toList).read [quote]
      = ([.ofQuoted quote s.toList], .between) := by
    simp [Mode.read, Mode.step, hne]
  have hbody := read_append_of_eq (read_escape quote [] s.toList) hclose
  have hall := read_append_of_eq hopen hbody
  unfold enclose
  rw [String.toList_ofList]
  simpa using hall

/-- An identifier is read as its name. -/
theorem read_ident (s : String) :
    Mode.read .between (ident s).toList = ([.ident s], .between) := by
  have h := read_enclose '\x60' (by decide) s
  rw [Token.ofQuoted, if_pos rfl, String.ofList_toList] at h
  exact h

/-- A text value is read as the text. -/
theorem read_literal (s : String) :
    Mode.read .between (literal s).toList = ([.value s], .between) := by
  have h := read_enclose '\'' (by decide) s
  rw [Token.ofQuoted, if_neg (by decide), String.ofList_toList] at h
  exact h

/-- The tokens of a list of text values. -/
def Token.values (names : List String) : List Token :=
  (names.map Token.value).intersperse (.symbol ',')

/-- A list of text values is read as the texts, with commas between them. -/
theorem read_values (names : List String) :
    Mode.read .between (",".intercalate (names.map literal)).toList
      = (Token.values names, .between) := by
  rw [String.toList_intercalate, List.map_map]
  unfold Token.values
  -- The induction is on the names after the first one, which each come with a comma.
  cases names with
  | nil => rfl
  | cons name names =>
    induction names generalizing name with
    | nil => simpa using read_literal name
    | cons next names ih =>
      have hcomma : Mode.read .between ",".toList = ([.symbol ','], .between) := by rfl
      have hrest := read_append_of_eq hcomma (ih next)
      have hall := read_append_of_eq (read_literal name) hrest
      simpa [List.intercalate_cons_cons, List.intersperse] using hall

/-! ## Two replacements -/

/-- The text with `new` for every `c`. -/
def replaceChar (c : Char) (new cs : List Char) : List Char :=
  cs.flatMap fun d => if d = c then new else [d]

/-- Escaping is two replacements one after the other, that of the backslash first: the backslashes
which the second one writes stay as they are. -/
theorem escape_eq_replaceChar {quote : Char} (hq : quote ≠ '\\') (cs : List Char) :
    escape quote cs = replaceChar quote ['\\', quote] (replaceChar '\\' ['\\', '\\'] cs) := by
  induction cs with
  | nil => rfl
  | cons c cs ih =>
    simp only [escape, replaceChar, List.flatMap_cons, List.flatMap_append] at ih ⊢
    rw [ih]
    congr 1
    by_cases hb : c = '\\'
    · simp [hb, hq.symm]
    · by_cases hc : c = quote
      · simp [hc, hq]
      · simp [hb, hc]

end TableSnapshots.Query
