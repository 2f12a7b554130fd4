import Mathlib.Data.Bool.AllAny
import Mathlib.Data.List.DropRight
import TableSnapshots.Proofs.Json.Spelling

/-!
# Every spelling is read

Whatever spelling of a value a text has, it is read as the draft that it spells
(`Document.ofText_of_spells`). The reader goes from left to right and leaves what comes after a
value, and what can come after one in a list or a record neither goes on with a number nor begins a
value (`Ends`). The induction is on the spelling: each rule of the grammar is one case of the
reader, and the text of a part is shorter than that of the whole, so the fuel suffices.
-/

namespace TableSnapshots.Json

open Draft (exponent fraction items members numeral quotedText skipSpace textBody
  value)

/-! ## Texts -/

/-- A hexadecimal digit of either case is read as its value. -/
theorem SpellsDigit.hexValue? {k : Nat} (hk : k < 16) {c : Char} (h : SpellsDigit k c) :
    Draft.hexValue? c = some k := by
  have hall : ∀ k < 16, Draft.hexValue? (Digest.hexDigit k) = some k ∧
      Draft.hexValue? (Digest.hexDigit k).toUpper = some k := by decide
  rcases h with rfl | rfl
  · exact (hall k hk).1
  · exact (hall k hk).2

/-- A unit has four digits. -/
theorem SpellsUnit.length {n : Nat} {ds : List Char} (h : SpellsUnit n ds) : ds.length = 4 := by
  obtain ⟨w, x, y, z, -, -, -, -, rfl⟩ := h
  rfl

/-- Every character takes a byte or more. -/
theorem length_le_utf8ByteSize (cs : List Char) : cs.length ≤ (String.ofList cs).utf8ByteSize := by
  induction cs with
  | nil => exact Nat.zero_le _
  | cons c cs ih =>
    have hone : (String.ofList [c]).utf8ByteSize = c.utf8Size := by
      rw [← String.singleton_eq_ofList, String.utf8ByteSize_singleton]
    have hpos := c.utf8Size_pos
    rw [← List.singleton_append, String.ofList_append, String.utf8ByteSize_append, hone,
      List.singleton_append, List.length_cons]
    omega

/-- The digits of a unit are read as its number. -/
theorem SpellsUnit.hex4 {n : Nat} {ds : List Char} (h : SpellsUnit n ds) (hn : n < 0x10000)
    (rest : List Char) : Draft.hex4 (ds ++ rest) = .ok n := by
  have htake : (ds ++ rest).take 4 = ds := List.take_left' h.length
  have hsize : ¬ (String.ofList ds).utf8ByteSize < 4 :=
    Nat.not_lt.mpr (h.length ▸ length_le_utf8ByteSize ds)
  have hvalue : ∀ {k c}, SpellsDigit (k % 16) c → Draft.hexValue? c = some (k % 16) :=
    fun hc => hc.hexValue? (Nat.mod_lt _ (by decide))
  have hdigits : ds.mapM Draft.hexValue?
      = some [n / 16 / 16 / 16 % 16, n / 16 / 16 % 16, n / 16 % 16, n % 16] := by
    obtain ⟨w, x, y, z, hw, hx, hy, hz, rfl⟩ := h
    simp only [List.mapM_cons, List.mapM_nil, hvalue hw, hvalue hx, hvalue hy, hvalue hz]
    rfl
  have hsum : ((n / 16 / 16 / 16 % 16 * 16 + n / 16 / 16 % 16) * 16 + n / 16 % 16) * 16 + n % 16
      = n := by
    omega
  unfold Draft.hex4
  rw [htake, if_neg hsize, hdigits]
  exact congrArg Except.ok hsum

/-- The second half of a pair is read after the first one. -/
theorem trailing_of_spells {m : Nat} {es : List Char} (h : SpellsUnit m es)
    (hm : Draft.isTrailing m = true) (hlow : m < 0x10000) (rest : List Char) :
    Draft.trailing ('\\' :: 'u' :: (es ++ rest)) = .ok m := by
  unfold Draft.trailing
  dsimp only
  rw [if_neg (not_not.mpr rfl), if_neg (not_not.mpr rfl), h.hex4 hlow]
  change (if Draft.isTrailing m then Except.ok m else .error Flaw.malformed) = _
  rw [if_pos hm]

/-- One step reads a character, whatever its spelling. -/
theorem textBody_of_spells {c : Char} {xs : List Char} (h : SpellsChar c xs) (fuel : Nat)
    (sofar rest : List Char) :
    textBody (fuel + 1) (.ok sofar) (xs ++ rest) = textBody fuel (.ok (c :: sofar)) rest := by
  have hvalid : c.toNat < 0xd800 ∨ 0xdfff < c.toNat ∧ c.toNat < 0x110000 := c.valid
  cases h with
  | plain quote backslash low =>
    rw [List.cons_append, List.nil_append, Draft.textBody.eq_def]
    dsimp only
    rw [if_neg quote, if_neg backslash, if_neg (Nat.not_lt.mpr low)]
    rfl
  | @short e letter =>
    have hall : ∀ p ∈ shortEscapes, p.1 ≠ 'u' ∧ Draft.shortEscape? p.1 = some p.2 := by decide
    obtain ⟨hu, hshort⟩ := hall (e, c) letter
    rw [List.cons_append, List.cons_append, List.nil_append, textBody, if_neg (by decide),
      if_pos rfl]
    dsimp only
    rw [if_neg hu, hshort]
    rfl
  | @unit ds low digits =>
    -- The number of a character is no half of a pair, so it is taken by itself.
    have hleading : Draft.isLeading c.toNat = false := by
      unfold Draft.isLeading
      rw [Bool.and_eq_false_iff, decide_eq_false_iff_not, decide_eq_false_iff_not]
      omega
    have htrailing : Draft.isTrailing c.toNat = false := by
      unfold Draft.isTrailing
      rw [Bool.and_eq_false_iff, decide_eq_false_iff_not, decide_eq_false_iff_not]
      omega
    have hdrop : (ds ++ rest).drop 4 = rest := List.drop_left' digits.length
    rw [List.cons_append, List.cons_append, textBody, if_neg (by decide), if_pos rfl]
    dsimp only
    rw [if_pos rfl, digits.hex4 low, hdrop]
    dsimp only
    rw [hleading, htrailing, if_neg Bool.false_ne_true, if_neg Bool.false_ne_true,
      Char.ofNat_toNat]
    rfl
  | @pair ds es high first second =>
    -- What is above 16 bits has twenty bits at most, ten for each half.
    have hhalves : (c.toNat - 0x10000) / 0x400 < 0x400 ∧ (c.toNat - 0x10000) % 0x400 < 0x400 := by
      omega
    have hleading : Draft.isLeading (0xd800 + (c.toNat - 0x10000) / 0x400) = true := by
      unfold Draft.isLeading
      rw [Bool.and_eq_true, decide_eq_true_eq, decide_eq_true_eq]
      omega
    have htrailing : Draft.isTrailing (0xdc00 + (c.toNat - 0x10000) % 0x400) = true := by
      unfold Draft.isTrailing
      rw [Bool.and_eq_true, decide_eq_true_eq, decide_eq_true_eq]
      omega
    have hpair : Draft.pair (0xd800 + (c.toNat - 0x10000) / 0x400)
        (0xdc00 + (c.toNat - 0x10000) % 0x400) = c := by
      have hsum : (0xd800 + (c.toNat - 0x10000) / 0x400 - 0xd800) * 0x400
          + (0xdc00 + (c.toNat - 0x10000) % 0x400 - 0xdc00) + 0x10000 = c.toNat := by
        omega
      rw [Draft.pair, hsum, Char.ofNat_toNat]
    have hdrop : (ds ++ '\\' :: 'u' :: (es ++ rest)).drop 4 = '\\' :: 'u' :: (es ++ rest) :=
      List.drop_left' first.length
    have hdrop' : ('\\' :: 'u' :: (es ++ rest)).drop 6 = rest := List.drop_left' second.length
    rw [List.cons_append, List.cons_append, List.append_assoc, List.cons_append, List.cons_append,
      textBody, if_neg (by decide), if_pos rfl]
    dsimp only
    rw [if_pos rfl, first.hex4 (by omega), hdrop]
    dsimp only
    rw [if_pos hleading, trailing_of_spells second htrailing (by omega), hdrop']
    dsimp only
    rw [hpair]
    rfl

/-- Every character is spelled with one or more. -/
theorem SpellsChar.length_pos {c : Char} {xs : List Char} (h : SpellsChar c xs) :
    0 < xs.length := by
  cases h <;> simp

/-- So no fewer characters spell a text than it has. -/
theorem SpellsChars.length_le {s cs : List Char} (h : SpellsChars s cs) : s.length ≤ cs.length := by
  induction h with
  | nil => exact Nat.le_refl 0
  | cons first rest ih =>
    have hpos := first.length_pos
    rw [List.length_cons, List.length_append]
    omega

/-- A text is read up to the quote after it. -/
theorem textBody_of_spellsChars {s cs : List Char} (h : SpellsChars s cs) {fuel : Nat}
    (hfuel : s.length < fuel) (sofar rest : List Char) :
    textBody fuel (.ok sofar) (cs ++ '"' :: rest)
      = (.ok (some (String.ofList (sofar.reverse ++ s))), rest) := by
  induction h generalizing fuel sofar with
  | nil =>
    obtain ⟨fuel, rfl⟩ := Nat.exists_eq_add_of_lt hfuel
    rw [List.nil_append, List.append_nil]
    unfold textBody
    rfl
  | @cons c s xs cs first tail ih =>
    obtain ⟨fuel, rfl⟩ : ∃ fewer, fuel = fewer + 1 := ⟨fuel - 1, by omega⟩
    rw [List.append_assoc, textBody_of_spells first, ih (Nat.lt_of_succ_lt_succ hfuel),
      List.reverse_cons, List.append_assoc]
    rfl

/-- A text between its quotes is read as itself. -/
theorem quotedText_of_spells {s : String} {cs : List Char} (h : SpellsChars s.toList cs)
    (rest : List Char) : quotedText (cs ++ '"' :: rest) = (.ok (some s), rest) := by
  have hlength := h.length_le
  unfold quotedText
  rw [textBody_of_spellsChars h (by rw [List.length_append]; omega), List.reverse_nil,
    List.nil_append, String.ofList_toList]

/-! ## What comes after a value -/

/-- The characters that can come after a value. -/
def closers : List Char :=
  [' ', '\n', '\t', '\r', ',', ']', '\x7d']

/-- The text ends after a value, or goes on with one of these characters. -/
def Ends (rest : List Char) : Prop :=
  ∀ c ∈ rest.head?, c ∈ closers

/-- The text ends. -/
theorem ends_nil : Ends [] := nofun

/-- One of the characters comes first. -/
theorem ends_cons {c : Char} (h : c ∈ closers) (rest : List Char) : Ends (c :: rest) := by
  intro d hd
  rwa [← Option.some.inj hd]

/-- Spaces may come before such an end. -/
theorem Ends.gap {gap rest : List Char} (hgap : Gap gap) (hrest : Ends rest) :
    Ends (gap ++ rest) := by
  cases gap with
  | nil => exact hrest
  | cons c gap =>
    have hspace := hgap c List.mem_cons_self
    refine ends_cons ?_ (gap ++ rest)
    unfold Draft.isSpace at hspace
    simp only [Bool.or_eq_true, decide_eq_true_eq] at hspace
    rcases hspace with ((rfl | rfl) | rfl) | rfl <;> decide

/-- A text goes on with no digit. -/
def NoDigit (rest : List Char) : Prop :=
  ∀ c ∈ rest.head?, Text.isDigit c = false

/-- None of the characters after a value goes on with its digits. -/
theorem Ends.noDigit {rest : List Char} (h : Ends rest) : NoDigit rest := by
  have hall : ∀ c ∈ closers, Text.isDigit c = false := List.all_iff_forall_prop.mp (by decide)
  exact fun c hc => hall c (h c hc)

/-- So no digits are taken from it. -/
theorem NoDigit.takeWhile {rest : List Char} (h : NoDigit rest) :
    rest.takeWhile Text.isDigit = [] := by
  cases rest with
  | nil => rfl
  | cons c rest => exact List.takeWhile_cons_of_neg (by simp [h c rfl])

/-- Nothing is left out before it either. -/
theorem NoDigit.dropWhile {rest : List Char} (h : NoDigit rest) :
    rest.dropWhile Text.isDigit = rest := by
  cases rest with
  | nil => rfl
  | cons c rest => exact List.dropWhile_cons_of_neg (by simp [h c rfl])

/-! ## Numbers -/

/-- Digits are told from what comes after them, and they are not none. -/
theorem Digits.read {ds rest : List Char} (h : Digits ds) (hrest : NoDigit rest) :
    (ds ++ rest).takeWhile Text.isDigit = ds ∧ (ds ++ rest).dropWhile Text.isDigit = rest ∧
      ds.isEmpty = false := by
  rw [List.takeWhile_append_of_pos h.isDigit, List.dropWhile_append_of_pos h.isDigit]
  refine ⟨?_, ?_, List.isEmpty_eq_false_iff.mpr h.ne_nil⟩
  · rw [hrest.takeWhile, List.append_nil]
  · exact hrest.dropWhile

/-- The digits of an exponent are read after its letter and its sign. -/
theorem exponent_of_spells {x : Option (Bool × List Char)} {cs : List Char}
    (h : SpellsExponent x cs) {n : Numeral} (hn : n.exponent = none) {rest : List Char}
    (hrest : Ends rest) : exponent n (cs ++ rest) = (.number { n with exponent := x }, rest) := by
  cases h with
  | none =>
    have hsame : { n with exponent := none } = n := by rw [← hn]
    rw [hsame, List.nil_append]
    -- What comes after the value is not the letter of an exponent.
    cases rest with
    | nil => rfl
    | cons c rest =>
      have hall : ∀ c ∈ closers, ¬ (c = 'e' || c = 'E') = true :=
        List.all_iff_forall_prop.mp (by decide)
      unfold exponent
      dsimp only
      rw [if_neg (hall c (hrest c rfl))]
  | down letter digits =>
    obtain ⟨htake, hdrop, hne⟩ := digits.read hrest.noDigit
    simp [exponent, letter, htake, hdrop, hne]
  | plus letter digits =>
    obtain ⟨htake, hdrop, hne⟩ := digits.read hrest.noDigit
    simp [exponent, letter, htake, hdrop, hne]
  | @bare e ds letter digits =>
    obtain ⟨htake, hdrop, hne⟩ := digits.read hrest.noDigit
    -- A digit is no sign.
    have hhead : ∀ c, Text.isDigit c = false → ∀ r, ds ++ rest ≠ c :: r := by
      intro c hc r hcons
      obtain ⟨d, ds', rfl⟩ := List.exists_cons_of_ne_nil digits.ne_nil
      have hdigit := digits.isDigit d List.mem_cons_self
      rw [(List.cons.inj hcons).1, hc] at hdigit
      cases hdigit
    unfold exponent
    dsimp only [List.cons_append]
    rw [if_pos (by simpa using letter)]
    split
    · next r hplus => exact absurd hplus (hhead '+' rfl r)
    · next r hminus => exact absurd hminus (hhead '-' rfl r)
    · rw [htake, hdrop, hne, if_neg Bool.false_ne_true]

/-- An exponent goes on neither with a digit nor with a point. -/
theorem SpellsExponent.head {x : Option (Bool × List Char)} {cs : List Char}
    (h : SpellsExponent x cs) {rest : List Char} (hrest : Ends rest) :
    ∀ c ∈ (cs ++ rest).head?, Text.isDigit c = false ∧ c ≠ '.' := by
  have hletter : ∀ e, e = 'e' ∨ e = 'E' → Text.isDigit e = false ∧ e ≠ '.' := by
    rintro e (rfl | rfl) <;> decide
  have hclosers : ∀ c ∈ closers, Text.isDigit c = false ∧ c ≠ '.' :=
    List.all_iff_forall_prop.mp (by decide)
  intro c hc
  cases h with
  | none => exact hclosers c (hrest c hc)
  | down letter _ => exact hletter c (Option.some.inj hc ▸ letter)
  | plus letter _ => exact hletter c (Option.some.inj hc ▸ letter)
  | bare letter _ => exact hletter c (Option.some.inj hc ▸ letter)

/-- What comes after the whole part of a number is read. -/
theorem fraction_of_spells {x : Option (List Char)} {y : Option (Bool × List Char)}
    {cs ds : List Char} (hfraction : SpellsFraction x cs) (hexponent : SpellsExponent y ds)
    {n : Numeral} (hx : n.fraction = none) (hy : n.exponent = none) {rest : List Char}
    (hrest : Ends rest) :
    fraction n (cs ++ (ds ++ rest))
      = (.number { n with fraction := x, exponent := y }, rest) := by
  have hhead := hexponent.head hrest
  cases hfraction with
  | none =>
    have hsame : { n with fraction := none, exponent := y } = { n with exponent := y } := by
      rw [← hx]
    rw [List.nil_append, hsame, ← exponent_of_spells hexponent hy hrest]
    -- Neither an exponent nor what comes after the value begins with a point.
    unfold fraction
    split
    · next after hpoint => exact absurd rfl (hhead '.' (by rw [hpoint]; rfl)).2
    · rfl
  | @some fs digits =>
    have hnext : NoDigit (ds ++ rest) := fun c hc => (hhead c hc).1
    obtain ⟨htake, hdrop, hne⟩ := digits.read hnext
    rw [List.cons_append, fraction, htake, hdrop, hne, if_neg Bool.false_ne_true]
    exact exponent_of_spells (n := { n with fraction := some fs }) hexponent hy hrest

/-- A number is read after its sign. -/
theorem numeral_of_spells {n : Numeral} {cs : List Char} (h : SpellsSize n cs)
    {rest : List Char} (hrest : Ends rest) :
    numeral n.negative (cs ++ rest) = (.number n, rest) := by
  obtain ⟨negative, whole, x, y⟩ := n
  obtain ⟨hwhole, fs, es, hfraction, hexponent, rfl⟩ := h
  dsimp only at hwhole hfraction hexponent ⊢
  -- No digit comes after the whole part.
  have hnext : NoDigit (fs ++ (es ++ rest)) := by
    cases hfraction with
    | none => exact fun c hc => (hexponent.head hrest c hc).1
    | some digits =>
      intro c hc
      rw [← Option.some.inj hc]
      rfl
  obtain ⟨htake, hdrop, -⟩ := hwhole.toDigits.read hnext
  obtain ⟨c, ds, rfl⟩ := List.exists_cons_of_ne_nil hwhole.ne_nil
  have hdigit : Text.isDigit c = true := hwhole.isDigit c List.mem_cons_self
  rw [List.append_assoc, List.append_assoc, List.cons_append]
  rw [List.cons_append] at htake hdrop
  unfold numeral
  dsimp only
  rw [hdigit, Bool.not_true, if_neg Bool.false_ne_true]
  by_cases hzero : c = '0'
  · -- A zero is the whole part.
    subst hzero
    obtain rfl := hwhole.lead ds rfl
    rw [if_pos rfl, List.nil_append, hnext.takeWhile, List.isEmpty_nil, if_pos rfl]
    exact fraction_of_spells hfraction hexponent rfl rfl hrest
  · rw [if_neg hzero, htake, hdrop]
    exact fraction_of_spells hfraction hexponent rfl rfl hrest

/-! ## Values -/

/-- Spaces at the start are left out. -/
theorem skipSpace_gap {gap : List Char} (h : Gap gap) (cs : List Char) :
    skipSpace (gap ++ cs) = skipSpace cs :=
  List.dropWhile_append_of_pos h

/-- Anything else is not. -/
theorem skipSpace_cons {c : Char} (h : Draft.isSpace c = false) (cs : List Char) :
    skipSpace (c :: cs) = c :: cs :=
  List.dropWhile_cons_of_neg (by simp [h])

/-- Leaving out the spaces first makes no difference to a value. -/
theorem value_skipSpace (fuel : Nat) (cs : List Char) :
    value (fuel + 1) (skipSpace cs) = value (fuel + 1) cs := by
  have hskip : skipSpace (skipSpace cs) = skipSpace cs := List.dropWhile_idempotent _ cs
  rw [Draft.value.eq_def, Draft.value.eq_def (fuel + 1) cs]
  dsimp only
  rw [hskip]

/-- Nor to the items of a list. -/
theorem items_skipSpace (fuel : Nat) (cs : List Char) :
    items (fuel + 2) (skipSpace cs) = items (fuel + 2) cs := by
  rw [Draft.items.eq_def, Draft.items.eq_def (fuel + 2) cs]
  dsimp only
  rw [value_skipSpace]

/-- Nor to the fields of a record. -/
theorem members_skipSpace (fuel : Nat) (cs : List Char) :
    members (fuel + 1) (skipSpace cs) = members (fuel + 1) cs := by
  have hskip : skipSpace (skipSpace cs) = skipSpace cs := List.dropWhile_idempotent _ cs
  rw [Draft.members.eq_def, Draft.members.eq_def (fuel + 1) cs]
  dsimp only
  rw [hskip]

/-- The characters that can begin a value other than a number without a sign. -/
def openers : List Char :=
  ['n', 't', 'f', '"', '[', '\x7b', '-']

/-- A character begins a value. -/
def Starts (c : Char) : Prop :=
  c ∈ openers ∨ Text.isDigit c = true

/-- It is no space, and it ends neither a list nor a record. -/
theorem Starts.other {c : Char} (h : Starts c) :
    Draft.isSpace c = false ∧ c ≠ ']' ∧ c ≠ '\x7d' := by
  have hall : ∀ c ∈ openers, Draft.isSpace c = false ∧ c ≠ ']' ∧ c ≠ '\x7d' :=
    List.all_iff_forall_prop.mp (by decide)
  rcases h with hopens | hdigit
  · exact hall c hopens
  · have hother : ∀ d, Text.isDigit d = false → c ≠ d := by
      rintro d hd rfl
      rw [hdigit] at hd
      cases hd
    refine ⟨?_, hother ']' rfl, hother '\x7d' rfl⟩
    unfold Draft.isSpace
    simp [hother ' ' rfl, hother '\n' rfl, hother '\t' rfl, hother '\r' rfl]

/-- The whole part of a number comes first, with a digit. -/
theorem SpellsSize.exists_cons {n : Numeral} {cs : List Char} (h : SpellsSize n cs) :
    ∃ c rest, cs = c :: rest ∧ Text.isDigit c = true := by
  obtain ⟨hwhole, fs, es, -, -, rfl⟩ := h
  obtain ⟨c, ds, hds⟩ := List.exists_cons_of_ne_nil hwhole.ne_nil
  exact ⟨c, ds ++ (fs ++ es), by rw [hds]; rfl, hwhole.isDigit c (hds ▸ List.mem_cons_self)⟩

/-- A value begins with such a character. -/
theorem Spells.exists_cons {d : Draft} {cs : List Char} (h : Spells d cs) :
    ∃ c rest, cs = c :: rest ∧ Starts c := by
  cases h with
  | number _ size =>
    obtain ⟨c, rest, hcs, hdigit⟩ := size.exists_cons
    exact ⟨c, rest, hcs, .inr hdigit⟩
  | _ => exact ⟨_, _, rfl, .inl (by decide)⟩

/-- What is spelled has no break in it at its end. -/
theorem Spells.whole {d : Draft} {cs : List Char} (h : Spells d cs) : d.stop? = none := by
  cases h <;> rfl

/-- So do the items of a list, after spaces. -/
theorem SpellsItems.exists_gap {ds : List Draft} {cs : List Char} (h : SpellsItems ds cs) :
    ∃ gap c rest, cs = gap ++ c :: rest ∧ Gap gap ∧ Starts c := by
  have hpadded : ∀ {d : Draft} {cs : List Char}, SpellsPadded d cs →
      ∃ gap c rest, cs = gap ++ c :: rest ∧ Gap gap ∧ Starts c := by
    rintro d cs ⟨hbefore, hvalue, -⟩
    obtain ⟨c, rest, rfl, hc⟩ := hvalue.exists_cons
    exact ⟨_, c, _, rfl, hbefore, hc⟩
  cases h with
  | last item => exact hpadded item
  | cons item _ =>
    obtain ⟨gap, c, rest, rfl, hgap, hc⟩ := hpadded item
    exact ⟨gap, c, _, by rw [List.append_assoc, List.cons_append], hgap, hc⟩

/-- The fields of a record begin with a quote, after spaces. -/
theorem SpellsMembers.exists_gap {ms : List (Option String × Draft)} {cs : List Char}
    (h : SpellsMembers ms cs) : ∃ gap rest, cs = gap ++ '"' :: rest ∧ Gap gap := by
  have hmember : ∀ {m : Option String × Draft} {cs : List Char}, SpellsMember m cs →
      ∃ gap rest, cs = gap ++ '"' :: rest ∧ Gap gap := by
    rintro m cs ⟨hbefore, -, -, -⟩
    exact ⟨_, _, rfl, hbefore⟩
  cases h with
  | last member => exact hmember member
  | cons member _ =>
    obtain ⟨gap, rest, rfl, hgap⟩ := hmember member
    exact ⟨gap, _, by rw [List.append_assoc, List.cons_append], hgap⟩

/-- A value that begins with a digit is a number. -/
theorem value_of_isDigit (fuel : Nat) {c : Char} (h : Text.isDigit c = true) (cs : List Char) :
    value (fuel + 1) (c :: cs) = numeral false (c :: cs) := by
  have hspace := skipSpace_cons (Starts.other (.inr h)).1 cs
  rw [Draft.value.eq_def]
  dsimp only
  rw [hspace]
  split
  case h_1 heq => cases heq
  case h_9 _ _ _ _ _ _ _ _ heq =>
    cases heq
    exact if_pos h
  -- The other ways to begin are no digits.
  all_goals
    next heq =>
    cases heq
    exact absurd h (by decide)

/-- After a bracket that is not closed the items are read. -/
theorem value_bracket (fuel : Nat) {cs : List Char} {c : Char} {more : List Char}
    (hcs : skipSpace cs = c :: more) (hc : c ≠ ']') :
    value (fuel + 1) ('[' :: cs)
      = (.list (items fuel (c :: more)).1 (items fuel (c :: more)).2.1,
          (items fuel (c :: more)).2.2) := by
  rw [Draft.value.eq_def]
  simp only [skipSpace_cons (c := '[') rfl, hcs]
  split
  · next heq => cases heq
  · next heq => exact absurd (List.cons.inj heq).1 hc
  · rfl

/-- After a brace that is not closed the fields are read. -/
theorem value_brace (fuel : Nat) {cs : List Char} {c : Char} {more : List Char}
    (hcs : skipSpace cs = c :: more) (hc : c ≠ '\x7d') :
    value (fuel + 1) ('\x7b' :: cs)
      = (.record (members fuel (c :: more)).1 (members fuel (c :: more)).2.1,
          (members fuel (c :: more)).2.2) := by
  rw [Draft.value.eq_def]
  simp only [skipSpace_cons (c := '\x7b') rfl, hcs]
  split
  · next heq => cases heq
  · next heq => exact absurd (List.cons.inj heq).1 hc
  · rfl

/-- At least one character spells a value. -/
theorem SpellsPadded.length_pos {d : Draft} {cs : List Char} (h : SpellsPadded d cs) :
    0 < cs.length := by
  cases h with
  | intro _ value _ =>
    obtain ⟨c, rest, rfl, -⟩ := value.exists_cons
    simp only [List.length_append, List.length_cons]
    omega

-- The induction is on the spelling. A list or a record takes one step of the fuel for itself and
-- one for each of its parts, and each part has at least one character and a mark after it.
mutual

/-- A value is read, whatever its spelling, and what comes after it is left. -/
theorem value_of_spells {d : Draft} {cs : List Char} (h : Spells d cs) {rest : List Char}
    (hrest : Ends rest) (fuel : Nat) (hfuel : cs.length < fuel) :
    value fuel (cs ++ rest) = (d, rest) := by
  obtain ⟨fuel, rfl⟩ : ∃ fewer, fuel = fewer + 1 := ⟨fuel - 1, by omega⟩
  cases h with
  | null => rfl
  | true => rfl
  | false => rfl
  | @number n _ sign size =>
    obtain ⟨c, ds, rfl, hdigit⟩ := size.exists_cons
    have hread := numeral_of_spells size hrest
    rw [sign, List.cons_append] at hread
    rw [List.cons_append, value_of_isDigit fuel hdigit, hread]
  | @negative n cs sign size =>
    have hread := numeral_of_spells size hrest
    rw [sign] at hread
    rw [List.cons_append, Draft.value.eq_def]
    simp only [skipSpace_cons (c := '-') rfl, hread]
  | @text s cs chars =>
    rw [List.cons_append, List.append_assoc, List.singleton_append, Draft.value.eq_def]
    simp only [skipSpace_cons (c := '"') rfl, quotedText_of_spells chars]
  | @emptyList gap hgap =>
    rw [List.cons_append, List.append_assoc, List.singleton_append, Draft.value.eq_def]
    simp only [skipSpace_cons (c := '[') rfl, skipSpace_gap hgap, skipSpace_cons (c := ']') rfl]
  | @list ds cs hitems =>
    -- The spaces before the first item are left out once before it and once with it.
    rw [List.length_cons, List.length_append, List.length_singleton] at hfuel
    have hread := items_of_spells hitems rest fuel (by omega)
    obtain ⟨fuel, rfl⟩ : ∃ fewer, fuel = fewer + 2 := ⟨fuel - 2, by omega⟩
    obtain ⟨gap, c, more, hcs, hgap, hc⟩ := hitems.exists_gap
    obtain ⟨hspace, hbracket, -⟩ := hc.other
    have hskip : skipSpace (cs ++ ']' :: rest) = c :: (more ++ ']' :: rest) := by
      rw [hcs, List.append_assoc, skipSpace_gap hgap, List.cons_append, skipSpace_cons hspace]
    rw [← items_skipSpace, hskip] at hread
    rw [List.cons_append, List.append_assoc, List.singleton_append, value_bracket _ hskip hbracket,
      hread]
  | @emptyRecord gap hgap =>
    rw [List.cons_append, List.append_assoc, List.singleton_append, Draft.value.eq_def]
    simp only [skipSpace_cons (c := '\x7b') rfl, skipSpace_gap hgap,
      skipSpace_cons (c := '\x7d') rfl]
  | @record ms cs hmembers =>
    rw [List.length_cons, List.length_append, List.length_singleton] at hfuel
    have hread := members_of_spells hmembers rest fuel (by omega)
    obtain ⟨fuel, rfl⟩ : ∃ fewer, fuel = fewer + 1 := ⟨fuel - 1, by omega⟩
    obtain ⟨gap, more, hcs, hgap⟩ := hmembers.exists_gap
    have hskip : skipSpace (cs ++ '\x7d' :: rest) = '"' :: (more ++ '\x7d' :: rest) := by
      rw [hcs, List.append_assoc, skipSpace_gap hgap, List.cons_append, skipSpace_cons rfl]
    rw [← members_skipSpace, hskip] at hread
    rw [List.cons_append, List.append_assoc, List.singleton_append,
      value_brace _ hskip (by decide), hread]

/-- A value with spaces around it is read, and those after it are left. -/
theorem value_of_padded {d : Draft} {cs : List Char} (h : SpellsPadded d cs) {rest : List Char}
    (hrest : Ends rest) (fuel : Nat) (hfuel : cs.length < fuel) :
    ∃ gap, Gap gap ∧ value fuel (cs ++ rest) = (d, gap ++ rest) ∧ d.stop? = none := by
  cases h with
  | @intro _ before cs after hbefore hvalue hafter =>
    rw [List.length_append, List.length_append] at hfuel
    have hread := value_of_spells hvalue (hrest.gap hafter) fuel (by omega)
    obtain ⟨fuel, rfl⟩ : ∃ fewer, fuel = fewer + 1 := ⟨fuel - 1, by omega⟩
    -- The spaces after the value are left to what comes next.
    refine ⟨after, hafter, ?_, hvalue.whole⟩
    rw [← value_skipSpace, List.append_assoc, skipSpace_gap hbefore, value_skipSpace,
      List.append_assoc, hread]

/-- The items of a list are read up to its end. -/
theorem items_of_spells {ds : List Draft} {cs : List Char} (h : SpellsItems ds cs)
    (rest : List Char) (fuel : Nat) (hfuel : cs.length + 1 < fuel) :
    items fuel (cs ++ ']' :: rest) = (ds, none, rest) := by
  obtain ⟨fuel, rfl⟩ : ∃ fewer, fuel = fewer + 1 := ⟨fuel - 1, by omega⟩
  cases h with
  | @last d _ item =>
    have hends := ends_cons (c := ']') (by decide) rest
    obtain ⟨gap, hgap, hread, hwhole⟩ := value_of_padded item hends fuel (by omega)
    rw [Draft.items.eq_def]
    simp only [hread, hwhole, skipSpace_gap hgap, skipSpace_cons (c := ']') rfl]
    rfl
  | @cons d ds cs more item hitems =>
    have hpos := item.length_pos
    rw [List.length_append, List.length_cons] at hfuel
    have hends := ends_cons (c := ',') (by decide) (more ++ ']' :: rest)
    obtain ⟨gap, hgap, hread, hwhole⟩ := value_of_padded item hends fuel (by omega)
    have hmore := items_of_spells hitems rest fuel (by omega)
    rw [List.append_assoc, List.cons_append, Draft.items.eq_def]
    simp only [hread, hwhole, skipSpace_gap hgap, skipSpace_cons (c := ',') rfl, hmore]
    rfl

/-- The fields of a record are read up to its end. -/
theorem members_of_spells {ms : List (Option String × Draft)} {cs : List Char}
    (h : SpellsMembers ms cs) (rest : List Char) (fuel : Nat) (hfuel : cs.length + 1 < fuel) :
    members fuel (cs ++ '\x7d' :: rest) = (ms, none, rest) := by
  obtain ⟨fuel, rfl⟩ : ∃ fewer, fuel = fewer + 1 := ⟨fuel - 1, by omega⟩
  cases h with
  | @last m _ member =>
    cases member with
    | @intro k d before key after cs hbefore name hafter padded =>
      simp only [List.length_append, List.length_cons] at hfuel
      have hends := ends_cons (c := '\x7d') (by decide) rest
      obtain ⟨gap, hgap, hread, hwhole⟩ := value_of_padded padded hends fuel (by omega)
      simp only [List.append_assoc, List.cons_append]
      rw [Draft.members.eq_def]
      simp only [skipSpace_gap hbefore, skipSpace_cons (c := '"') rfl, quotedText_of_spells name,
        skipSpace_gap hafter, skipSpace_cons (c := ':') rfl, hread, hwhole, skipSpace_gap hgap,
        skipSpace_cons (c := '\x7d') rfl]
      rfl
  | @cons m ms _ more member hmembers =>
    cases member with
    | @intro k d before key after cs hbefore name hafter padded =>
      simp only [List.length_append, List.length_cons] at hfuel
      have hends := ends_cons (c := ',') (by decide) (more ++ '\x7d' :: rest)
      obtain ⟨gap, hgap, hread, hwhole⟩ := value_of_padded padded hends fuel (by omega)
      have hmore := members_of_spells hmembers rest fuel (by omega)
      simp only [List.append_assoc, List.cons_append]
      rw [Draft.members.eq_def]
      simp only [skipSpace_gap hbefore, skipSpace_cons (c := '"') rfl, quotedText_of_spells name,
        skipSpace_gap hafter, skipSpace_cons (c := ':') rfl, hread, hwhole, skipSpace_gap hgap,
        skipSpace_cons (c := ',') rfl, hmore]
      rfl

end

/-- The draft of a text is the value that it spells, and nothing else follows. -/
theorem Document.ofText_of_spells {d : Draft} {s : String} (h : SpellsPadded d s.toList) :
    Document.ofText s = ⟨d, false⟩ := by
  obtain ⟨gap, hgap, hread, -⟩ := value_of_padded h ends_nil (2 * s.toList.length + 1) (by omega)
  rw [List.append_nil, List.append_nil] at hread
  have hend : skipSpace gap = [] := List.dropWhile_eq_nil_iff.mpr hgap
  unfold Document.ofText
  dsimp only
  rw [hread]
  dsimp only
  rw [hend]
  rfl

end TableSnapshots.Json
