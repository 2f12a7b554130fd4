import TableSnapshots.Proofs.Text.Blank
import TableSnapshots.Proofs.Text.Decimal
import TableSnapshots.Proofs.Text.Pieces
import TableSnapshots.Version

/-!
# What is read as a version

A version starts with runs of digits that have dots between them (`IsDotted`), and its numbers are
those of the longest such start (`LongestDotted`). What follows such a start decides whether it is
the longest one: it is if no digit follows, and no dot with a digit after it (`EndsNumbers`,
`longestDotted_of_ends`). The reader stops there (`longestDotted_runsOf`), so what it reads is
decided by the grammar (`parse_eq_ok_iff`).
-/

namespace TableSnapshots.EngineVersion

open Text (isDigit digitsValue joinPieces pieces readDigits? trimChars)

/-! ## Runs of digits -/

/-- Runs of digits to be written with dots between them. -/
structure IsDotted (runs : List (List Char)) : Prop where
  /-- There is a run. -/
  ne_nil : runs ≠ []
  /-- Each run is one digit or more. -/
  run : ∀ run ∈ runs, run ≠ [] ∧ ∀ c ∈ run, isDigit c = true

/-- The runs make the longest start of a text that is runs of digits with dots between them. -/
structure LongestDotted (cs : List Char) (runs : List (List Char)) : Prop extends
    IsDotted runs where
  /-- The text starts with the runs. -/
  starts : joinPieces '.' runs <+: cs
  /-- Other runs that it starts with are no longer. -/
  longest : ∀ others, IsDotted others → joinPieces '.' others <+: cs →
    (joinPieces '.' others).length ≤ (joinPieces '.' runs).length

/-- A text does not go on with the runs before it: it starts neither with a digit nor with a dot
that a digit follows. -/
structure EndsNumbers (rest : List Char) : Prop where
  /-- The first character is no digit. -/
  digit : ∀ c more, rest = c :: more → isDigit c = false
  /-- Nor is the second one if the first one is a dot. -/
  dot : ∀ c more, rest = '.' :: c :: more → isDigit c = false

/-- Nor does any start of such a text. -/
theorem EndsNumbers.of_prefix {rest start : List Char} (h : EndsNumbers rest)
    (hstart : start <+: rest) : EndsNumbers start := by
  obtain ⟨more, rfl⟩ := hstart
  exact ⟨fun c cs hcs => h.digit c (cs ++ more) (by rw [hcs]; rfl),
    fun c cs hcs => h.dot c (cs ++ more) (by rw [hcs]; rfl)⟩

namespace IsDotted

variable {runs : List (List Char)}

/-- A run has no dot in it. -/
theorem dot_not_mem (h : IsDotted runs) {run : List Char} (hrun : run ∈ runs) : '.' ∉ run :=
  fun hdot => by cases (h.run run hrun).2 '.' hdot

/-- The runs are the pieces of their text. -/
theorem pieces_joinPieces (h : IsDotted runs) : pieces '.' (joinPieces '.' runs) = runs :=
  Text.pieces_joinPieces h.ne_nil fun _ hrun => h.dot_not_mem hrun

/-- One more run before the others. -/
theorem cons {run : List Char} (hne : run ≠ []) (hdigits : ∀ c ∈ run, isDigit c = true)
    (h : runs ≠ [] → IsDotted runs) : IsDotted (run :: runs) := by
  refine ⟨List.cons_ne_nil run runs, fun other hother => ?_⟩
  rcases List.mem_cons.mp hother with rfl | hrest
  · exact ⟨hne, hdigits⟩
  · exact (h (List.ne_nil_of_mem hrest)).run other hrest

/-- Their text starts with a digit. -/
theorem exists_cons (h : IsDotted runs) :
    ∃ c cs, joinPieces '.' runs = c :: cs ∧ isDigit c = true := by
  obtain ⟨run, rest, rfl⟩ := List.exists_cons_of_ne_nil h.ne_nil
  obtain ⟨hne, hdigits⟩ := h.run run List.mem_cons_self
  obtain ⟨c, cs, rfl⟩ := List.exists_cons_of_ne_nil hne
  have hc := hdigits c List.mem_cons_self
  cases rest with
  | nil => exact ⟨c, cs, rfl, hc⟩
  | cons next rest => exact ⟨c, _, rfl, hc⟩

/-- No part of it after some start is one that ends the runs. -/
theorem not_endsNumbers (h : IsDotted runs) {start rest : List Char}
    (htext : joinPieces '.' runs = start ++ rest) (hrest : rest ≠ []) : ¬ EndsNumbers rest := by
  intro hends
  obtain ⟨c, more, rfl⟩ := List.exists_cons_of_ne_nil hrest
  by_cases hc : c = '.'
  · -- After a dot comes the next run, and it starts with a digit.
    subst hc
    have hpieces := h.pieces_joinPieces
    rw [htext, Text.pieces_append_cons] at hpieces
    obtain ⟨run, others, hnext⟩ := List.exists_cons_of_ne_nil (Text.pieces_ne_nil '.' more)
    have hrun : run ∈ runs := by
      rw [← hpieces, hnext]
      simp
    have hmore := Text.joinPieces_pieces '.' more
    obtain ⟨hne, hdigits⟩ := h.run run hrun
    obtain ⟨d, ds, rfl⟩ := List.exists_cons_of_ne_nil hne
    obtain ⟨tail, rfl⟩ : ∃ tail, more = d :: tail := by
      rw [hnext] at hmore
      cases others with
      | nil => exact ⟨ds, hmore.symm⟩
      | cons _ _ => exact ⟨_, hmore.symm⟩
    have hdigit := hdigits d List.mem_cons_self
    rw [hends.dot d tail rfl] at hdigit
    cases hdigit
  · have hmem : c ∈ joinPieces '.' runs := by
      rw [htext]
      simp
    obtain ⟨run, hrun, hin⟩ := (Text.mem_joinPieces hmem).resolve_left hc
    have hdigit := (h.run run hrun).2 c hin
    rw [hends.digit c more rfl] at hdigit
    cases hdigit

end IsDotted

/-- Runs that are followed by what ends them are the longest ones. -/
theorem longestDotted_of_ends {runs : List (List Char)} {rest : List Char} (h : IsDotted runs)
    (hrest : EndsNumbers rest) : LongestDotted (joinPieces '.' runs ++ rest) runs := by
  refine ⟨h, List.prefix_append _ rest, fun others hothers hstarts => ?_⟩
  by_contra hlonger
  -- Longer runs would go on with the start of what ends the shorter ones.
  obtain ⟨more, hmore⟩ := List.prefix_of_prefix_length_le (List.prefix_append _ rest) hstarts
    (Nat.le_of_not_le hlonger)
  have hne : more ≠ [] := by
    rintro rfl
    rw [List.append_nil] at hmore
    exact hlonger (Nat.le_of_eq (congrArg List.length hmore.symm))
  rw [← hmore, List.prefix_append_right_inj] at hstarts
  exact hothers.not_endsNumbers hmore.symm hne (hrest.of_prefix hstarts)

/-- A text has only one longest start. -/
theorem LongestDotted.unique {cs : List Char} {runs others : List (List Char)}
    (h : LongestDotted cs runs) (h' : LongestDotted cs others) : runs = others := by
  have hlength : (joinPieces '.' runs).length = (joinPieces '.' others).length :=
    Nat.le_antisymm (h'.longest runs h.toIsDotted h.starts)
      (h.longest others h'.toIsDotted h'.starts)
  have htext : joinPieces '.' runs = joinPieces '.' others :=
    (List.prefix_of_prefix_length_le h.starts h'.starts (Nat.le_of_eq hlength)).eq_of_length
      hlength
  rw [← h.pieces_joinPieces, htext, h'.pieces_joinPieces]

/-! ## Where the reader stops -/

/-- The runs of digits that are read from the pieces between the dots. -/
def runsOf : List (List Char) → List (List Char)
  | [] => []
  | piece :: rest =>
    let run := piece.takeWhile isDigit
    if run.isEmpty then []
    else if run.length = piece.length then run :: runsOf rest else [run]

/-- The numbers that are read are those of the runs. -/
theorem readNumbers?_eq_mapM (ps : List (List Char)) :
    readNumbers? ps = (runsOf ps).mapM (readDigits? 64) := by
  induction ps with
  | nil => rfl
  | cons piece rest ih =>
    rw [readNumbers?, runsOf]
    split
    · rfl
    · split
      · rw [List.mapM_cons, ih]
      · rw [List.mapM_cons]
        cases readDigits? 64 (piece.takeWhile isDigit) <;> rfl

/-- A first piece without a digit at its start ends the runs before it, one of digits only is a run
before those of the other pieces, and any other one has the last run at its start. -/
theorem runsOf_cons_cases (piece : List Char) (rest : List (List Char)) :
    (runsOf (piece :: rest) = [] ∧ ∀ c more, piece = c :: more → isDigit c = false) ∨
      (runsOf (piece :: rest) = piece :: runsOf rest ∧ piece ≠ [] ∧
        ∀ c ∈ piece, isDigit c = true) ∨
      ∃ run d ds, runsOf (piece :: rest) = [run] ∧ piece = run ++ d :: ds ∧ run ≠ [] ∧
        (∀ c ∈ run, isDigit c = true) ∧ isDigit d = false := by
  have hpiece := (List.takeWhile_append_dropWhile : piece.takeWhile isDigit ++ _ = piece)
  have hdigits : ∀ c ∈ piece.takeWhile isDigit, isDigit c = true :=
    fun c hc => List.mem_takeWhile_imp hc
  by_cases hrun : piece.takeWhile isDigit = []
  · refine .inl ⟨by rw [runsOf, hrun]; rfl, ?_⟩
    rintro c more rfl
    by_contra hc
    rw [List.takeWhile_cons_of_pos ((Bool.not_eq_false _).mp hc)] at hrun
    cases hrun
  · have hempty : ¬ (piece.takeWhile isDigit).isEmpty = true := mt List.isEmpty_iff.mp hrun
    rcases hdrop : piece.dropWhile isDigit with _ | ⟨d, ds⟩
    · rw [hdrop, List.append_nil] at hpiece
      rw [runsOf, if_neg hempty, if_pos (congrArg List.length hpiece), hpiece]
      rw [hpiece] at hrun hdigits
      exact .inr (.inl ⟨rfl, hrun, hdigits⟩)
    · have hd : isDigit d = false := by simpa [hdrop] using List.head?_dropWhile_not isDigit piece
      rw [hdrop] at hpiece
      have hlength : ¬ (piece.takeWhile isDigit).length = piece.length := by
        intro heq
        have hwhole := congrArg List.length hpiece
        rw [List.length_append, List.length_cons] at hwhole
        omega
      rw [runsOf, if_neg hempty, if_neg hlength]
      exact .inr (.inr ⟨_, d, ds, rfl, hpiece.symm, hrun, hdigits, hd⟩)

/-- A text starts with the runs that are read from its pieces, and what follows ends these. There
are none only if it does not start with a digit. -/
theorem joinPieces_runsOf {ps : List (List Char)} (hdots : ∀ piece ∈ ps, '.' ∉ piece) :
    (runsOf ps = [] → ∀ c more, joinPieces '.' ps = c :: more → isDigit c = false) ∧
      (runsOf ps ≠ [] → IsDotted (runsOf ps) ∧
        ∃ rest, EndsNumbers rest ∧ joinPieces '.' ps = joinPieces '.' (runsOf ps) ++ rest) := by
  induction ps with
  | nil => exact ⟨fun _ => nofun, fun h => absurd rfl h⟩
  | cons piece rest ih =>
    obtain ⟨hnone, hsome⟩ := ih fun other hother => hdots other (List.mem_cons_of_mem piece hother)
    rw [Text.joinPieces_cons]
    rcases runsOf_cons_cases piece rest with ⟨hruns, hstart⟩ | ⟨hruns, hne, hdigits⟩ |
      ⟨run, d, ds, hruns, rfl, hne, hdigits, hd⟩
    · -- The text starts with the piece, or with a dot after an empty one.
      rw [hruns]
      refine ⟨fun _ c more htext => ?_, fun h => absurd rfl h⟩
      cases piece with
      | nil =>
        split at htext
        · cases htext
        · cases htext
          rfl
      | cons b bs =>
        cases htext
        exact hstart _ _ rfl
    · rw [hruns]
      refine ⟨nofun, fun _ => ⟨.cons hne hdigits fun h => (hsome h).1, ?_⟩⟩
      rw [Text.joinPieces_cons]
      by_cases hrest : runsOf rest = []
      · -- The piece is the last run, and the next piece has no digit at its start.
        rw [if_pos hrest, List.append_nil]
        refine ⟨_, ⟨fun c more htext => ?_, fun c more htext => ?_⟩, rfl⟩
        · split at htext
          · cases htext
          · cases htext
            rfl
        · split at htext
          · cases htext
          · exact hnone hrest c more (List.cons.inj htext).2
      · have hpieces : rest ≠ [] := by
          rintro rfl
          exact hrest rfl
        obtain ⟨-, tail, htail, htext⟩ := hsome hrest
        refine ⟨tail, htail, ?_⟩
        rw [if_neg hrest, if_neg hpieces, htext, List.append_assoc, List.cons_append]
    · -- The piece goes on after its digits, with neither a digit nor a dot.
      rw [hruns]
      refine ⟨nofun, fun _ => ⟨.cons hne hdigits nofun, _, ⟨?_, ?_⟩, List.append_assoc _ _ _⟩⟩
      · intro c more htext
        cases htext
        exact hd
      · intro c more htext
        obtain ⟨rfl, -⟩ := List.cons.inj htext
        exact absurd (by simp) (hdots _ List.mem_cons_self)

/-! ## What is read -/

/-- Runs of digits are numbers if a word of 64 bits can hold each of them. -/
theorem mapM_readDigits?_eq_some_iff {runs : List (List Char)} {ns : List Nat}
    (h : ∀ run ∈ runs, run ≠ [] ∧ ∀ c ∈ run, isDigit c = true) :
    runs.mapM (readDigits? 64) = some ns ↔
      (∀ run ∈ runs, digitsValue run < wordCount 64) ∧ ns = runs.map digitsValue := by
  induction runs generalizing ns with
  | nil => simp [eq_comm]
  | cons run runs ih =>
    obtain ⟨hne, hdigits⟩ := h run List.mem_cons_self
    have hrest := fun ms => @ih ms fun other hother => h other (List.mem_cons_of_mem run hother)
    have hread : readDigits? 64 run
        = if digitsValue run < wordCount 64 then some (digitsValue run) else none := by
      unfold readDigits?
      rw [List.isEmpty_eq_false_iff.mpr hne, List.all_eq_true.mpr hdigits]
      simp only [Bool.not_false, Bool.and_self, Bool.true_and, decide_eq_true_eq]
    rw [List.mapM_cons, hread, List.forall_mem_cons]
    split
    · next hfits =>
      change (runs.mapM (readDigits? 64)).bind (fun ms => some (digitsValue run :: ms)) = _ ↔ _
      rw [Option.bind_eq_some_iff]
      constructor
      · rintro ⟨ms, hms, hns⟩
        obtain ⟨hall, rfl⟩ := (hrest ms).mp hms
        exact ⟨⟨hfits, hall⟩, (Option.some.inj hns).symm⟩
      · rintro ⟨⟨-, hall⟩, rfl⟩
        exact ⟨_, (hrest _).mpr ⟨hall, rfl⟩, rfl⟩
    · next hfits => exact iff_of_false nofun fun hall => hfits hall.1.1

/-- A text is read as a version by its longest start of digits and dots: there is one, and a word of
64 bits can hold each of its numbers. -/
theorem parse_eq_ok_iff {s : String} {v : EngineVersion} :
    parse s = .ok v ↔ ∃ runs, LongestDotted (trimChars s.toList) runs ∧
      (∀ run ∈ runs, digitsValue run < wordCount 64) ∧
      v = ⟨runs.map digitsValue, Text.trim s⟩ := by
  have hdots : ∀ piece ∈ pieces '.' (trimChars s.toList), '.' ∉ piece :=
    fun _ hpiece => Text.not_mem_of_mem_pieces hpiece
  obtain ⟨hnone, hsome⟩ := joinPieces_runsOf hdots
  rw [Text.joinPieces_pieces] at hnone hsome
  unfold parse
  rw [readNumbers?_eq_mapM]
  by_cases hruns : runsOf (pieces '.' (trimChars s.toList)) = []
  · -- No run is read, and there is none at the start.
    rw [hruns]
    refine iff_of_false nofun ?_
    rintro ⟨runs, hlongest, -⟩
    obtain ⟨c, cs, hcs, hdigit⟩ := hlongest.exists_cons
    obtain ⟨more, hmore⟩ := hlongest.starts
    rw [hcs] at hmore
    rw [hnone hruns c (cs ++ more) hmore.symm] at hdigit
    cases hdigit
  · obtain ⟨hdotted, rest, hrest, htext⟩ := hsome hruns
    have hlongest := longestDotted_of_ends hdotted hrest
    rw [← htext] at hlongest
    generalize runsOf (pieces '.' (trimChars s.toList)) = runs at *
    constructor
    · intro h
      split at h
      · cases h
      · cases h
      · next hread =>
        cases h
        obtain ⟨hall, rfl⟩ := (mapM_readDigits?_eq_some_iff hdotted.run).mp hread
        exact ⟨runs, hlongest, hall, rfl⟩
    · rintro ⟨others, hothers, hall, rfl⟩
      obtain rfl := hlongest.unique hothers
      rw [(mapM_readDigits?_eq_some_iff hdotted.run).mpr ⟨hall, rfl⟩]
      obtain ⟨run, rest, rfl⟩ := List.exists_cons_of_ne_nil hdotted.ne_nil
      rfl

/-- A text that is not read as a version is refused as it was given. -/
theorem parse_eq_error_of_forall_ne {s : String} (h : ∀ v, parse s ≠ .ok v) :
    parse s = .error (.invalidVersion s) := by
  cases hparse : parse s with
  | ok v => exact absurd hparse (h v)
  | error error =>
    unfold parse at hparse
    split at hparse <;> cases hparse <;> rfl

/-- A text has runs of digits at its start if it starts with a digit. -/
theorem exists_longestDotted_iff {cs : List Char} :
    (∃ runs, LongestDotted cs runs) ↔ ∃ c, cs.head? = some c ∧ isDigit c = true := by
  constructor
  · rintro ⟨runs, hlongest⟩
    obtain ⟨c, ds, hds, hdigit⟩ := hlongest.exists_cons
    obtain ⟨more, rfl⟩ := hlongest.starts
    exact ⟨c, by rw [hds]; rfl, hdigit⟩
  · rintro ⟨c, hc, hdigit⟩
    have hdots : ∀ piece ∈ pieces '.' cs, '.' ∉ piece :=
      fun _ hpiece => Text.not_mem_of_mem_pieces hpiece
    obtain ⟨hnone, hsome⟩ := joinPieces_runsOf hdots
    rw [Text.joinPieces_pieces] at hnone hsome
    obtain ⟨more, rfl⟩ := List.head?_eq_some_iff.mp hc
    obtain ⟨hdotted, rest, hrest, htext⟩ := hsome fun hruns => by
      rw [hnone hruns c more rfl] at hdigit
      cases hdigit
    rw [htext]
    exact ⟨_, longestDotted_of_ends hdotted hrest⟩

/-- Reading the text of a version gives the version again. -/
theorem parse_text {s : String} {v : EngineVersion} (h : parse s = .ok v) :
    parse v.text = .ok v := by
  obtain ⟨runs, hlongest, hall, rfl⟩ := parse_eq_ok_iff.mp h
  refine parse_eq_ok_iff.mpr ⟨runs, ?_, hall, ?_⟩
  · dsimp only
    rwa [Text.toList_trim, Text.trimChars_trimChars]
  · dsimp only
    rw [Text.trim_trim]

/-- Numbers are written as runs of digits. -/
theorem isDotted_decimals {ns : List Nat} (hne : ns ≠ []) :
    IsDotted (ns.map fun n => (Text.decimal n).toList) := by
  refine ⟨mt List.map_eq_nil_iff.mp hne, fun run hrun => ?_⟩
  obtain ⟨n, -, rfl⟩ := List.mem_map.mp hrun
  exact ⟨Text.toList_decimal_ne_nil n, fun c hc => Text.isDigit_of_mem_decimal hc⟩

/-- Numbers that are written with dots between them and end there are read again, whatever blanks
stand around the text and whatever follows the numbers. -/
theorem parse_decimals {ns : List Nat} (hne : ns ≠ []) (hns : ∀ n ∈ ns, n < wordCount 64)
    {before suffix after : List Char} (hbefore : ∀ c ∈ before, Text.isBlank c = true)
    (hsuffix : EndsNumbers suffix) (hafter : ∀ c ∈ after, Text.isBlank c = true) :
    ∃ text, parse (String.ofList (before ++
        (joinPieces '.' (ns.map fun n => (Text.decimal n).toList) ++ suffix) ++ after))
      = .ok ⟨ns, text⟩ := by
  have hdotted := isDotted_decimals hne
  have hclean : ∀ c ∈ joinPieces '.' (ns.map fun n => (Text.decimal n).toList),
      Text.isBlank c = false := by
    intro c hc
    rcases Text.mem_joinPieces hc with rfl | ⟨run, hrun, hin⟩
    · rfl
    · exact Text.isBlank_of_isDigit ((hdotted.run run hrun).2 c hin)
  have hsome : joinPieces '.' (ns.map fun n => (Text.decimal n).toList) ≠ [] := by
    obtain ⟨c, cs, hcs, -⟩ := hdotted.exists_cons
    rw [hcs]
    exact List.cons_ne_nil c cs
  -- What is left of the suffix without the blanks at its end still ends the numbers.
  have hlongest := longestDotted_of_ends hdotted
    (hsuffix.of_prefix (List.rdropWhile_prefix Text.isBlank suffix))
  suffices h : ∀ s : String, s.toList = before ++
      (joinPieces '.' (ns.map fun n => (Text.decimal n).toList) ++ suffix) ++ after →
      parse s = .ok ⟨ns, Text.trim s⟩ from ⟨_, h _ String.toList_ofList⟩
  intro s hs
  refine parse_eq_ok_iff.mpr ⟨ns.map fun n => (Text.decimal n).toList, ?_, ?_, ?_⟩
  · rw [hs, Text.trimChars_append_blanks hbefore _ hafter, Text.trimChars_append hclean hsome]
    exact hlongest
  · intro run hrun
    obtain ⟨n, hn, rfl⟩ := List.mem_map.mp hrun
    rw [Text.digitsValue_decimal]
    exact hns n hn
  · have hvalues : ns.map (digitsValue ∘ fun n => (Text.decimal n).toList) = ns :=
      List.map_id'' Text.digitsValue_decimal ns
    rw [List.map_map, hvalues]

/-- A text is what it is between the blanks around it, if there are any. It is read as a version iff
this starts with a digit and a word of 64 bits can hold every number of its longest start of digits
with dots between them. These numbers are what is read, together with the text between the blanks,
which is read as the same again. Any other text is refused as it was given. Numbers that are written
with dots between them are read again, also if something follows that does not go on with them. -/
theorem parse_iff_longestDotted (s : String) :
    ∃ middle, (∀ other, Text.Trimmed s.toList other ↔ other = middle) ∧
    ((∃ v, parse s = .ok v) ↔
      (∃ c, middle.head? = some c ∧ isDigit c = true) ∧
      ∀ runs, LongestDotted middle runs → ∀ run ∈ runs, digitsValue run < wordCount 64) ∧
    (∀ v, parse s = .ok v →
      (∃ runs, LongestDotted middle runs ∧
        v.components = runs.map digitsValue ∧ v.text.toList = middle) ∧
      parse v.text = .ok v) ∧
    ((∀ v, parse s ≠ .ok v) → parse s = .error (.invalidVersion s)) ∧
    ∀ ns : List Nat, ns ≠ [] → (∀ n ∈ ns, n < wordCount 64) →
      ∀ before suffix after : List Char, (∀ c ∈ before, Text.isBlank c = true) →
        EndsNumbers suffix → (∀ c ∈ after, Text.isBlank c = true) →
        ∃ text, parse (String.ofList (before ++
            (joinPieces '.' (ns.map fun n => (Text.decimal n).toList) ++ suffix) ++ after))
          = .ok ⟨ns, text⟩ := by
  refine ⟨trimChars s.toList, fun _ => Text.trimmed_iff, ⟨?_, ?_⟩, ?_,
    parse_eq_error_of_forall_ne, ?_⟩
  · rintro ⟨v, hv⟩
    obtain ⟨runs, hlongest, hall, -⟩ := parse_eq_ok_iff.mp hv
    refine ⟨exists_longestDotted_iff.mp ⟨runs, hlongest⟩, fun others hothers => ?_⟩
    rwa [← hlongest.unique hothers]
  · rintro ⟨hdigit, hall⟩
    obtain ⟨runs, hlongest⟩ := exists_longestDotted_iff.mpr hdigit
    exact ⟨_, parse_eq_ok_iff.mpr ⟨runs, hlongest, hall runs hlongest, rfl⟩⟩
  · intro v hv
    obtain ⟨runs, hlongest, -, heq⟩ := parse_eq_ok_iff.mp hv
    exact ⟨⟨runs, hlongest, by rw [heq], by rw [heq, Text.toList_trim]⟩, parse_text hv⟩
  · intro ns hne hns before suffix after hbefore hsuffix hafter
    exact parse_decimals hne hns hbefore hsuffix hafter

end TableSnapshots.EngineVersion
