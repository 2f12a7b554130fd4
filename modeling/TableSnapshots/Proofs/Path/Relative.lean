import TableSnapshots.Proofs.Path.Names
import TableSnapshots.Proofs.Text.Decimal

/-!
# Relative paths

What is left of a path after some of its components is a relative path whose pieces add the others
(`remainder_cases`), so joining it to a directory appends these (`components_join_remainder`). Any
relative path that is joined to another adds its own components but for a `.` at its start
(`filterMap_component?_pieces`). The names along a path are names of entries
(`isName_of_mem_names`), and so is the decimal of a number (`isName_decimal`).
-/

namespace TableSnapshots

namespace Path

/-! ## What is left of a path -/

/-- Idle pieces at the end add no components. -/
theorem filterMap_trimEnd (ps : List (List Char)) :
    (trimEnd ps).filterMap component? = ps.filterMap component? := by
  unfold trimEnd
  rw [List.filterMap_reverse, filterMap_dropWhile_isIdle, ← List.filterMap_reverse,
    List.reverse_reverse]

/-- A piece that is not idle adds the same component at the start as anywhere else. -/
theorem leading?_of_not_idle {piece : List Char} (h : ¬ isIdle piece = true)
    (rest : List (List Char)) : leading? piece rest = component? piece := by
  have hempty : piece ≠ [] := fun hpiece => h (by simp [isIdle, hpiece])
  have hdot : piece ≠ ['.'] := fun hpiece => h (by simp [isIdle, hpiece])
  unfold leading?
  rw [if_neg hempty, if_neg hdot]

/-- What is left of a path after its first component and some others, put together from pieces. -/
theorem remainder_eq_ofPieces {p : Path} {first : List Char} {rest : List (List Char)}
    (h : p.pieces = first :: rest) (n : Nat) :
    p.remainder (n + 1) = ofPieces (trimEnd ((dropComponents n rest).dropWhile isIdle)) := by
  unfold remainder
  rw [h]

/-- The pieces after some components are pieces of the path. -/
theorem mem_of_mem_dropComponents {n : Nat} {ps : List (List Char)} {piece : List Char}
    (h : piece ∈ dropComponents n ps) : piece ∈ ps := by
  induction ps generalizing n with
  | nil => cases n <;> exact h
  | cons q ps ih =>
    cases n with
    | zero => exact h
    | succ n =>
      rw [dropComponents] at h
      split at h <;> exact List.mem_cons_of_mem q (ih h)

/-- Trimmed pieces are among the pieces. -/
theorem mem_of_mem_trimEnd {ps : List (List Char)} {piece : List Char} (h : piece ∈ trimEnd ps) :
    piece ∈ ps := by
  unfold trimEnd at h
  rw [List.mem_reverse] at h
  exact List.mem_reverse.mp (List.dropWhile_subset isIdle h)

/-- What is left of a path after its first components: nothing if there are no more, else a text of
pieces that add the others and of which the first one is not idle. -/
theorem remainder_cases {p : Path} (hp : p.text ≠ "") (n : Nat) :
    (p.remainder (n + 1) = ⟨""⟩ ∧ p.components.drop (n + 1) = []) ∨
      ∃ piece ps, ¬ isIdle piece = true ∧ (p.remainder (n + 1)).pieces = piece :: ps ∧
        (piece :: ps).filterMap component? = p.components.drop (n + 1) := by
  obtain ⟨first, rest, h⟩ := p.exists_pieces
  obtain ⟨c, hc⟩ := exists_leading? h hp
  have hdrop : p.components.drop (n + 1)
      = ((dropComponents n rest).dropWhile isIdle).filterMap component? := by
    rw [filterMap_dropWhile_isIdle, filterMap_dropComponents, components_of_pieces h, hc]
    rfl
  rw [hdrop, remainder_eq_ofPieces h]
  rcases hcut : (dropComponents n rest).dropWhile isIdle with _ | ⟨piece, ps⟩
  · exact .inl ⟨rfl, rfl⟩
  · have hpiece : ¬ isIdle piece = true := by
      simpa [hcut] using List.head?_dropWhile_not isIdle (dropComponents n rest)
    obtain ⟨qs, hqs⟩ := exists_trimEnd_cons ps hpiece
    -- The pieces come from those of the path, so cutting the text gives them back.
    have hsep : ∀ q ∈ piece :: qs, '/' ∉ q := by
      intro q hq
      rw [← hqs, ← hcut] at hq
      have hrest : q ∈ rest :=
        mem_of_mem_dropComponents (List.dropWhile_subset isIdle (mem_of_mem_trimEnd hq))
      have hmem : q ∈ p.pieces := by
        rw [h]
        exact List.mem_cons_of_mem first hrest
      exact Text.not_mem_of_mem_pieces hmem
    have hpieces : (ofPieces (piece :: qs)).pieces = piece :: qs := by
      unfold pieces ofPieces
      rw [String.toList_ofList, Text.pieces_joinPieces (List.cons_ne_nil piece qs) hsep]
    have hfilter : (piece :: qs).filterMap component? = (piece :: ps).filterMap component? := by
      rw [← hqs, filterMap_trimEnd]
    exact .inr ⟨piece, qs, hpiece, hqs ▸ hpieces, hfilter⟩

/-- What is left of a path after its first components is relative. -/
theorem not_isAbsolute_remainder {p : Path} (hp : p.text ≠ "") (n : Nat) :
    (p.remainder (n + 1)).isAbsolute = false := by
  rcases remainder_cases hp n with ⟨hempty, -⟩ | ⟨piece, ps, hpiece, hpieces, -⟩
  · rw [hempty]
    rfl
  · rw [Bool.eq_false_iff]
    intro hroot
    obtain ⟨rfl, -⟩ := (isAbsolute_iff_of_pieces hpieces).mp hroot
    exact hpiece rfl

/-- Its pieces add the components that are left. -/
theorem filterMap_component?_remainder {p : Path} (hp : p.text ≠ "") (n : Nat) :
    (p.remainder (n + 1)).pieces.filterMap component? = p.components.drop (n + 1) := by
  rcases remainder_cases hp n with ⟨hempty, hdrop⟩ | ⟨piece, ps, -, hpieces, hfilter⟩
  · rw [hempty, hdrop]
    rfl
  · rw [hpieces, hfilter]

/-- Joined to a directory, what is left of a path appends its components to those of the
directory. -/
theorem components_join_remainder {dir p : Path} (hdir : dir.text ≠ "") (hp : p.text ≠ "")
    (n : Nat) :
    (dir.join (p.remainder (n + 1))).components = dir.components ++ p.components.drop (n + 1) := by
  rw [components_join (not_isAbsolute_remainder hp n) hdir, filterMap_component?_remainder hp]

/-! ## Relative paths -/

/-- No piece adds a `.` as a component. -/
theorem component?_ne_here (piece : List Char) : component? piece ≠ some .here := by
  unfold component?
  split
  · simp
  · split <;> simp

/-- The pieces of a relative path add its components but for a `.` at its start. -/
theorem filterMap_component?_pieces {q : Path} (hq : q.isAbsolute = false) :
    q.pieces.filterMap component? = q.components.filter (· ≠ .here) := by
  obtain ⟨first, rest, h⟩ := q.exists_pieces
  have hrest : (rest.filterMap component?).filter (· ≠ .here) = rest.filterMap component? := by
    rw [List.filter_eq_self]
    intro c hc
    obtain ⟨piece, -, hpiece⟩ := List.mem_filterMap.mp hc
    simpa using fun hhere : c = .here => component?_ne_here piece (hhere ▸ hpiece)
  have hfirst : (component? first).toList
      = (leading? first rest).toList.filter (· ≠ .here) := by
    unfold leading?
    split
    · next hempty =>
      -- A relative path starts with an empty piece only if it is empty.
      have hnil : rest = [] := by
        by_contra hne
        rw [(isAbsolute_iff_of_pieces h).mpr ⟨hempty, hne⟩] at hq
        cases hq
      rw [if_pos hnil, hempty]
      rfl
    · split
      · next hdot =>
        rw [hdot]
        rfl
      · cases hc : component? first with
        | none => rfl
        | some c =>
          have hne : c ≠ .here := fun hhere => component?_ne_here first (hhere ▸ hc)
          simp [hne]
  have hcons : q.pieces.filterMap component?
      = (component? first).toList ++ rest.filterMap component? := by
    rw [h]
    cases hc : component? first with
    | none => rw [List.filterMap_cons_none hc]; rfl
    | some c => rw [List.filterMap_cons_some hc]; rfl
  calc q.pieces.filterMap component?
      = (component? first).toList ++ rest.filterMap component? := hcons
    _ = (leading? first rest).toList.filter (· ≠ .here)
          ++ (rest.filterMap component?).filter (· ≠ .here) := by rw [hfirst, hrest]
    _ = q.components.filter (· ≠ .here) := by rw [components_of_pieces h, List.filter_append]

/-- A path without a text has no components. -/
theorem components_of_text_eq_empty {p : Path} (h : p.text = "") : p.components = [] :=
  components_of_pieces (text_eq_empty_iff.mp h)

/-- A path starts at the root if that is its first component. -/
theorem isAbsolute_iff {p : Path} : p.isAbsolute = true ↔ p.components.head? = some .root := by
  obtain ⟨first, rest, hpieces⟩ := p.exists_pieces
  rw [isAbsolute_iff_of_pieces hpieces]
  by_cases htext : p.text = ""
  · have hempty := text_eq_empty_iff.mp htext
    rw [hpieces, List.cons.injEq] at hempty
    rw [components_of_text_eq_empty htext]
    simp [hempty.2]
  · obtain ⟨c, hc⟩ := exists_leading? hpieces htext
    rw [components_of_pieces hpieces, hc]
    change _ ↔ some c = some .root
    rw [← hc]
    -- Only an empty piece with others after it is the root.
    unfold leading? component?
    split_ifs <;> simp_all

/-- A path that is a single name adds this name to a directory, however it is spelled. -/
theorem components_join_name {p q : Path} {s : String} (hq : q.components = [.name s])
    (hp : p.text ≠ "") : (p.join q).components = p.components ++ [.name s] := by
  have hrelative : q.isAbsolute = false := by
    rw [Bool.eq_false_iff, ne_eq, isAbsolute_iff, hq]
    simp
  rw [components_join hrelative hp, filterMap_component?_pieces hrelative, hq]
  rfl

/-- Joining to the empty path adds nothing in front. -/
theorem join_of_text_eq_empty {p : Path} (hp : p.text = "") (q : Path) : p.join q = q := by
  unfold join
  rw [hp]
  exact ite_self q

/-- An entry has its name as its last component, also if the directory is the empty path. -/
theorem components_entry_name {s : String} (p : Path) (h : IsName s) :
    (p.entry s).components = p.components ++ [.name s] := by
  by_cases hp : p.text = ""
  · rw [components_of_text_eq_empty hp, entry, join_of_text_eq_empty hp,
      components_of_pieces h.pieces, leading?_of_not_idle (by simp [h.idle]), h.component?]
    rfl
  · exact components_entry h hp

/-- So it does not lead up if the directory does not. -/
theorem up_not_mem_entry {s : String} {p : Path} (h : IsName s) (hup : .up ∉ p.components) :
    .up ∉ (p.entry s).components := by
  rw [components_entry_name p h]
  simp [hup]

/-- An entry ends in its name. -/
theorem direct_entry {s : String} {p : Path} (h : IsName s) (hp : p.text ≠ "")
    (hup : .up ∉ p.components) : (p.entry s).Direct :=
  ⟨endsInName_entry h hp, p.entry_text_ne_empty h.ne_empty, up_not_mem_entry h hup⟩

/-! ## Names -/

/-- A piece that adds a name is one. -/
theorem isName_of_component? {piece : List Char} (hpiece : '/' ∉ piece) {s : String}
    (h : component? piece = some (.name s)) : IsName s := by
  unfold component? at h
  split at h
  · cases h
  · next hidle =>
    split at h
    · cases h
    · next hup =>
      cases h
      rw [← String.toList_ofList (l := piece)] at hpiece hidle hup
      exact ⟨hpiece, by simpa using hidle, hup⟩

/-- The names along a path are names of entries. -/
theorem isName_of_mem_names {p : Path} {s : String} (h : s ∈ p.names) : IsName s := by
  obtain ⟨first, rest, hpieces⟩ := p.exists_pieces
  have hslash : ∀ piece ∈ first :: rest, '/' ∉ piece := fun piece hmem =>
    Text.not_mem_of_mem_pieces (hpieces ▸ hmem : piece ∈ p.pieces)
  obtain ⟨c, hc, hname⟩ := List.mem_filterMap.mp h
  obtain rfl : c = .name s := by
    cases c with
    | name s' => exact congrArg Component.name (Option.some.inj hname)
    | _ => cases hname
  rw [components_of_pieces hpieces, List.mem_append] at hc
  rcases hc with hc | hc
  · have hlead : leading? first rest = some (.name s) := by simpa using hc
    have hfirst : component? first = some (.name s) := by
      unfold leading? at hlead
      split at hlead
      · split at hlead <;> cases hlead
      · split at hlead
        · cases hlead
        · exact hlead
    exact isName_of_component? (hslash first List.mem_cons_self) hfirst
  · obtain ⟨piece, hmem, hpiece⟩ := List.mem_filterMap.mp hc
    exact isName_of_component? (hslash piece (List.mem_cons_of_mem first hmem)) hpiece

/-- A decimal names an entry. -/
theorem isName_decimal (n : Nat) : IsName (Text.decimal n) := by
  have hdot : '.' ∉ (Text.decimal n).toList := Text.not_mem_decimal rfl n
  refine ⟨Text.not_mem_decimal rfl n, ?_, ?_⟩
  · unfold isIdle
    rw [Bool.or_eq_false_iff, decide_eq_false_iff_not, decide_eq_false_iff_not]
    exact ⟨Text.toList_decimal_ne_nil n, fun hidle => hdot (by simp [hidle])⟩
  · exact fun hup => hdot (by simp [hup])

end Path

end TableSnapshots
