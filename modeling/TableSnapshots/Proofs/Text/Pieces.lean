import TableSnapshots.Text.Pieces

/-!
# Pieces of texts

A separator between two texts is one between their pieces (`pieces_append_cons`), and a text without
one is its only piece (`pieces_of_not_mem`). So pieces without separators are found again in the
text that they are put together to (`pieces_joinPieces`), and the last piece is empty only where a
text ends in a separator (`getLast?_of_pieces`).
-/

namespace TableSnapshots.Text

/-- A separator between two texts is one between their pieces. -/
theorem pieces_append_cons (sep : Char) (cs ds : List Char) :
    pieces sep (cs ++ sep :: ds) = pieces sep cs ++ pieces sep ds := by
  induction cs with
  | nil => simp [pieces]
  | cons c cs ih =>
    rw [List.cons_append, pieces, pieces, ih]
    split
    · rfl
    · obtain ⟨q, qs, hqs⟩ := List.exists_cons_of_ne_nil (pieces_ne_nil sep cs)
      rw [hqs]
      rfl

/-- A text without separators is one piece. -/
theorem pieces_of_not_mem {sep : Char} {cs : List Char} (h : sep ∉ cs) :
    pieces sep cs = [cs] := by
  induction cs with
  | nil => rfl
  | cons c cs ih =>
    rw [List.mem_cons, not_or] at h
    rw [pieces, if_neg (Ne.symm h.1), ih h.2]

/-- No piece has a separator in it. -/
theorem not_mem_of_mem_pieces {sep : Char} {cs piece : List Char}
    (h : piece ∈ pieces sep cs) : sep ∉ piece := by
  induction cs generalizing piece with
  | nil =>
    rw [pieces, List.mem_singleton] at h
    simp [h]
  | cons c cs ih =>
    obtain ⟨q, qs, hqs⟩ := List.exists_cons_of_ne_nil (pieces_ne_nil sep cs)
    rw [pieces, hqs] at h
    rw [hqs] at ih
    split at h
    · rcases List.mem_cons.mp h with rfl | h
      · simp
      · exact ih h
    · next hc =>
      rcases List.mem_cons.mp h with rfl | h
      · rw [List.mem_cons, not_or]
        exact ⟨Ne.symm hc, ih List.mem_cons_self⟩
      · exact ih (List.mem_cons_of_mem q h)

/-- Pieces without separators are found again in the text that they are put together to. -/
theorem pieces_joinPieces {sep : Char} {ps : List (List Char)} (hps : ps ≠ [])
    (hsep : ∀ p ∈ ps, sep ∉ p) : pieces sep (joinPieces sep ps) = ps := by
  induction ps with
  | nil => exact absurd rfl hps
  | cons p ps ih =>
    have hp := pieces_of_not_mem (hsep p List.mem_cons_self)
    cases ps with
    | nil => exact hp
    | cons q qs =>
      rw [joinPieces, pieces_append_cons, hp,
        ih (List.cons_ne_nil q qs) fun r hr => hsep r (List.mem_cons_of_mem p hr)]
      rfl

/-- After the first piece comes a separator and the others, if there are any. -/
theorem joinPieces_cons (sep : Char) (p : List Char) (ps : List (List Char)) :
    joinPieces sep (p :: ps) = p ++ if ps = [] then [] else sep :: joinPieces sep ps := by
  cases ps with
  | nil => exact (List.append_nil p).symm
  | cons q qs => rfl

/-- What is in a text that is put together is a separator or in one of the pieces. -/
theorem mem_joinPieces {sep c : Char} {ps : List (List Char)} (h : c ∈ joinPieces sep ps) :
    c = sep ∨ ∃ p ∈ ps, c ∈ p := by
  induction ps with
  | nil => cases h
  | cons p ps ih =>
    rw [joinPieces_cons, List.mem_append] at h
    rcases h with h | h
    · exact .inr ⟨p, List.mem_cons_self, h⟩
    · split at h
      · cases h
      · rcases List.mem_cons.mp h with hsep | h
        · exact .inl hsep
        · exact (ih h).imp_right fun ⟨q, hq, hc⟩ => ⟨q, List.mem_cons_of_mem p hq, hc⟩

/-! ## The last piece -/

/-- The last piece of a text that ends in a separator is empty. -/
theorem getLast?_pieces_of_sep {sep : Char} {cs : List Char} (h : cs.getLast? = some sep) :
    (pieces sep cs).getLast? = some [] := by
  obtain ⟨ds, rfl⟩ := List.getLast?_eq_some_iff.mp h
  rw [pieces_append_cons, pieces, List.getLast?_concat]

/-- A text whose last piece is empty is empty or ends in the separator. -/
theorem getLast?_of_pieces {sep : Char} {cs : List Char}
    (h : (pieces sep cs).getLast? = some []) : cs = [] ∨ cs.getLast? = some sep := by
  induction cs with
  | nil => exact .inl rfl
  | cons c cs ih =>
    obtain ⟨q, qs, hpieces⟩ := List.exists_cons_of_ne_nil (pieces_ne_nil sep cs)
    rw [hpieces] at ih
    rw [pieces, hpieces] at h
    right
    rw [List.getLast?_cons]
    split at h
    · next hc =>
      rw [List.getLast?_cons_cons] at h
      rcases ih h with rfl | hlast
      · rw [hc]
        rfl
      · rw [hlast]
        rfl
    · cases qs with
      | nil => simp at h
      | cons r rs =>
        -- The piece before the first separator is not the last one.
        rw [List.getLast?_cons_cons] at h
        rcases ih (by rw [List.getLast?_cons_cons, h]) with rfl | hlast
        · cases hpieces
        · rw [hlast]
          rfl

/-- Separators at the end are empty pieces at the end. -/
theorem pieces_append_replicate (sep : Char) (cs : List Char) (n : Nat) :
    pieces sep (cs ++ List.replicate n sep) = pieces sep cs ++ List.replicate n [] := by
  induction n with
  | zero => simp
  | succ n ih =>
    rw [List.replicate_succ', ← List.append_assoc, pieces_append_cons, ih,
      List.replicate_succ', List.append_assoc]
    rfl

end TableSnapshots.Text
