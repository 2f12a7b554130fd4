import TableSnapshots.Proofs.Path.Names

/-!
# Slashes at the end of a path

A path without the slashes at its end has the same components (`Tree.components_withoutLastSlashes`)
and takes the same steps, but for the stay that the slashes ask for
(`Step.ofText_withoutLastSlashes`). Its last piece is the last one of the path that is not empty, so
it ends in a name unless that is a `.` (`Tree.endsInName_withoutLastSlashes`).
-/

namespace TableSnapshots

namespace Tree

variable {p : Path} {piece : List Char}

/-- A path is what it is without the slashes at its end, and some slashes. -/
theorem exists_toList_withoutLastSlashes (p : Path) :
    ∃ n, p.text.toList = (withoutLastSlashes p).text.toList ++ List.replicate n '/' := by
  let slashes := p.text.toList.reverse.takeWhile (· = '/')
  have htext : p.text.toList = (withoutLastSlashes p).text.toList ++ slashes.reverse := by
    unfold withoutLastSlashes
    rw [String.toList_ofList, ← List.reverse_append, List.takeWhile_append_dropWhile,
      List.reverse_reverse]
  have hslashes : slashes.reverse = List.replicate slashes.length '/' := by
    rw [List.eq_replicate_iff, List.length_reverse]
    refine ⟨rfl, fun c hc => ?_⟩
    simpa using List.mem_takeWhile_imp (List.mem_reverse.mp hc)
  exact ⟨slashes.length, by rw [htext, hslashes]⟩

/-- A path without the slashes at its end has all pieces but empty ones at the end. -/
theorem pieces_withoutLastSlashes (p : Path) :
    ∃ n, p.pieces = (withoutLastSlashes p).pieces ++ List.replicate n [] := by
  obtain ⟨n, hn⟩ := exists_toList_withoutLastSlashes p
  refine ⟨n, ?_⟩
  unfold Path.pieces
  rw [hn, Text.pieces_append_replicate]

/-- No slash is left at the end. -/
theorem getLast?_withoutLastSlashes (p : Path) :
    (withoutLastSlashes p).text.toList.getLast? ≠ some '/' := by
  intro hslash
  unfold withoutLastSlashes at hslash
  rw [String.toList_ofList, List.getLast?_reverse] at hslash
  have hkept := List.head?_dropWhile_not (fun c => decide (c = '/')) p.text.toList.reverse
  rw [hslash] at hkept
  simp at hkept

section LastPiece

variable (h : lastPiece? p = some piece)
include h

/-- The last piece that is not empty is a piece, and not empty. -/
theorem mem_of_lastPiece? : piece ∈ p.pieces ∧ piece ≠ [] := by
  have hmem := List.mem_of_find?_eq_some h
  have hpiece := List.find?_some h
  exact ⟨List.mem_reverse.mp hmem, by simpa using hpiece⟩

/-- If there is such a piece, not only slashes were left out. -/
theorem withoutLastSlashes_text_ne_empty : (withoutLastSlashes p).text ≠ "" := by
  intro hempty
  obtain ⟨hmem, hpiece⟩ := mem_of_lastPiece? h
  obtain ⟨n, hn⟩ := pieces_withoutLastSlashes p
  rw [hn, Path.text_eq_empty_iff.mp hempty] at hmem
  rcases List.mem_append.mp hmem with hmem | hmem
  · exact hpiece (List.mem_singleton.mp hmem)
  · exact hpiece (List.eq_of_mem_replicate hmem)

/-- It is the last piece without the slashes. -/
theorem getLast?_pieces_withoutLastSlashes :
    (withoutLastSlashes p).pieces.getLast? = some piece := by
  obtain ⟨n, hn⟩ := pieces_withoutLastSlashes p
  obtain ⟨first, rest, hpieces⟩ := (withoutLastSlashes p).exists_pieces
  obtain ⟨last, hlast⟩ : ∃ last, (withoutLastSlashes p).pieces.getLast? = some last := by
    rw [hpieces]
    exact ⟨_, List.getLast?_eq_some_getLast (List.cons_ne_nil first rest)⟩
  have hne : last ≠ [] := by
    rintro rfl
    rcases Text.getLast?_of_pieces hlast with hempty | hslash
    · exact withoutLastSlashes_text_ne_empty h (String.toList_inj.mp hempty)
    · exact getLast?_withoutLastSlashes p hslash
  obtain ⟨others, hothers⟩ := List.getLast?_eq_some_iff.mp hlast
  unfold lastPiece? at h
  -- From the end on, the empty pieces are passed over, and the next one is found.
  rw [hn, hothers, List.reverse_append, List.reverse_replicate, List.find?_append,
    List.find?_eq_none.mpr (by simp), List.reverse_concat, Option.none_or,
    List.find?_cons_of_pos (by simpa using hne)] at h
  rw [hlast, h]

/-- The components are the same without the slashes. -/
theorem components_withoutLastSlashes : (withoutLastSlashes p).components = p.components := by
  obtain ⟨n, hn⟩ := pieces_withoutLastSlashes p
  obtain ⟨first, rest, hpieces⟩ := (withoutLastSlashes p).exists_pieces
  have hidle : (List.replicate n ([] : List Char)).filterMap Path.component? = [] := by
    rw [Path.filterMap_component?_eq_nil_iff]
    intro piece hpiece
    rw [List.eq_of_mem_replicate hpiece]
    rfl
  rw [hpieces, List.cons_append] at hn
  rw [Path.components_of_pieces hpieces, Path.components_of_pieces hn, List.filterMap_append,
    hidle, List.append_nil,
    Path.leading?_append hpieces (withoutLastSlashes_text_ne_empty h)]

/-- Without the slashes a path ends in a name, unless its last piece is a `.`. -/
theorem endsInName_withoutLastSlashes (hdot : piece ≠ ['.']) :
    (withoutLastSlashes p).EndsInName := by
  refine ⟨getLast?_withoutLastSlashes p, fun hlast => hdot ?_⟩
  rw [getLast?_pieces_withoutLastSlashes h] at hlast
  exact Option.some.inj hlast

end LastPiece

/-- A path with a name has a piece that is not empty. -/
theorem exists_lastPiece? (h : p.names ≠ []) : ∃ piece, lastPiece? p = some piece := by
  refine Option.ne_none_iff_exists'.mp fun hnone => h ?_
  have hempty : ∀ piece ∈ p.pieces, piece = [] := by
    intro piece hpiece
    have hnot := List.find?_eq_none.mp hnone piece (List.mem_reverse.mpr hpiece)
    simpa using hnot
  obtain ⟨first, rest, hpieces⟩ := p.exists_pieces
  rw [hpieces] at hempty
  have hidle : rest.filterMap Path.component? = [] := by
    rw [Path.filterMap_component?_eq_nil_iff]
    intro piece hpiece
    rw [hempty piece (List.mem_cons_of_mem first hpiece)]
    rfl
  unfold Path.names
  rw [Path.components_of_pieces hpieces, hidle, List.append_nil, hempty first List.mem_cons_self]
  unfold Path.leading?
  rw [if_pos rfl]
  split <;> rfl

end Tree

namespace Step

/-- Empty pieces at the end are one stay, unless there are no others. -/
theorem ofPieces_append_replicate {ps : List (List Char)} {last : List Char}
    (hlast : ps.getLast? = some last) (hne : last ≠ []) (n : Nat) :
    ofPieces (ps ++ List.replicate (n + 1) []) = ofPieces ps ++ [.here] := by
  have hempty : ∀ n, ofPieces (List.replicate (n + 1) []) = [.here] := by
    intro n
    induction n with
    | zero => rfl
    | succ n ih => exact ih
  rw [ofPieces_append hlast hne (by simp), hempty]

/-- A path takes the steps that it takes without the slashes at its end, and stays there if there
are any. -/
theorem ofText_withoutLastSlashes {p : Path} {piece : List Char}
    (h : Tree.lastPiece? p = some piece) :
    ofText p.text = ofText (Tree.withoutLastSlashes p).text ∨
      ofText p.text = ofText (Tree.withoutLastSlashes p).text ++ [.here] := by
  have hne := (Tree.mem_of_lastPiece? h).2
  have hlast := Tree.getLast?_pieces_withoutLastSlashes h
  obtain ⟨n, hn⟩ := Tree.pieces_withoutLastSlashes p
  obtain ⟨first, rest, hpieces⟩ := (Tree.withoutLastSlashes p).exists_pieces
  rw [hpieces] at hlast
  rw [hpieces, List.cons_append] at hn
  rw [ofText_of_pieces hn, ofText_of_pieces hpieces]
  cases n with
  | zero =>
    rw [List.replicate_zero, List.append_nil]
    exact .inl rfl
  | succ n =>
    right
    split
    · next hfirst =>
      -- The root takes no step, so there are other pieces, and they end in the last one.
      cases rest with
      | nil =>
        rw [List.getLast?_singleton, Option.some.injEq] at hlast
        exact absurd (hlast.symm.trans hfirst) hne
      | cons q qs =>
        rw [List.getLast?_cons_cons] at hlast
        exact ofPieces_append_replicate hlast hne n
    · rw [← List.cons_append]
      exact ofPieces_append_replicate hlast hne n

end Step

end TableSnapshots
