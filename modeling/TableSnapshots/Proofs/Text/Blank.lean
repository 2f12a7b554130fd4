import Mathlib.Data.List.DropRight
import TableSnapshots.Text.Blank

/-!
# Texts without the blanks around them

Blanks on either side of a text make no difference to what is left of it without them
(`trimChars_append_blanks`), nothing else is left out (`exists_blanks`), and leaving them out again
leaves out nothing (`trimChars_trimChars`). So what is left is the one middle of the text that has
only blanks around it and none at its ends (`trimmed_iff`).
-/

namespace TableSnapshots.Text

/-! ## At the end -/

/-- Leaving out blanks at the end is dropping them from there. -/
theorem trimRight_eq_rdropWhile (cs : List Char) : trimRight cs = cs.rdropWhile isBlank := rfl

/-- Blanks at the end of a text are those at the end of its last part that has anything else. -/
theorem trimRight_append (cs ds : List Char) :
    trimRight (cs ++ ds) = if trimRight ds = [] then trimRight cs else cs ++ trimRight ds := by
  unfold trimRight
  rw [List.reverse_append, List.dropWhile_append]
  split
  · next h => rw [if_pos (by simpa using h)]
  · next h => rw [if_neg (by simpa using h), List.reverse_append, List.reverse_reverse]

/-! ## On both sides -/

/-- A text that does not start with a blank keeps its start. -/
theorem trimChars_cons {c : Char} (hc : isBlank c = false) (cs : List Char) :
    trimChars (c :: cs) = c :: trimRight cs := by
  unfold trimChars
  rw [List.dropWhile_cons_of_neg (by simp [hc])]
  change trimRight ([c] ++ cs) = _
  rw [trimRight_append]
  split
  · next hcs =>
    rw [hcs, trimRight_eq_rdropWhile, List.rdropWhile_singleton, if_neg (by simp [hc])]
  · rfl

/-- A start without blanks is kept, and of what follows all but the blanks at its end. -/
theorem trimChars_append {cs : List Char} (h : ∀ c ∈ cs, isBlank c = false) (hne : cs ≠ [])
    (ds : List Char) : trimChars (cs ++ ds) = cs ++ trimRight ds := by
  obtain ⟨c, cs, rfl⟩ := List.exists_cons_of_ne_nil hne
  have hend : cs.rdropWhile isBlank = cs := List.rdropWhile_eq_self_iff.mpr fun hcs => by
    simp [h _ (List.mem_cons_of_mem c (List.getLast_mem hcs))]
  rw [List.cons_append, trimChars_cons (h c List.mem_cons_self), trimRight_append]
  split
  · next hds => rw [hds, List.append_nil, trimRight_eq_rdropWhile, hend]
  · rfl

/-- A text with no blank at either end is left as it is. -/
theorem trimChars_eq_self_of_ends {cs : List Char}
    (hfirst : ∀ c, cs.head? = some c → isBlank c = false)
    (hlast : ∀ c, cs.getLast? = some c → isBlank c = false) : trimChars cs = cs := by
  rcases cs with _ | ⟨c, cs⟩
  · rfl
  · rw [trimChars_cons (hfirst c rfl), trimRight_eq_rdropWhile]
    refine congrArg (c :: ·) (List.rdropWhile_eq_self_iff.mpr fun hcs => ?_)
    have hend : (c :: cs).getLast? = some (cs.getLast hcs) := by
      rw [List.getLast?_cons_of_ne_nil hcs, List.getLast?_eq_some_getLast hcs]
    simp [hlast _ hend]

/-- So is a text without blanks. -/
theorem trimChars_eq_self {cs : List Char} (h : ∀ c ∈ cs, isBlank c = false) :
    trimChars cs = cs :=
  trimChars_eq_self_of_ends (fun c hc => h c (List.mem_of_mem_head? hc))
    fun c hc => h c (List.mem_of_getLast? hc)

/-- What is left of a text is nothing, or starts with its first character that is no blank. -/
theorem trimChars_cases (cs : List Char) :
    trimChars cs = [] ∨ ∃ c ds, isBlank c = false ∧ trimChars cs = c :: trimRight ds := by
  rcases h : cs.dropWhile isBlank with _ | ⟨c, ds⟩
  · left
    unfold trimChars
    rw [h]
    rfl
  · right
    have hc : isBlank c = false := by simpa [h] using List.head?_dropWhile_not isBlank cs
    refine ⟨c, ds, hc, ?_⟩
    rw [← trimChars_cons hc, trimChars, trimChars, h, List.dropWhile_cons_of_neg (by simp [hc])]

/-- Blanks around a text are left out. -/
theorem trimChars_append_blanks {before : List Char} (hbefore : ∀ c ∈ before, isBlank c = true)
    (cs : List Char) {after : List Char} (hafter : ∀ c ∈ after, isBlank c = true) :
    trimChars (before ++ cs ++ after) = trimChars cs := by
  unfold trimChars
  rw [List.append_assoc, List.dropWhile_append_of_pos hbefore, List.dropWhile_append]
  split
  · next h =>
    rw [List.isEmpty_iff.mp h, List.dropWhile_eq_nil_iff.mpr hafter]
  · rw [trimRight_append, trimRight_eq_rdropWhile after,
      if_pos (List.rdropWhile_eq_nil_iff.mpr hafter)]

/-- Only blanks are left out. -/
theorem exists_blanks (cs : List Char) :
    ∃ before after, cs = before ++ trimChars cs ++ after ∧
      (∀ c ∈ before, isBlank c = true) ∧ ∀ c ∈ after, isBlank c = true := by
  have hstart := List.takeWhile_append_dropWhile (p := isBlank) (l := cs)
  have hend := List.rdropWhile_append_rtakeWhile (p := isBlank) (l := cs.dropWhile isBlank)
  refine ⟨cs.takeWhile isBlank, (cs.dropWhile isBlank).rtakeWhile isBlank, ?_,
    fun c hc => List.mem_takeWhile_imp hc, fun c hc => List.mem_rtakeWhile_imp hc⟩
  rw [List.append_assoc, trimChars, trimRight_eq_rdropWhile, hend, hstart]

/-! ## The text between the blanks -/

/-- Characters are those of a text between the blanks around it. -/
structure Trimmed (cs middle : List Char) : Prop where
  /-- There are only blanks around them. -/
  around : ∃ before after, cs = before ++ middle ++ after ∧
    (∀ c ∈ before, isBlank c = true) ∧ ∀ c ∈ after, isBlank c = true
  /-- They do not start with a blank. -/
  first : ∀ c, middle.head? = some c → isBlank c = false
  /-- They do not end with one. -/
  last : ∀ c, middle.getLast? = some c → isBlank c = false

/-- What is left of a text without the blanks is between them. -/
theorem trimmed_trimChars (cs : List Char) : Trimmed cs (trimChars cs) where
  around := exists_blanks cs
  first := by
    intro c hc
    rcases trimChars_cases cs with h | ⟨d, ds, hd, h⟩
    · rw [h] at hc
      cases hc
    · rw [h] at hc
      cases hc
      exact hd
  last := by
    intro c hc
    have hne : trimChars cs ≠ [] := by
      intro h
      rw [h] at hc
      cases hc
    have hend := List.rdropWhile_last_not isBlank (cs.dropWhile isBlank) hne
    rw [List.getLast?_eq_some_getLast hne] at hc
    cases hc
    exact Bool.eq_false_iff.mpr hend

/-- Nothing else is. -/
theorem trimmed_iff {cs middle : List Char} : Trimmed cs middle ↔ middle = trimChars cs := by
  constructor
  · intro h
    obtain ⟨before, after, rfl, hbefore, hafter⟩ := h.around
    rw [trimChars_append_blanks hbefore middle hafter, trimChars_eq_self_of_ends h.first h.last]
  · rintro rfl
    exact trimmed_trimChars cs

/-- Without the blanks around it a text has none around it. -/
theorem trimChars_trimChars (cs : List Char) : trimChars (trimChars cs) = trimChars cs :=
  trimChars_eq_self_of_ends (trimmed_trimChars cs).first (trimmed_trimChars cs).last

/-- The characters of a text without the blanks around it. -/
theorem toList_trim (s : String) : (trim s).toList = trimChars s.toList :=
  String.toList_ofList

/-- Leaving out the blanks around a text once more changes nothing. -/
theorem trim_trim (s : String) : trim (trim s) = trim s := by
  rw [trim, toList_trim, trimChars_trimChars]
  rfl

end TableSnapshots.Text
