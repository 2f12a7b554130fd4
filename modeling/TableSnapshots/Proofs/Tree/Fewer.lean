import TableSnapshots.Proofs.Tree.Entry

/-!
# Paths in a tree with fewer entries

Where entries were taken away a path leads to the same place as before, or now something is missing
on its way (`resolve_of_within`). Why a path leads nowhere at all is told by what is looked up along
it (`resolve_error_cases`): a path on which nothing but the end is missing, and that the operating
system follows, fails because of that (`Vacant.resolve`).
-/

namespace TableSnapshots.Tree

variable {t t' : Tree} {followLast : Bool} {dir : Location} {steps : List Step}

/-! ## With fewer entries -/

/-- What there is in a tree is there in another one. -/
def Within (t' t : Tree) : Prop :=
  ∀ l, t'.node? l = none ∨ t'.node? l = t.node? l

/-- What there is at a location is there in the other tree. -/
theorem Within.content? (h : t'.Within t) (l : Location) :
    t'.content? l = none ∨ t'.content? l = t.content? l := by
  unfold Tree.content?
  exact (h l).imp (fun hnone => by rw [hnone]; rfl) (fun hsame => by rw [hsame])

/-- A tree is within one that another one is within. -/
theorem Within.trans {t'' : Tree} (h : t''.Within t') (h' : t'.Within t) : t''.Within t := by
  intro l
  rcases h l with hnone | hsame
  · exact .inl hnone
  · rw [hsame]
    exact h' l

/-- Selected entries are within the tree that they were selected from. -/
theorem within_filter (t : Tree) (keep : Location → Bool) :
    (Tree.mk (t.entries.filter fun e => keep e.1)).Within t := by
  intro l
  by_cases hl : l = []
  · subst hl
    exact .inr rfl
  · rw [node?_filter t keep hl]
    cases keep l
    · exact .inl rfl
    · exact .inr rfl

/-- So is what is left when a directory was emptied. -/
theorem within_emptied (t : Tree) (loc : Location) : (t.emptied loc).Within t :=
  within_filter t fun l => !below loc l

/-- So is what is left after a removal. -/
theorem within_removeAll (t : Tree) (p : Path) : (t.removeAll p).2.Within t := by
  obtain ⟨keep, htree, -⟩ := prunedAlong_removeAll t (List.mem_singleton_self p)
  rw [htree]
  exact within_filter t keep

section Within

variable (h : t'.Within t)
include h

/-- Steps come to the same halt, or something is missing. -/
theorem advance_of_within :
    t'.advance followLast dir steps = t.advance followLast dir steps ∨
      t'.advance followLast dir steps = .error .missing := by
  induction steps generalizing dir with
  | nil => exact .inl rfl
  | cons step rest ih =>
    cases step with
    | here => exact ih
    | up => exact ih
    | name s =>
      rw [advance_name, advance_name]
      split
      · exact .inl rfl
      · rcases h.content? (dir ++ [s]) with hnone | hsame
        · rw [hnone]
          exact .inr rfl
        · rw [hsame]
          split
          · exact .inl rfl
          · exact ih
          · exact .inl rfl
          · exact .inl rfl

/-- They find the same through links, or something is missing. -/
theorem walk_of_within {links : Nat} :
    t'.walk followLast links dir steps = t.walk followLast links dir steps ∨
      t'.walk followLast links dir steps = .error .missing := by
  induction links generalizing dir steps with
  | zero =>
    refine (advance_of_within h).imp (fun hsame => ?_) walk_of_error
    rw [walk, walk, hsame]
  | succ links ih =>
    have hadvance : t'.advance followLast dir steps = t.advance followLast dir steps ∨
        t'.advance followLast dir steps = .error .missing := advance_of_within h
    rcases hadvance with hsame | hmissing
    · rw [walk, walk, hsame]
      cases t.advance followLast dir steps with
      | error fault => exact .inl rfl
      | ok halt =>
        cases halt with
        | arrived loc => exact .inl rfl
        | detour dir' target rest => exact ih
    · exact .inr (walk_of_error hmissing)

/-- A path leads to the same place, or something is missing. -/
theorem resolve_of_within (p : Path) :
    t'.resolve followLast p = t.resolve followLast p ∨
      t'.resolve followLast p = .error .missing := by
  cases htext : checkText p.text with
  | error fault =>
    rw [resolve_of_refused htext, resolve_of_refused htext]
    exact .inl rfl
  | ok _ =>
    rw [resolve_eq_walk htext, resolve_eq_walk htext]
    exact walk_of_within h

end Within

/-! ## A link at the end -/

/-- It makes a difference whether a link at the end is followed only if there is one. -/
theorem advance_false_cases (t : Tree) (dir : Location) (steps : List Step) :
    t.advance false dir steps = t.advance true dir steps ∨
      ∃ l target, t.advance false dir steps = .ok (.arrived l) ∧
        t.content? l = some (.link target) := by
  induction steps generalizing dir with
  | nil => exact .inl rfl
  | cons step rest ih =>
    cases step with
    | here => exact ih dir
    | up => exact ih dir.dropLast
    | name s =>
      rw [advance_name, advance_name]
      split
      · exact .inl rfl
      · split
        · exact .inl rfl
        · exact ih (dir ++ [s])
        · exact .inl rfl
        · next target hlink =>
          by_cases hrest : rest = []
          · exact .inr ⟨dir ++ [s], target, by simp [hrest], hlink⟩
          · exact .inl (by simp [hrest])

/-- The same through links. -/
theorem walk_false_cases (t : Tree) (links : Nat) (dir : Location) (steps : List Step) :
    t.walk false links dir steps = t.walk true links dir steps ∨
      ∃ l target, t.walk false links dir steps = .ok l ∧ t.content? l = some (.link target) := by
  induction links generalizing dir steps with
  | zero =>
    rcases advance_false_cases t dir steps with hsame | ⟨l, target, harrived, hlink⟩
    · exact .inl (by rw [walk, walk, hsame])
    · exact .inr ⟨l, target, walk_of_arrived harrived, hlink⟩
  | succ links ih =>
    rcases advance_false_cases t dir steps with hsame | ⟨l, target, harrived, hlink⟩
    · rw [walk, walk, hsame]
      cases t.advance true dir steps with
      | error fault => exact .inl rfl
      | ok halt =>
        cases halt with
        | arrived l => exact .inl rfl
        | detour dir' target rest => exact ih _ _
    · exact .inr ⟨l, target, walk_of_arrived harrived, hlink⟩

/-- A path that leads somewhere leads there without the slashes at its end as well, unless it leads
to a link then. -/
theorem resolve_withoutLastSlashes {p : Path} {piece : List Char} {loc : Location}
    (hpiece : lastPiece? p = some piece)
    (hlink : ∀ l, t.LeadsTo false (withoutLastSlashes p) l →
      ∀ target, t.content? l ≠ some (.link target))
    (h : t.resolve false p = .ok loc) : t.resolve false (withoutLastSlashes p) = .ok loc := by
  obtain ⟨n, hn⟩ := exists_toList_withoutLastSlashes p
  have hadmissible := admissible_of_resolve h
  have htext : checkText (withoutLastSlashes p).text = .ok () := by
    refine checkText_eq_ok (fun hzero => hadmissible.zero ?_)
      (withoutLastSlashes_text_ne_empty hpiece) (Nat.lt_of_le_of_lt ?_ hadmissible.length)
    · rw [hn]
      exact List.mem_append_left _ hzero
    · have hall : p.text
          = (withoutLastSlashes p).text ++ String.ofList (List.replicate n '/') := by
        rw [← String.toList_inj, hn, String.toList_append, String.toList_ofList]
      rw [hall, String.utf8ByteSize_append]
      exact Nat.le_add_right _ _
  rw [resolve_eq_walk (checkText_eq_ok hadmissible.zero (text_ne_empty_of_resolve h)
    hadmissible.length)] at h
  rcases Step.ofText_withoutLastSlashes hpiece with hsteps | hsteps
  · rw [resolve_eq_walk htext, ← hsteps]
    exact h
  · -- The slashes follow a link at the end, and there is none.
    rw [hsteps] at h
    have hfollowed := walk_of_concat_here h
    rcases walk_false_cases t linkLimit [] (Step.ofText (withoutLastSlashes p).text) with
      hsame | ⟨l, target, hl, hcontent⟩
    · rw [resolve_eq_walk htext, hsame, hfollowed]
    · exact absurd hcontent (hlink l (leads_of_walk hl) target)

/-! ## Why a path leads nowhere -/

/-- A file is among some locations. -/
def MeetsFile (t : Tree) (ls : List Location) : Prop :=
  ∃ l ∈ ls, ∃ bytes, t.content? l = some (.file bytes)

instance (t : Tree) (l : Location) : Decidable (∃ bytes, t.content? l = some (.file bytes)) :=
  match t.content? l with
  | some (.file bytes) => isTrue ⟨bytes, rfl⟩
  | some .directory | some (.link _) | none => isFalse nofun

instance (t : Tree) (ls : List Location) : Decidable (t.MeetsFile ls) :=
  inferInstanceAs (Decidable (∃ l ∈ ls, ∃ bytes, t.content? l = some (.file bytes)))

/-- What was met is met among more locations. -/
theorem MeetsFile.mono {ls ls' : List Location} (h : t.MeetsFile ls) (hle : ls ⊆ ls') :
    t.MeetsFile ls' := by
  obtain ⟨l, hl, hfile⟩ := h
  exact ⟨l, hle hl, hfile⟩

/-- Steps fail where a name is too long or nothing is, or at a file. -/
theorem advance_error_cases {fault : Fault}
    (h : t.advance followLast dir steps = .error fault) :
    fault = .missing ∨ fault = .nameTooLong ∨
      fault = .notDirectory ∧ t.MeetsFile (t.advanceLooks dir steps) := by
  induction steps generalizing dir with
  | nil => cases h
  | cons step rest ih =>
    cases step with
    | here => exact ih h
    | up => exact ih h
    | name s =>
      rw [advance_name] at h
      rw [advanceLooks]
      split at h
      · cases h
        exact .inr (.inl rfl)
      · next hlong =>
        rw [if_neg hlong]
        split at h
        · cases h
          exact .inl rfl
        · next hdirectory =>
          rw [hdirectory]
          exact (ih h).imp_right (Or.imp_right (And.imp_right fun hfile =>
            hfile.mono (List.subset_cons_self _ _)))
        · next bytes hfile =>
          split at h <;> cases h
          exact .inr (.inr ⟨rfl, _, List.mem_cons_self, bytes, hfile⟩)
        · split at h <;> cases h

/-- Through links they may also meet too many of them. -/
theorem walk_error_cases {links : Nat} {fault : Fault}
    (h : t.walk followLast links dir steps = .error fault) :
    fault = .missing ∨ fault = .nameTooLong ∨ fault = .linkLoop ∨
      fault = .notDirectory ∧ t.MeetsFile (t.walkLooks followLast links dir steps) := by
  induction links generalizing dir steps with
  | zero =>
    cases hadvance : t.advance followLast dir steps with
    | error fault' =>
      rw [walk_of_error hadvance] at h
      cases h
      exact (advance_error_cases hadvance).imp_right (Or.imp_right .inr)
    | ok halt =>
      rw [walk, hadvance] at h
      cases halt <;> cases h
      exact .inr (.inr (.inl rfl))
  | succ links ih =>
    rw [walkLooks]
    cases hadvance : t.advance followLast dir steps with
    | error fault' =>
      rw [walk_of_error hadvance] at h
      cases h
      exact (advance_error_cases hadvance).imp_right (Or.imp_right fun hfile =>
        .inr (hfile.imp_right fun hmeets => hmeets.mono (List.subset_append_left _ _)))
    | ok halt =>
      rw [walk, hadvance] at h
      cases halt with
      | arrived l => cases h
      | detour dir' target rest =>
        exact (ih h).imp_right (Or.imp_right (Or.imp_right (And.imp_right fun hmeets =>
          hmeets.mono (List.subset_append_right _ _))))

/-- A path fails by its text, or as its steps do. -/
theorem resolve_error_cases {p : Path} {fault : Fault}
    (h : t.resolve followLast p = .error fault) :
    fault = .missing ∨ fault ∈ [Fault.zeroInPath, .nameTooLong, .linkLoop] ∨
      fault = .notDirectory ∧ t.MeetsFile (t.looks followLast p) := by
  cases htext : checkText p.text with
  | error fault' =>
    rw [resolve_of_refused htext] at h
    cases h
    unfold checkText at htext
    split at htext
    · cases htext
      exact .inr (.inl (by simp))
    · split at htext
      · cases htext
        exact .inl rfl
      · split at htext <;> cases htext
        exact .inr (.inl (by simp))
  | ok _ =>
    rw [resolve_eq_walk htext] at h
    unfold looks
    rw [htext]
    rcases walk_error_cases h with rfl | rfl | rfl | hfile
    · exact .inl rfl
    · exact .inr (.inl (by simp))
    · exact .inr (.inl (by simp))
    · exact .inr (.inr hfile)

/-- Nothing is where a path leads, and no file stands on its way. -/
structure Vacant (t : Tree) (p : Path) : Prop where
  /-- The path leads nowhere. -/
  absent : ∀ loc, t.resolve false p ≠ .ok loc
  /-- There is no file among what is looked up along it. -/
  way : ¬ t.MeetsFile (t.looks false p)

/-- The operating system follows a path to its end or to where nothing is: its text can be one, no
name is too long where it is looked up, and there are no more links than may be followed. -/
def Followed (t : Tree) (p : Path) : Prop :=
  ∀ fault ∈ [Fault.zeroInPath, .nameTooLong, .linkLoop], t.resolve false p ≠ .error fault

/-- A path that leads nowhere for none of these reasons is missing. -/
theorem Vacant.resolve {p : Path} (h : t.Vacant p) (hfollowed : t.Followed p) :
    t.resolve false p = .error .missing := by
  cases hresolve : t.resolve false p with
  | ok loc => exact absurd hresolve (h.absent loc)
  | error fault =>
    rcases resolve_error_cases hresolve with rfl | hfault | ⟨-, hfile⟩
    · rfl
    · exact absurd hresolve (hfollowed fault hfault)
    · exact absurd hfile h.way

end TableSnapshots.Tree
