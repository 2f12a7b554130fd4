import TableSnapshots.Proofs.Path.Names

/-!
# Where a path leads

Following a path as a relation (`Tree.Leads`): one rule for each kind of step and each kind of entry
that it can come to, and no count of the links. What the function that follows paths finds is where
the path leads (`leads_of_resolve`), and a path leads to one place only (`Leads.unique`). In this
form the way can be cut in two (`Leads.split`), it is the same in a tree from which entries were
taken away, as long as it is there (`Leads.mono`), and from a place on from where no link is met it
goes straight down (`Leads.straight`).
-/

namespace TableSnapshots.Tree

variable {t : Tree} {followLast : Bool}

/-- Steps from a directory lead to a location. A link at the end is followed if `followLast`. -/
inductive Leads (t : Tree) (followLast : Bool) : Location → List Step → Location → Prop
  /-- Without a step nothing is left. -/
  | arrived (dir : Location) : Leads t followLast dir [] dir
  /-- The directory stays the same. -/
  | here {dir loc : Location} {rest : List Step} (next : Leads t followLast dir rest loc) :
      Leads t followLast dir (.here :: rest) loc
  /-- On from the directory above. -/
  | up {dir loc : Location} {rest : List Step} (next : Leads t followLast dir.dropLast rest loc) :
      Leads t followLast dir (.up :: rest) loc
  /-- On from a directory in the directory. -/
  | enter {dir loc : Location} {s : String} {rest : List Step} (short : s.utf8ByteSize ≤ nameLimit)
      (content : t.content? (dir ++ [s]) = some .directory)
      (next : Leads t followLast (dir ++ [s]) rest loc) :
      Leads t followLast dir (.name s :: rest) loc
  /-- A file is the end. -/
  | file {dir : Location} {s : String} {bytes : ByteArray} (short : s.utf8ByteSize ≤ nameLimit)
      (content : t.content? (dir ++ [s]) = some (.file bytes)) :
      Leads t followLast dir [.name s] (dir ++ [s])
  /-- A link at the end that is not followed. -/
  | link {dir : Location} {s target : String} (short : s.utf8ByteSize ≤ nameLimit)
      (content : t.content? (dir ++ [s]) = some (.link target)) (stay : followLast = false) :
      Leads t followLast dir [.name s] (dir ++ [s])
  /-- Any other link is replaced by its target. -/
  | follow {dir loc : Location} {s target : String} {rest : List Step}
      (short : s.utf8ByteSize ≤ nameLimit)
      (content : t.content? (dir ++ [s]) = some (.link target))
      (go : rest ≠ [] ∨ followLast = true)
      (next : Leads t followLast (origin dir target) (Step.ofText target ++ rest) loc) :
      Leads t followLast dir (.name s :: rest) loc

/-- A path leads to a location. -/
def LeadsTo (t : Tree) (followLast : Bool) (p : Path) (loc : Location) : Prop :=
  t.Leads followLast [] (Step.ofText p.text) loc

/-! ## What is found is where the path leads -/

/-- A step to a name, by what is there. -/
theorem advance_name (t : Tree) (followLast : Bool) (dir : Location) (s : String)
    (rest : List Step) :
    t.advance followLast dir (.name s :: rest)
      = if nameLimit < s.utf8ByteSize then .error .nameTooLong
        else match t.content? (dir ++ [s]) with
          | none => .error .missing
          | some .directory => t.advance followLast (dir ++ [s]) rest
          | some (.file _) =>
            if rest = [] then .ok (.arrived (dir ++ [s])) else .error .notDirectory
          | some (.link target) =>
            if rest = [] && !followLast then .ok (.arrived (dir ++ [s]))
            else .ok (.detour dir target rest) := by
  rw [advance, content?]
  cases t.node? (dir ++ [s]) with
  | none => rfl
  | some n =>
    dsimp only [Option.map]
    cases n.content <;> rfl

/-- Steps that come to their end lead there, and steps that come to a link lead where it leads. -/
theorem leads_of_advance {dir : Location} {steps : List Step} {halt : Halt}
    (h : t.advance followLast dir steps = .ok halt) :
    match halt with
    | .arrived loc => t.Leads followLast dir steps loc
    | .detour dir' target rest =>
      ∀ {loc}, t.Leads followLast (origin dir' target) (Step.ofText target ++ rest) loc →
        t.Leads followLast dir steps loc := by
  induction steps generalizing dir with
  | nil =>
    cases h
    exact .arrived dir
  | cons step rest ih =>
    cases step with
    | here =>
      cases halt with
      | arrived loc => exact .here (ih h)
      | detour dir' target rest' => exact fun hnext => .here (ih h hnext)
    | up =>
      cases halt with
      | arrived loc => exact .up (ih h)
      | detour dir' target rest' => exact fun hnext => .up (ih h hnext)
    | name s =>
      rw [advance_name] at h
      split at h
      · cases h
      · next hlong =>
        have hshort := Nat.not_lt.mp hlong
        split at h
        · cases h
        · next hdirectory =>
          cases halt with
          | arrived loc => exact .enter hshort hdirectory (ih h)
          | detour dir' target rest' =>
            exact fun {loc} hnext => .enter hshort hdirectory (ih h hnext)
        · next hfile =>
          split at h
          · next hrest =>
            cases h
            subst hrest
            exact .file hshort hfile
          · cases h
        · next hlink =>
          split at h
          · next hlast =>
            rw [Bool.and_eq_true, decide_eq_true_eq, Bool.not_eq_true'] at hlast
            cases h
            obtain ⟨rfl, hstay⟩ := hlast
            exact .link hshort hlink hstay
          · next hlast =>
            cases h
            have hgo : rest ≠ [] ∨ followLast = true := by
              by_contra hnot
              rw [not_or, not_not, Bool.not_eq_true] at hnot
              exact hlast (by simp [hnot])
            exact fun {loc} hnext => .follow hshort hlink hgo hnext

/-- Steps that find a location arrive there, or come to a link from which it is found with one link
less to follow. -/
theorem of_walk_eq_ok {links : Nat} {dir loc : Location} {steps : List Step}
    (h : t.walk followLast links dir steps = .ok loc) :
    t.advance followLast dir steps = .ok (.arrived loc) ∨
      ∃ fewer dir' target rest, links = fewer + 1 ∧
        t.advance followLast dir steps = .ok (.detour dir' target rest) ∧
        t.walk followLast fewer (origin dir' target) (Step.ofText target ++ rest) = .ok loc := by
  cases hadvance : t.advance followLast dir steps with
  | error fault => cases links <;> rw [walk, hadvance] at h <;> cases h
  | ok halt =>
    cases halt with
    | arrived loc' =>
      left
      cases links <;> rw [walk, hadvance] at h <;> cases h <;> rfl
    | detour dir' target rest =>
      right
      cases links with
      | zero =>
        rw [walk, hadvance] at h
        cases h
      | succ fewer =>
        rw [walk, hadvance] at h
        exact ⟨fewer, dir', target, rest, rfl, rfl, h⟩

/-- What is found by following links is where the steps lead. -/
theorem leads_of_walk {links : Nat} {dir loc : Location} {steps : List Step}
    (h : t.walk followLast links dir steps = .ok loc) : t.Leads followLast dir steps loc := by
  induction links generalizing dir steps with
  | zero =>
    rcases of_walk_eq_ok h with harrived | ⟨_, _, _, _, hlinks, -⟩
    · exact leads_of_advance harrived
    · cases hlinks
  | succ links ih =>
    rcases of_walk_eq_ok h with harrived | ⟨_, dir', target, rest, hlinks, hdetour, hnext⟩
    · exact leads_of_advance harrived
    · cases hlinks
      exact leads_of_advance hdetour (ih hnext)

/-- A path that is found leads to where it is found. -/
theorem leadsTo_of_resolve {p : Path} {loc : Location} (h : t.resolve followLast p = .ok loc) :
    t.LeadsTo followLast p loc := by
  unfold resolve at h
  cases htext : checkText p.text with
  | error fault =>
    rw [htext] at h
    cases h
  | ok _ =>
    rw [htext] at h
    exact leads_of_walk h

/-! ## Where steps lead -/

namespace Leads

variable {dir loc loc' : Location} {xs ys : List Step}

/-- Steps lead to one location only. -/
theorem unique (h : t.Leads followLast dir xs loc) (h' : t.Leads followLast dir xs loc') :
    loc = loc' := by
  -- What there is at a name decides which rule applies to it.
  induction h with
  | arrived dir =>
    cases h'
    rfl
  | here _ ih =>
    cases h' with
    | here next => exact ih next
  | up _ ih =>
    cases h' with
    | up next => exact ih next
  | enter _ content _ ih =>
    cases h' with
    | enter _ _ next => exact ih next
    | file _ content' => simp [content] at content'
    | link _ content' _ => simp [content] at content'
    | follow _ content' _ _ => simp [content] at content'
  | file _ content =>
    cases h' with
    | enter _ content' _ => simp [content] at content'
    | file _ _ => rfl
    | link _ _ _ => rfl
    | follow _ content' _ _ => simp [content] at content'
  | link _ content stay =>
    cases h' with
    | enter _ content' _ => simp [content] at content'
    | file _ _ => rfl
    | link _ _ _ => rfl
    | follow _ _ go _ => exact absurd go (by simp [stay])
  | follow _ content go _ ih =>
    cases h' with
    | enter _ content' _ => simp [content] at content'
    | file _ content' => simp [content] at content'
    | link _ _ stay => exact absurd go (by simp [stay])
    | follow _ content' _ next =>
      rw [content, Option.some.injEq, Content.link.injEq] at content'
      subst content'
      exact ih next

/-- Steps lead to the same location in every tree that has the entries that they meet. -/
theorem mono {t' : Tree} (hsub : ∀ l, t.node? l = none ∨ t.node? l = t'.node? l)
    (h : t.Leads followLast dir xs loc) : t'.Leads followLast dir xs loc := by
  have hcontent : ∀ {l c}, t.content? l = some c → t'.content? l = some c := by
    intro l c hc
    rcases hsub l with hnone | hsame
    · rw [content?, hnone] at hc
      cases hc
    · rwa [content?, ← hsame]
  induction h with
  | arrived dir => exact .arrived dir
  | here _ ih => exact .here ih
  | up _ ih => exact .up ih
  | enter short content _ ih => exact .enter short (hcontent content) ih
  | file short content => exact .file short (hcontent content)
  | link short content stay => exact .link short (hcontent content) stay
  | follow short content go _ ih => exact .follow short (hcontent content) go ih

/-- The way of some steps and others after them goes through where the first ones lead. -/
theorem split (hys : ys ≠ []) (h : t.Leads followLast dir (xs ++ ys) loc) :
    ∃ mid, t.Leads true dir xs mid ∧ t.Leads followLast mid ys loc := by
  generalize hsteps : xs ++ ys = steps at h
  induction h generalizing xs with
  | arrived dir => exact absurd (List.append_eq_nil_iff.mp hsteps).2 hys
  | @here dir loc rest next ih =>
    rcases List.append_eq_cons_iff.mp hsteps with ⟨rfl, rfl⟩ | ⟨xs', rfl, rfl⟩
    · exact ⟨dir, .arrived dir, .here next⟩
    · obtain ⟨mid, hfirst, hlast⟩ := ih rfl
      exact ⟨mid, .here hfirst, hlast⟩
  | @up dir loc rest next ih =>
    rcases List.append_eq_cons_iff.mp hsteps with ⟨rfl, rfl⟩ | ⟨xs', rfl, rfl⟩
    · exact ⟨dir, .arrived dir, .up next⟩
    · obtain ⟨mid, hfirst, hlast⟩ := ih rfl
      exact ⟨mid, .up hfirst, hlast⟩
  | @enter dir loc s rest short content next ih =>
    rcases List.append_eq_cons_iff.mp hsteps with ⟨rfl, rfl⟩ | ⟨xs', rfl, rfl⟩
    · exact ⟨dir, .arrived dir, .enter short content next⟩
    · obtain ⟨mid, hfirst, hlast⟩ := ih rfl
      exact ⟨mid, .enter short content hfirst, hlast⟩
  | @file dir s bytes short content =>
    rcases List.append_eq_cons_iff.mp hsteps with ⟨rfl, rfl⟩ | ⟨xs', rfl, hnil⟩
    · exact ⟨dir, .arrived dir, .file short content⟩
    · exact absurd (List.append_eq_nil_iff.mp hnil.symm).2 hys
  | @link dir s target short content stay =>
    rcases List.append_eq_cons_iff.mp hsteps with ⟨rfl, rfl⟩ | ⟨xs', rfl, hnil⟩
    · exact ⟨dir, .arrived dir, .link short content stay⟩
    · exact absurd (List.append_eq_nil_iff.mp hnil.symm).2 hys
  | @follow dir loc s target rest short content go next ih =>
    rcases List.append_eq_cons_iff.mp hsteps with ⟨rfl, rfl⟩ | ⟨xs', rfl, rfl⟩
    · exact ⟨dir, .arrived dir, .follow short content go next⟩
    · -- The link is followed on the way, whatever comes after the first steps.
      obtain ⟨mid, hfirst, hlast⟩ := @ih (Step.ofText target ++ xs') (by simp)
      exact ⟨mid, .follow short content (.inr rfl) hfirst, hlast⟩

/-- A stay on the way makes no difference, except that at the end it follows a link. -/
theorem drop_here (h : t.Leads followLast dir (xs ++ .here :: ys) loc) :
    t.Leads (followLast || ys.isEmpty) dir (xs ++ ys) loc := by
  generalize hsteps : xs ++ .here :: ys = steps at h
  induction h generalizing xs with
  | arrived dir => exact absurd (List.append_eq_nil_iff.mp hsteps).2 (List.cons_ne_nil _ _)
  | @here dir loc rest next ih =>
    rcases List.append_eq_cons_iff.mp hsteps with ⟨rfl, hrest⟩ | ⟨xs', rfl, rfl⟩
    · obtain ⟨-, rfl⟩ := List.cons.inj hrest
      cases ys with
      | nil =>
        cases next
        exact .arrived dir
      | cons y ys => simpa using next
    · exact .here (ih rfl)
  | @up dir loc rest next ih =>
    rcases List.append_eq_cons_iff.mp hsteps with ⟨rfl, hrest⟩ | ⟨xs', rfl, rfl⟩
    · cases hrest
    · exact .up (ih rfl)
  | @enter dir loc s rest short content next ih =>
    rcases List.append_eq_cons_iff.mp hsteps with ⟨rfl, hrest⟩ | ⟨xs', rfl, rfl⟩
    · cases hrest
    · exact .enter short content (ih rfl)
  | @file dir s bytes short content =>
    rcases List.append_eq_cons_iff.mp hsteps with ⟨rfl, hrest⟩ | ⟨xs', rfl, hnil⟩
    · cases hrest
    · exact absurd (List.append_eq_nil_iff.mp hnil.symm).2 (List.cons_ne_nil _ _)
  | @link dir s target short content stay =>
    rcases List.append_eq_cons_iff.mp hsteps with ⟨rfl, hrest⟩ | ⟨xs', rfl, hnil⟩
    · cases hrest
    · exact absurd (List.append_eq_nil_iff.mp hnil.symm).2 (List.cons_ne_nil _ _)
  | @follow dir loc s target rest short content go next ih =>
    rcases List.append_eq_cons_iff.mp hsteps with ⟨rfl, hrest⟩ | ⟨xs', rfl, rfl⟩
    · cases hrest
    · -- If the stay was all that came after the link, the link is at the end now.
      have hgo : xs' ++ ys ≠ [] ∨ (followLast || ys.isEmpty) = true := by
        cases ys with
        | nil => exact .inr (by simp)
        | cons y ys => exact .inl (by simp)
      refine .follow short content hgo ?_
      have hnext := @ih (Step.ofText target ++ xs') (by simp)
      rwa [List.append_assoc] at hnext

/-- Without the stays on their way steps lead where they did, if a link at the end is followed
whenever the last step was to stay. -/
theorem filter_here (xs : List Step) (h : t.Leads followLast dir (xs ++ ys) loc) :
    t.Leads (followLast || decide (ys.getLast? = some .here)) dir
      (xs ++ ys.filter (· ≠ .here)) loc := by
  induction ys generalizing xs followLast with
  | nil => simpa using h
  | cons y ys ih =>
    by_cases hy : y = .here
    · subst hy
      have hdrop := ih xs h.drop_here
      rw [List.filter_cons_of_neg (by simp)]
      cases ys with
      | nil => simpa using hdrop
      | cons y' ys => simpa [List.getLast?_cons_cons] using hdrop
    · have hnext : t.Leads followLast dir ((xs ++ [y]) ++ ys) loc := by simpa using h
      have hkeep := ih (xs ++ [y]) hnext
      rw [List.filter_cons_of_pos (by simpa using hy)]
      cases ys with
      | nil => simpa [hy] using hkeep
      | cons y' ys => simpa [List.getLast?_cons_cons] using hkeep

/-- A stay on the way can be put in, unless it comes at the end. -/
theorem insert_here (hys : ys ≠ []) (h : t.Leads followLast dir (xs ++ ys) loc) :
    t.Leads followLast dir (xs ++ .here :: ys) loc := by
  generalize hsteps : xs ++ ys = steps at h
  induction h generalizing xs with
  | arrived dir => exact absurd (List.append_eq_nil_iff.mp hsteps).2 hys
  | @here dir loc rest next ih =>
    rcases List.append_eq_cons_iff.mp hsteps with ⟨rfl, rfl⟩ | ⟨xs', rfl, rfl⟩
    · exact .here (.here next)
    · exact .here (ih rfl)
  | @up dir loc rest next ih =>
    rcases List.append_eq_cons_iff.mp hsteps with ⟨rfl, rfl⟩ | ⟨xs', rfl, rfl⟩
    · exact .here (.up next)
    · exact .up (ih rfl)
  | @enter dir loc s rest short content next ih =>
    rcases List.append_eq_cons_iff.mp hsteps with ⟨rfl, rfl⟩ | ⟨xs', rfl, rfl⟩
    · exact .here (.enter short content next)
    · exact .enter short content (ih rfl)
  | @file dir s bytes short content =>
    rcases List.append_eq_cons_iff.mp hsteps with ⟨rfl, rfl⟩ | ⟨xs', rfl, hnil⟩
    · exact .here (.file short content)
    · exact absurd (List.append_eq_nil_iff.mp hnil.symm).2 hys
  | @link dir s target short content stay =>
    rcases List.append_eq_cons_iff.mp hsteps with ⟨rfl, rfl⟩ | ⟨xs', rfl, hnil⟩
    · exact .here (.link short content stay)
    · exact absurd (List.append_eq_nil_iff.mp hnil.symm).2 hys
  | @follow dir loc s target rest short content go next ih =>
    rcases List.append_eq_cons_iff.mp hsteps with ⟨rfl, rfl⟩ | ⟨xs', rfl, rfl⟩
    · exact .here (.follow short content go next)
    · -- More steps come after the link, so it is followed in any case.
      have hnext := @ih (Step.ofText target ++ xs') (by simp)
      rw [List.append_assoc] at hnext
      exact .follow short content (.inl (by simp)) hnext

/-- Steps that lead somewhere without the stays on their way lead there with them, unless the last
step is to stay. -/
theorem of_filter_here (xs : List Step) (hlast : ys.getLast? ≠ some .here)
    (h : t.Leads followLast dir (xs ++ ys.filter (· ≠ .here)) loc) :
    t.Leads followLast dir (xs ++ ys) loc := by
  induction ys generalizing xs with
  | nil => exact h
  | cons y ys ih =>
    have hrest : ys.getLast? ≠ some .here := by
      cases ys with
      | nil => simp
      | cons y' ys => rwa [List.getLast?_cons_cons] at hlast
    by_cases hy : y = .here
    · subst hy
      have hys : ys ≠ [] := by
        rintro rfl
        exact hlast rfl
      rw [List.filter_cons_of_neg (by simp)] at h
      exact (ih xs hrest h).insert_here hys
    · rw [List.filter_cons_of_pos (by simpa using hy), List.append_cons] at h
      rw [List.append_cons]
      exact ih (xs ++ [y]) hrest h

/-- Steps that lead to a directory still lead there if they stay at the end. -/
theorem stay {f' : Bool} (h : t.Leads followLast dir xs loc)
    (hloc : t.content? loc = some .directory) : t.Leads f' dir (xs ++ [.here]) loc := by
  induction h with
  | arrived dir => exact .here (.arrived dir)
  | here _ ih => exact .here (ih hloc)
  | up _ ih => exact .up (ih hloc)
  | enter short content _ ih => exact .enter short content (ih hloc)
  | file _ content => simp [content] at hloc
  | link _ content _ => simp [content] at hloc
  | follow short content _ _ ih =>
    refine .follow short content (.inl (by simp)) ?_
    have hnext := ih hloc
    rwa [List.append_assoc] at hnext

/-- Steps that do not lead to a link lead to the same place if a link at the end is followed. -/
theorem of_not_link {f' : Bool} (h : t.Leads followLast dir xs loc)
    (hloc : ∀ target, t.content? loc ≠ some (.link target)) (hf : followLast = true → f' = true) :
    t.Leads f' dir xs loc := by
  induction h with
  | arrived dir => exact .arrived dir
  | here _ ih => exact .here (ih hloc)
  | up _ ih => exact .up (ih hloc)
  | enter short content _ ih => exact .enter short content (ih hloc)
  | file short content => exact .file short content
  | link _ content _ => exact absurd content (hloc _)
  | follow short content go _ ih => exact .follow short content (go.imp_right hf) (ih hloc)

/-- The names along a way are short enough for the directories that they are looked up in. -/
theorem short {s : String} (h : t.Leads followLast dir xs loc) (hs : .name s ∈ xs) :
    s.utf8ByteSize ≤ nameLimit := by
  induction h with
  | arrived dir => cases hs
  | here _ ih => exact ih ((List.mem_cons.mp hs).resolve_left fun heq => by cases heq)
  | up _ ih => exact ih ((List.mem_cons.mp hs).resolve_left fun heq => by cases heq)
  | enter short _ _ ih =>
    rcases List.mem_cons.mp hs with heq | hrest
    · cases heq
      exact short
    · exact ih hrest
  | file short _ =>
    cases List.mem_singleton.mp hs
    exact short
  | link short _ _ =>
    cases List.mem_singleton.mp hs
    exact short
  | follow short _ _ _ ih =>
    rcases List.mem_cons.mp hs with heq | hrest
    · cases heq
      exact short
    · exact ih (List.mem_append_right _ hrest)

/-- Where no link is followed, names lead straight down. -/
theorem straight {names : List String} (h : t.Leads followLast dir (names.map .name) loc)
    (hlinks : ∀ q r, names = q ++ r → q ≠ [] → r ≠ [] ∨ followLast = true →
      ∀ target, t.content? (dir ++ q) ≠ some (.link target)) : loc = dir ++ names := by
  induction names generalizing dir with
  | nil =>
    cases h
    rw [List.append_nil]
  | cons s names ih =>
    have hnext : ∀ q r, names = q ++ r → q ≠ [] → r ≠ [] ∨ followLast = true →
        ∀ target, t.content? ((dir ++ [s]) ++ q) ≠ some (.link target) := by
      intro q r hqr hq hr target
      rw [List.append_assoc]
      exact hlinks (s :: q) r (by rw [hqr]; rfl) (List.cons_ne_nil s q) hr target
    -- The steps are named, or the cases on them could not be taken.
    generalize hsteps : names.map Step.name = steps at h ih
    rw [List.map_cons, hsteps] at h
    cases h with
    | enter _ _ next =>
      subst hsteps
      rw [ih next hnext, List.append_assoc]
      rfl
    | file _ _ => rw [List.map_eq_nil_iff.mp hsteps]
    | link _ _ _ => rw [List.map_eq_nil_iff.mp hsteps]
    | @follow _ _ _ target _ _ content go _ =>
      have hgo : names ≠ [] ∨ followLast = true := go.imp_left fun hne hnil => hne (by
        rw [← hsteps, hnil]
        rfl)
      exact absurd content (hlinks [s] names rfl (by simp) hgo target)

end Leads

end TableSnapshots.Tree
