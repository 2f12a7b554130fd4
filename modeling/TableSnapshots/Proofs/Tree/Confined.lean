import TableSnapshots.Proofs.Path.Slashes
import TableSnapshots.Proofs.Tree.Leads
import TableSnapshots.Proofs.Tree.Remove

/-!
# Where changes stay

Removing a path takes away entries at and below the one location that the path leads to, and nothing
else (`prunedAlong_removeAll`), whatever links there are: the directory that is removed after it
was emptied is the same one, although it is looked for once more and without the slashes at the end
of the path.

That location is below another one that a path leads to, its `root`, if the rest of the path meets
no link (`LeadsTo.eq_append`). A guard does not look at links, so this is all that it ensures.
-/

namespace TableSnapshots

namespace Tree

variable {t : Tree} {p : Path}

/-! ## Removing -/

/-- A tree is what is left of another one after removals of some paths: its entries are those that
were kept, in their order, and every other one was where one of the paths leads or below. -/
def PrunedAlong (t : Tree) (ps : List Path) (t' : Tree) : Prop :=
  ∃ keep : Location → Bool, t' = ⟨t.entries.filter fun e => keep e.1⟩ ∧
    ∀ l, keep l = false → ∃ p ∈ ps, ∃ loc, t.LeadsTo false p loc ∧ atOrBelow loc l = true

/-- The same of one path, said of what there is at each location. -/
def RemovedAlong (t : Tree) (p : Path) (t' : Tree) : Prop :=
  ∀ l, t'.node? l = t.node? l ∨
    t'.node? l = none ∧ ∃ loc, t.LeadsTo false p loc ∧ atOrBelow loc l = true

namespace PrunedAlong

variable {ps : List Path}

/-- Nothing was removed from what is as it was. -/
theorem refl (t : Tree) (ps : List Path) : t.PrunedAlong ps t :=
  ⟨fun _ => true, by simp, nofun⟩

/-- What is there was there before the removals. -/
theorem node? {t' : Tree} (h : t.PrunedAlong ps t') (l : Location) :
    t'.node? l = t.node? l ∨ t'.node? l = none ∧
      ∃ p ∈ ps, ∃ loc, t.LeadsTo false p loc ∧ atOrBelow loc l = true := by
  obtain ⟨keep, rfl, hkeep⟩ := h
  by_cases hl : l = []
  · subst hl
    exact .inl rfl
  · rw [node?_filter t keep hl]
    cases hk : keep l with
    | true => exact .inl rfl
    | false => exact .inr ⟨rfl, hkeep l hk⟩

/-- Removals after others are removals of the same paths. -/
theorem trans {t₁ t₂ t₃ : Tree} (h : t₁.PrunedAlong ps t₂) (h' : t₂.PrunedAlong ps t₃) :
    t₁.PrunedAlong ps t₃ := by
  -- Where a path leads after the first removals it led before them.
  have hsub : ∀ l, t₂.node? l = none ∨ t₂.node? l = t₁.node? l :=
    fun l => (h.node? l).symm.imp_left And.left
  obtain ⟨keep, rfl, hkeep⟩ := h
  obtain ⟨keep', rfl, hkeep'⟩ := h'
  refine ⟨fun l => keep' l && keep l, by rw [List.filter_filter], fun l hl => ?_⟩
  rcases Bool.and_eq_false_iff.mp hl with hl | hl
  · obtain ⟨p, hp, loc, hleads, hloc⟩ := hkeep' l hl
    exact ⟨p, hp, loc, hleads.mono hsub, hloc⟩
  · exact hkeep l hl

/-- Removals of one path leave what there is elsewhere. -/
theorem removedAlong {t' : Tree} (h : t.PrunedAlong [p] t') : t.RemovedAlong p t' := by
  intro l
  refine (h.node? l).imp_right fun ⟨hnone, p', hp', hloc⟩ => ⟨hnone, ?_⟩
  rwa [List.mem_singleton.mp hp'] at hloc

end PrunedAlong

section Pruning

variable {ps : List Path} (hp : p ∈ ps) {loc : Location} (hloc : t.LeadsTo false p loc)
include hp hloc

/-- A tree without what is at a location and below. -/
theorem prunedAlong_without : t.PrunedAlong ps (t.without loc) :=
  ⟨fun l => !atOrBelow loc l, rfl, fun l hl => ⟨p, hp, loc, hloc, by simpa using hl⟩⟩

/-- A tree without what is below a location. -/
theorem prunedAlong_emptied : t.PrunedAlong ps (t.emptied loc) := by
  refine ⟨fun l => !below loc l, rfl, fun l hl => ⟨p, hp, loc, hloc, ?_⟩⟩
  rw [Bool.not_eq_false', below, Bool.and_eq_true] at hl
  exact hl.1

end Pruning

/-- The directory that is removed is the one that the path leads to. -/
theorem exists_of_removeDirectory {t' : Tree} (h : t.removeDirectory p = .ok t') :
    ∃ loc, t.LeadsTo false p loc ∧ t' = t.without loc := by
  unfold removeDirectory at h
  split at h
  · cases h
  · cases hresolve : t.resolve true (directoryPath p) <;> rw [hresolve] at h <;> cases h
  · cases hresolve : t.resolve true (directoryPath p) <;> rw [hresolve] at h <;> cases h
  · next piece _ _ hpiece =>
    cases hresolve : t.resolve false (withoutLastSlashes p) with
    | error fault =>
      rw [hresolve] at h
      cases h
    | ok loc =>
      rw [hresolve] at h
      dsimp only [bind, Except.bind] at h
      have hleads := leadsTo_of_resolve hresolve
      cases hcontent : t.content? loc with
      | none =>
        rw [hcontent] at h
        cases h
      | some content =>
        rw [hcontent] at h
        cases content with
        | directory =>
          dsimp only at h
          split at h
          · cases h
            refine ⟨loc, ?_, rfl⟩
            -- The slashes at the end ask to stay in the directory, which changes nothing.
            unfold LeadsTo
            rcases Step.ofText_withoutLastSlashes hpiece with hsteps | hsteps
            · rw [hsteps]
              exact hleads
            · rw [hsteps]
              exact hleads.stay hcontent
          · cases h
        | file bytes => cases h
        | link target => cases h

/-- Removing a path takes away nothing that is not where the path leads or below. -/
theorem prunedAlong_removeAll (t : Tree) {ps : List Path} (hp : p ∈ ps) :
    t.PrunedAlong ps (t.removeAll p).2 := by
  unfold removeAll
  cases hresolve : t.resolve false p with
  | error fault => exact .refl t ps
  | ok loc =>
    have hloc := leadsTo_of_resolve hresolve
    dsimp only
    cases hcontent : t.content? loc with
    | none => exact .refl t ps
    | some content =>
      cases content with
      | link target => exact prunedAlong_without hp hloc
      | file bytes => exact .refl t ps
      | directory =>
        dsimp only
        have hemptied := prunedAlong_emptied hp hloc
        cases hremove : (t.emptied loc).removeDirectory p with
        | error fault => exact hemptied
        | ok rest =>
          obtain ⟨loc', hloc', rfl⟩ := exists_of_removeDirectory hremove
          exact hemptied.trans (prunedAlong_without hp hloc')

/-! ## Below another path -/

/-- A path that never leads up leads where its names lead, if a link at the end is followed whenever
the path does not end in a name. -/
theorem LeadsTo.names {followLast : Bool} {loc : Location} (hp : p.text ≠ "")
    (hup : .up ∉ p.components) (h : t.LeadsTo followLast p loc) :
    t.Leads (followLast || !decide p.EndsInName) [] (p.names.map .name) loc := by
  have hfilter : t.Leads (followLast || decide ((Step.ofText p.text).getLast? = some .here)) []
      ((Step.ofText p.text).filter (· ≠ .here)) loc := Leads.filter_here [] h
  rw [Step.filter_ofText hup] at hfilter
  have hend : decide ((Step.ofText p.text).getLast? = some .here) = !decide p.EndsInName := by
    by_cases hname : p.EndsInName
    · obtain ⟨s, hs⟩ := hname.getLast?_ofText hp hup
      simp [hs, hname]
    · simp [Path.getLast?_ofText_of_not_endsInName hp hname, hname]
  rwa [hend] at hfilter

/-- A path that ends in a name and never leads up leads where its names lead. -/
theorem LeadsTo.of_names {followLast : Bool} {loc : Location} (hp : p.Direct)
    (h : t.Leads followLast [] (p.names.map .name) loc) : t.LeadsTo followLast p loc := by
  obtain ⟨s, hs⟩ := hp.toEndsInName.getLast?_ofText hp.text hp.up
  have hlast : (Step.ofText p.text).getLast? ≠ some .here := by
    rw [hs]
    simp
  rw [← Step.filter_ofText hp.up] at h
  exact Leads.of_filter_here [] hlast h

/-- Names from a directory on meet no link. One at their end counts only if it is followed. -/
def Unlinked (t : Tree) (followLast : Bool) (base : Location) (names : List String) : Prop :=
  ∀ q r, names = q ++ r → q ≠ [] → r ≠ [] ∨ followLast = true →
    ∀ target, t.content? (base ++ q) ≠ some (.link target)

/-- A path whose names go on after those of `root` leads straight down from where `root` leads, if
it meets no link after these names, but for one at its end that is not followed. A path with the
same names leads to the same place, unless that place is a link. -/
theorem LeadsTo.eq_append {followLast : Bool} {root : Path} {base loc : Location}
    {rest : List String} (hroot : root.text ≠ "") (hp : p.text ≠ "") (hup : .up ∉ p.components)
    (hnames : p.components = root.components ++ rest.map .name)
    (hbase : t.LeadsTo true root base) (h : t.LeadsTo followLast p loc)
    (hlinks : t.Unlinked (followLast || !decide p.EndsInName) base rest)
    (hself : rest = [] → (followLast || !decide p.EndsInName) = true ∨
      ∀ target, t.content? loc ≠ some (.link target)) :
    loc = base ++ rest := by
  have hrootUp : .up ∉ root.components := fun hmem => hup (by rw [hnames]; simp [hmem])
  have hsplit : p.names = root.names ++ rest := Path.names_of_components hnames
  have hbase' := hbase.names hroot hrootUp
  have hleads := h.names hp hup
  rw [Bool.true_or] at hbase'
  rw [hsplit] at hleads
  -- The way goes through where `root` leads, and straight down from there.
  by_cases hrest : rest = []
  · subst hrest
    rw [List.append_nil] at hleads ⊢
    rcases hself rfl with hfollow | hlink
    · rw [hfollow] at hleads
      exact hleads.unique hbase'
    · exact (hleads.of_not_link hlink fun _ => rfl).unique hbase'
  · rw [List.map_append] at hleads
    obtain ⟨mid, hfirst, hlast⟩ := hleads.split (by simpa using hrest)
    obtain rfl : mid = base := hfirst.unique hbase'
    exact hlast.straight hlinks

/-! ## Paths that are taken in every tree -/

/-- The operating system takes a path whatever the tree: its text can be one, and every name can be
one of a directory. -/
structure Admissible (p : Path) : Prop where
  /-- There is no zero character in the text. -/
  zero : '\x00' ∉ p.text.toList
  /-- The text is short enough. -/
  length : p.text.utf8ByteSize < pathLimit
  /-- The names are short enough. -/
  short : ∀ s ∈ p.names, s.utf8ByteSize ≤ nameLimit

instance (p : Path) : Decidable (Admissible p) :=
  decidable_of_iff ('\x00' ∉ p.text.toList ∧ p.text.utf8ByteSize < pathLimit ∧
      ∀ s ∈ p.names, s.utf8ByteSize ≤ nameLimit)
    ⟨fun h => ⟨h.1, h.2.1, h.2.2⟩, fun h => ⟨h.zero, h.length, h.short⟩⟩

/-- Such a path is taken. -/
theorem Admissible.takes (h : Admissible p) (t : Tree) : t.Takes p :=
  ⟨h.zero, h.length, fits_of_short h.short⟩

/-- The directory of an entry is such a path if the entry is. -/
theorem Admissible.of_entry {s : String} (h : Admissible (p.entry s)) (hs : Path.IsName s)
    (hp : p.text ≠ "") : Admissible p := by
  obtain ⟨more, hmore⟩ : ∃ more, (p.entry s).text = p.text ++ more :=
    Path.exists_join_text hs.not_isAbsolute hp
  refine ⟨fun hzero => h.zero ?_, Nat.lt_of_le_of_lt ?_ h.length, fun s' hs' => h.short s' ?_⟩
  · rw [hmore, String.toList_append]
    exact List.mem_append_left _ hzero
  · rw [hmore, String.utf8ByteSize_append]
    exact Nat.le_add_right _ _
  · rw [Path.names_entry hs hp]
    exact List.mem_append_left _ hs'

/-- A path that was found once is such a path. -/
theorem admissible_of_resolve {followLast : Bool} {loc : Location}
    (h : t.resolve followLast p = .ok loc) : Admissible p := by
  have hleads := leadsTo_of_resolve h
  have hshort : ∀ s ∈ p.names, s.utf8ByteSize ≤ nameLimit := by
    intro s hs
    rw [← Step.filterMap_name?_ofText, List.mem_filterMap] at hs
    obtain ⟨step, hstep, hname⟩ := hs
    obtain rfl : step = .name s := by
      cases step with
      | name s' => exact congrArg Step.name (Option.some.inj hname)
      | _ => cases hname
    exact hleads.short hstep
  unfold resolve at h
  cases htext : checkText p.text with
  | error fault =>
    rw [htext] at h
    cases h
  | ok _ =>
    unfold checkText at htext
    split at htext
    · cases htext
    · next hzero =>
      split at htext
      · cases htext
      · split at htext
        · cases htext
        · next hlength => exact ⟨by simpa using hzero, Nat.not_le.mp hlength, hshort⟩

end Tree

end TableSnapshots
