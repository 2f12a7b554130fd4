import TableSnapshots.Proofs.Part.Apart
import TableSnapshots.Proofs.Tree.Fewer

/-!
# Removing paths in any order

What is left when several paths have been removed one after the other: the tree without what is at
or below one of them (`Tree.cleared`), in whatever order they come and however often
(`removeEach_eq_cleared`). An earlier removal may have taken away a later path, or what lies on its
way, so a removal finds its directory or nothing (`removeAll_of_within`). This takes a directory
`root` without links in it, which all paths lie in, and that removals do not cut the way of another
path before they reach its end (`Tree.Unbroken`).
-/

namespace TableSnapshots.Tree

variable {t t' : Tree} {root p : Path}

/-! ## Paths to be removed -/

/-- There is no link at the end of `root`, nor where it leads or below. -/
structure Solid (t : Tree) (root : Path) : Prop where
  /-- It does not end in a link. -/
  self : ∀ loc, t.LeadsTo false root loc → ∀ target, t.content? loc ≠ some (.link target)
  /-- There is none in it. -/
  below : t.LinkFree root

/-- This can be seen from the entries, if `root` is found. -/
theorem solid_of_resolve (base : Location) (hself : t.resolve false root = .ok base)
    (hfollowed : t.resolve true root = .ok base)
    (hentries : ∀ e ∈ t.entries, atOrBelow base e.1 = true → e.2.content.kind ≠ .other) :
    t.Solid root where
  self := by
    intro loc hloc
    obtain rfl := (leadsTo_of_resolve hself).unique hloc
    exact linkFree_of_resolve hfollowed hentries base (leadsTo_of_resolve hfollowed) base
      (List.isPrefixOf_iff_prefix.mpr (List.prefix_refl base))
  below := linkFree_of_resolve hfollowed hentries

/-- So no path that ends in a name leads to a link there. -/
theorem Solid.not_link (h : t.Solid root) (hroot : root.Direct) (hp : p.Direct)
    {rest : List String} (hcomponents : p.components = root.components ++ rest.map .name)
    {loc : Location} (hloc : t.LeadsTo false p loc) (target : String) :
    t.content? loc ≠ some (.link target) := by
  have hleads := hloc.names hp.text hp.up
  rw [Bool.false_or, decide_eq_true hp.toEndsInName, Bool.not_true,
    Path.names_of_components hcomponents] at hleads
  by_cases hrest : rest = []
  · rw [hrest, List.append_nil] at hleads
    exact h.self loc (LeadsTo.of_names hroot hleads) target
  · -- The way goes through where `root` leads, and straight down from there.
    rw [List.map_append] at hleads
    obtain ⟨base, hfirst, hlast⟩ := hleads.split (by simpa using hrest)
    have hbase : t.LeadsTo true root base := LeadsTo.of_names hroot hfirst
    have hdown : loc = base ++ rest := hlast.straight fun q r hqr hq hr =>
      h.below.unlinked hbase rest q r hqr hq (.inr rfl)
    refine h.below base hbase loc ?_ target
    rw [hdown]
    exact List.isPrefixOf_iff_prefix.mpr (List.prefix_append base rest)

/-- A path that may be removed with others in `root`. It is not refused, it does not end in a `.`,
and it leads to a directory, or nowhere without a file in its way. -/
structure Listed (t : Tree) (root p : Path) : Prop where
  /-- The guard of `root` accepts it. -/
  accepted : (PathGuard.mk root).accepts p = true
  /-- Its last piece names something. -/
  dot : lastPiece? p ≠ some ['.']
  /-- There is a directory to remove, or nothing. -/
  removable : (∃ loc, t.resolve false p = .ok loc ∧ t.content? loc = some .directory) ∨ t.Vacant p

/-- A directory that is found is one. -/
theorem listed_of_resolve (loc : Location) (haccepted : (PathGuard.mk root).accepts p = true)
    (hdot : lastPiece? p ≠ some ['.']) (h : t.resolve false p = .ok loc)
    (hdirectory : t.content? loc = some .directory) : t.Listed root p ∧ t.Followed p := by
  refine ⟨⟨haccepted, hdot, .inl ⟨loc, h, hdirectory⟩⟩, fun fault _ hfault => ?_⟩
  rw [h] at hfault
  cases hfault

/-- So is what is missing, without a file in its way. -/
theorem listed_of_missing (haccepted : (PathGuard.mk root).accepts p = true)
    (hdot : lastPiece? p ≠ some ['.']) (h : t.resolve false p = .error .missing)
    (hway : ¬ t.MeetsFile (t.looks false p)) : t.Listed root p ∧ t.Followed p := by
  refine ⟨⟨haccepted, hdot, .inr ⟨fun loc hloc => ?_, hway⟩⟩, fun fault hmem hfault => ?_⟩
  · rw [h] at hloc
    cases hloc
  · rw [h] at hfault
    cases hfault
    exact absurd hmem (by decide)

namespace Listed

variable (h : t.Listed root p) (hroot : root.Direct)
include h hroot

/-- It has a last piece, which is a name. -/
theorem exists_piece :
    ∃ piece, lastPiece? p = some piece ∧ piece ≠ ['.'] ∧ piece ≠ ['.', '.'] := by
  obtain ⟨rest, hcomponents⟩ := Path.exists_names_of_accepts hroot.text h.accepted
  obtain ⟨piece, hpiece⟩ : ∃ piece, lastPiece? p = some piece := by
    refine exists_lastPiece? fun hnil => hroot.names_ne_nil ?_
    rw [Path.names_of_components hcomponents] at hnil
    exact (List.append_eq_nil_iff.mp hnil).1
  refine ⟨piece, hpiece, fun hdot => h.dot (by rw [hpiece, hdot]), ?_⟩
  rintro rfl
  exact (PathGuard.accepts_iff.mp h.accepted).2
    (Path.up_mem_components (mem_of_lastPiece? hpiece).1)

/-- Without the slashes at its end it does not lead to a link. -/
theorem not_link (hsolid : t.Solid root) {loc : Location}
    (hloc : t.LeadsTo false (withoutLastSlashes p) loc) (target : String) :
    t.content? loc ≠ some (.link target) := by
  obtain ⟨piece, hpiece, hdot, -⟩ := h.exists_piece hroot
  obtain ⟨rest, hrest⟩ := Path.exists_names_of_accepts hroot.text h.accepted
  have hcomponents := components_withoutLastSlashes hpiece
  have hdirect : (withoutLastSlashes p).Direct := by
    refine ⟨endsInName_withoutLastSlashes hpiece hdot,
      withoutLastSlashes_text_ne_empty hpiece, ?_⟩
    rw [hcomponents]
    exact (PathGuard.accepts_iff.mp h.accepted).2
  exact hsolid.not_link hroot hdirect (hcomponents.trans hrest) hloc target

/-- If it is still found where entries were taken away, its removal empties the directory and then
finds that once more, or something is missing by then. -/
theorem removeAll_of_left (hsolid : t.Solid root) (hwithin : t'.Within t) {loc : Location}
    (hloc : t.resolve false p = .ok loc) (hleft : t'.resolve false p = .ok loc)
    (hcontent : t'.content? loc = some .directory) :
    (t'.removeAll p).1 = .ok () ∨ (t'.removeAll p).1 = .error .missing := by
  obtain ⟨piece, hpiece, hdot, hdots⟩ := h.exists_piece hroot
  have hemptied : (t'.emptied loc).Within t := (within_emptied t' loc).trans hwithin
  -- The emptied directory is looked for without the slashes, which would have followed a link.
  have hend := resolve_withoutLastSlashes hpiece
    (fun l hl target => h.not_link hroot hsolid hl target) hloc
  rcases resolve_of_within hemptied (withoutLastSlashes p) with hagain | hmissing
  · rw [removeAll_of_found hpiece hdot hdots hleft hcontent (hagain.trans hend)]
    exact .inl rfl
  · have hstuck := removeDirectory_of_error hpiece hdot hdots hmissing
    rw [removeAll_of_stuck hleft hcontent hstuck]
    exact .inr rfl

/-- Where entries were taken away its removal succeeds, or there is nothing to remove. -/
theorem removeAll_of_within (hsolid : t.Solid root) (hfollowed : t.Followed p)
    (hwithin : t'.Within t) :
    (t'.removeAll p).1 = .ok () ∨ (t'.removeAll p).1 = .error .missing := by
  -- The path leads to the same place as before, or something on its way was taken away.
  rcases resolve_of_within hwithin p with hsame | hmissing
  · rcases h.removable with ⟨loc, hloc, hdirectory⟩ | hvacant
    · have hleft := hsame.trans hloc
      rcases hwithin.content? loc with hnone | hcontent
      · rw [removeAll_of_nothing hleft hnone]
        exact .inr rfl
      · exact h.removeAll_of_left hroot hsolid hwithin hloc hleft (hcontent.trans hdirectory)
    · rw [removeAll_of_error (hsame.trans (hvacant.resolve hfollowed))]
      exact .inr rfl
  · rw [removeAll_of_error hmissing]
    exact .inr rfl

end Listed

/-! ## What is left -/

/-- Whether a location is at or below where one of some paths leads. -/
def covered (t : Tree) (ps : List Path) (l : Location) : Bool :=
  ps.any fun p =>
    match t.resolve false p with
    | .ok loc => atOrBelow loc l
    | .error _ => false

/-- The tree without the entries at or below some paths. -/
def cleared (t : Tree) (ps : List Path) : Tree :=
  ⟨t.entries.filter fun e => !t.covered ps e.1⟩

/-- On the way to a path that is found, links followed, nothing that is looked up is at or below one
of the paths, but for what lies straight above the end of the way and that end. -/
def Unbroken (t : Tree) (ps : List Path) : Prop :=
  ∀ p ∈ ps, ∀ l ∈ t.looks false p, t.covered ps l = true →
    ∀ loc, t.resolve false p = .ok loc → atOrBelow l loc = true

instance (t : Tree) (p : Path) (l : Location) :
    Decidable (∀ loc, t.resolve false p = .ok loc → atOrBelow l loc = true) :=
  match t.resolve false p with
  | .ok loc => decidable_of_iff (atOrBelow l loc = true) (by simp)
  | .error _ => isTrue nofun

instance (t : Tree) (ps : List Path) : Decidable (t.Unbroken ps) :=
  inferInstanceAs (Decidable (∀ p ∈ ps, ∀ l ∈ t.looks false p, t.covered ps l = true →
    ∀ loc, t.resolve false p = .ok loc → atOrBelow l loc = true))

/-- Ways on which no link is are not broken. -/
theorem unbroken_of_unlinked {ps : List Path} (hroot : root.text ≠ "")
    (haccepted : ∀ p ∈ ps, (PathGuard.mk root).accepts p = true)
    (hlinks : ∀ p ∈ ps, t.Unlinked true [] p.names) : t.Unbroken ps := by
  intro p hp l hl _ loc hloc
  have htext : p.text ≠ "" := PathGuard.text_ne_empty_of_accepts hroot (haccepted p hp)
  have hup : .up ∉ p.components := (PathGuard.accepts_iff.mp (haccepted p hp)).2
  rw [eq_names_of_resolve htext hup (hlinks p hp) hloc]
  exact List.isPrefixOf_iff_prefix.mpr (prefix_of_mem_looks hup (hlinks p hp) hl)

section Covered

variable {ps done : List Path} {l loc : Location}

/-- A covered location is at or below where a path leads. -/
theorem covered_iff :
    t.covered ps l = true ↔ ∃ p ∈ ps, ∃ loc, t.resolve false p = .ok loc ∧ atOrBelow loc l = true := by
  unfold covered
  rw [List.any_eq_true]
  refine exists_congr fun p => and_congr_right fun _ => ?_
  cases t.resolve false p with
  | ok loc => simp
  | error fault => simp

/-- What is below a covered location is covered. -/
theorem covered_of_atOrBelow (h : t.covered ps loc = true) (hl : atOrBelow loc l = true) :
    t.covered ps l = true := by
  obtain ⟨p, hp, loc', hloc', hin⟩ := covered_iff.mp h
  refine covered_iff.mpr ⟨p, hp, loc', hloc', ?_⟩
  unfold atOrBelow at *
  rw [List.isPrefixOf_iff_prefix] at *
  exact hin.trans hl

/-- More paths cover more. -/
theorem covered_mono (hle : ∀ p ∈ done, p ∈ ps) (h : t.covered done l = true) :
    t.covered ps l = true := by
  obtain ⟨p, hp, hloc⟩ := covered_iff.mp h
  exact covered_iff.mpr ⟨p, hle p hp, hloc⟩

/-- The same paths in another order and number leave the same tree. -/
theorem cleared_congr {qs : List Path} (h : ∀ p, p ∈ ps ↔ p ∈ qs) : t.cleared ps = t.cleared qs := by
  have hsame : t.covered ps = t.covered qs := by
    funext l
    rw [Bool.eq_iff_iff]
    exact ⟨covered_mono fun p hp => (h p).mp hp, covered_mono fun p hp => (h p).mpr hp⟩
  unfold cleared
  rw [hsame]

/-- What is left without some paths is within the tree. -/
theorem within_cleared (t : Tree) (ps : List Path) : (t.cleared ps).Within t :=
  within_filter t fun l => !t.covered ps l

/-- Where nothing is covered there is what was there. -/
theorem content?_cleared (h : t.covered ps l = false) :
    (t.cleared ps).content? l = t.content? l := by
  have hkeep : (!t.covered ps l) = true := by
    rw [h]
    rfl
  exact @content?_of_keep t (fun l => !t.covered ps l) l hkeep

/-- Nothing is left to be covered by a path that leads nowhere. -/
theorem cleared_cons_of_error {fault : Fault} (h : t.resolve false p = .error fault) :
    t.cleared (p :: done) = t.cleared done := by
  unfold cleared covered
  simp only [List.any_cons, h, Bool.false_or]

/-- One path more takes away what is where it leads and below. -/
theorem cleared_cons_of_ok (h : t.resolve false p = .ok loc) :
    t.cleared (p :: done) = (t.cleared done).without loc := by
  unfold cleared without
  rw [List.filter_filter]
  refine congrArg Tree.mk (List.filter_congr fun e _ => ?_)
  unfold covered
  rw [List.any_cons, h, Bool.not_or]

/-- An entry that is left is not covered. -/
theorem not_covered_of_mem {e : Location × Node} (h : e ∈ (t.cleared done).entries) :
    t.covered done e.1 = false := by
  simpa using (List.mem_filter.mp h).2

/-! ## One removal after others -/

/-- A path that leads to what was taken away before is removed to no effect. -/
theorem removeAll_of_covered (h : t.resolve false p = .ok loc)
    (hloc : t.covered done loc = true) :
    ((t.cleared done).removeAll p).2 = t.cleared (p :: done) := by
  -- Whatever the removal takes away is at or below the location, and nothing is left there.
  have hnone : ∀ e ∈ (t.cleared done).entries, atOrBelow loc e.1 = false := by
    intro e he
    rw [Bool.eq_false_iff]
    intro hin
    have hcovered := covered_of_atOrBelow hloc hin
    rw [not_covered_of_mem he] at hcovered
    cases hcovered
  have hwithout : (t.cleared done).without loc = t.cleared done :=
    congrArg Tree.mk (List.filter_eq_self.mpr fun e he => by rw [hnone e he]; rfl)
  obtain ⟨keep, htree, hkeep⟩ := prunedAlong_removeAll (t.cleared done) (List.mem_singleton_self p)
  rw [htree, cleared_cons_of_ok h, hwithout]
  refine congrArg Tree.mk (List.filter_eq_self.mpr fun e he => ?_)
  by_contra hgone
  obtain ⟨p', hp', loc', hleads, hin⟩ := hkeep e.1 (by simpa using hgone)
  rw [List.mem_singleton.mp hp'] at hleads
  obtain rfl := (leadsTo_of_resolve h).unique (hleads.mono (within_cleared t done))
  rw [hnone e he] at hin
  cases hin

namespace Unbroken

variable (hway : t.Unbroken ps) (hmem : p ∈ ps) (h : t.resolve false p = .ok loc)
include hway hmem h

/-- Nothing that is looked up on the way to a path is below its end. -/
theorem not_below (hl : l ∈ t.looks false p) : below loc l = false := by
  unfold below
  rw [Bool.and_eq_false_iff]
  by_contra hin
  rw [not_or, Bool.not_eq_false, Bool.not_eq_false, decide_eq_true_eq] at hin
  obtain ⟨hin, hne⟩ := hin
  have habove := hway p hmem l hl (covered_iff.mpr ⟨p, hmem, loc, h, hin⟩) loc h
  unfold atOrBelow at hin habove
  rw [List.isPrefixOf_iff_prefix] at hin habove
  exact hne (hin.eq_of_length_le habove.length_le)

/-- It is all left if the end of the way is: what is covered on the way is above that. -/
theorem content?_left (hdone : ∀ q ∈ done, q ∈ ps) (hloc : t.covered done loc = false)
    (hl : l ∈ t.looks false p) : (t.cleared done).content? l = t.content? l := by
  refine content?_cleared (Bool.eq_false_iff.mpr fun hcovered => ?_)
  have habove := hway p hmem l hl (covered_mono hdone hcovered) loc h
  rw [covered_of_atOrBelow hcovered habove] at hloc
  cases hloc

end Unbroken

/-- A path that leads to a directory that is left is removed with what is below it. -/
theorem Listed.removeAll_of_not_covered (hp : t.Listed root p) (hroot : root.Direct)
    (hsolid : t.Solid root) (hmem : p ∈ ps) (hway : t.Unbroken ps)
    (hdone : ∀ q ∈ done, q ∈ ps) (h : t.resolve false p = .ok loc)
    (hdirectory : t.content? loc = some .directory) (hloc : t.covered done loc = false) :
    (t.cleared done).removeAll p = (.ok (), (t.cleared done).without loc) := by
  obtain ⟨piece, hpiece, hdot, hdots⟩ := hp.exists_piece hroot
  have hleft : ∀ l ∈ t.looks false p, (t.cleared done).content? l = t.content? l :=
    fun l hl => hway.content?_left hmem h hdone hloc hl
  have hemptied : ∀ l ∈ t.looks false p,
      ((t.cleared done).emptied loc).content? l = t.content? l := by
    intro l hl
    rw [content?, node?_emptied (hway.not_below hmem h hl)]
    exact hleft l hl
  have hwithin : ((t.cleared done).emptied loc).Within t :=
    (within_emptied (t.cleared done) loc).trans (within_cleared t done)
  refine removeAll_of_found hpiece hdot hdots ((resolve_congr hleft).trans h)
    ((content?_cleared hloc).trans hdirectory) ?_
  refine resolve_withoutLastSlashes hpiece (fun l hl target hlink => ?_)
    ((resolve_congr hemptied).trans h)
  rcases hwithin.content? l with hnone | hsame
  · rw [hnone] at hlink
    cases hlink
  · exact hp.not_link hroot hsolid (hl.mono hwithin) target (hsame ▸ hlink)

/-- So a removal after others leaves the tree without all of them. -/
theorem Listed.removeAll_cleared (hp : t.Listed root p) (hroot : root.Direct)
    (hsolid : t.Solid root) (hfollowed : t.Followed p) (hmem : p ∈ ps) (hway : t.Unbroken ps)
    (hdone : ∀ q ∈ done, q ∈ ps) : ((t.cleared done).removeAll p).2 = t.cleared (p :: done) := by
  rcases hp.removable with ⟨loc, hloc, hdirectory⟩ | hvacant
  · cases hcovered : t.covered done loc with
    | true => exact removeAll_of_covered hloc hcovered
    | false =>
      rw [hp.removeAll_of_not_covered hroot hsolid hmem hway hdone hloc hdirectory hcovered,
        cleared_cons_of_ok hloc]
  · have hmissing := hvacant.resolve hfollowed
    have hstill : (t.cleared done).resolve false p = .error .missing := by
      rcases resolve_of_within (within_cleared t done) p with hsame | hmissing'
      · exact hsame.trans hmissing
      · exact hmissing'
    rw [cleared_cons_of_error hmissing, removeAll_of_error hstill]

end Covered

/-! ## Any removals -/

/-- The tree after removals of some paths, one after the other, whether they succeed or not. -/
def removeEach (t : Tree) (ps : List Path) : Tree :=
  ps.foldl (fun t p => (t.removeAll p).2) t

/-- Removals of the same paths leave the tree without these, in any order and number. -/
theorem removeEach_eq_cleared {ps removals : List Path} (hroot : ∀ p ∈ ps, root.Direct)
    (hsolid : t.Solid root) (hps : ∀ p ∈ ps, t.Listed root p ∧ t.Followed p)
    (hway : t.Unbroken ps) (hsame : ∀ p, p ∈ removals ↔ p ∈ ps) :
    t.removeEach removals = t.cleared ps := by
  have hrest : ∀ removals done : List Path, (∀ p ∈ removals, p ∈ ps) → (∀ p ∈ done, p ∈ ps) →
      (t.cleared done).removeEach removals = t.cleared (removals.reverse ++ done) := by
    -- By induction on what is still to be removed, after what is `done`.
    intro removals
    induction removals with
    | nil => exact fun done _ _ => rfl
    | cons p removals ih =>
      intro done hremovals hdone
      have hp := hremovals p List.mem_cons_self
      obtain ⟨hlisted, hfollowed⟩ := hps p hp
      have hnext := ih (p :: done) (fun q hq => hremovals q (List.mem_cons_of_mem p hq))
        (List.forall_mem_cons.mpr ⟨hp, hdone⟩)
      rw [← hlisted.removeAll_cleared (hroot p hp) hsolid hfollowed hp hway hdone] at hnext
      rw [List.reverse_cons, List.append_assoc]
      exact hnext
  have hnone : t.cleared [] = t := congrArg Tree.mk (List.filter_eq_self.mpr fun e _ => rfl)
  have hall := hrest removals [] (fun p hp => (hsame p).mp hp) nofun
  rw [hnone, List.append_nil] at hall
  rw [hall]
  exact cleared_congr fun p => by rw [List.mem_reverse, hsame]

end TableSnapshots.Tree
