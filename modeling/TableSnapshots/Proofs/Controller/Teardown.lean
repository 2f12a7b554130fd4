import TableSnapshots.Proofs.Controller.Run
import TableSnapshots.Proofs.Retry.Attempt
import TableSnapshots.Proofs.Tree.Remove

/-!
# What teardown removes

Teardown of a path that the guard of the shadow directory refuses does nothing. Of any other path it
removes what is at and below its location and nothing else, or leaves the tree as it is and says why
(`removeSnapshotPath_removes_subtree`). No attempt sends a query, whatever the path.

The paths that are told apart are those that end in a name: a slash or a `.` at the end would follow
a link. What lies above the location has to be a directory as far as there is anything, so no link
is followed on the way either.
-/

namespace TableSnapshots.Controller

open TableSnapshots.Tree (atOrBelow)

variable {σ : Type} {engine : Engine σ} {delegate : Delegate} {config : Config}
  {c : Controller (StateM (World σ))} {p : Path} {w : World σ}

/-! ## One attempt -/

/-- A removal whose directory is missing has nothing to do. -/
def settled : Except Fault Unit → Except Fault Unit
  | .ok () => .ok ()
  | .error fault => if fault.kind = .notFound then .ok () else .error fault

/-- An attempt works on the tree alone. -/
theorem run_removeOnce (hc : c.Serves (World.host engine delegate) config) (p : Path)
    (w : World σ) :
    (c.removeOnce p).run w
      = (settled (w.tree.removeAll p).1, { w with tree := (w.tree.removeAll p).2 }) := by
  have hremove : (c.host.removeAll p).run w
      = ((w.tree.removeAll p).1, { w with tree := (w.tree.removeAll p).2 }) := by
    rw [hc.host]
    rfl
  unfold removeOnce
  rw [run_bind_of_eq hremove]
  cases (w.tree.removeAll p).1 <;> rfl

/-- A wait is only noted. -/
theorem run_wait (hc : c.Serves (World.host engine delegate) config) (d : Delay) (w : World σ) :
    (c.host.wait d).run w = ((), { w with waits := w.waits ++ [d] }) := by
  rw [hc.host]
  rfl

/-- So are several. -/
theorem waited_eq (hc : c.Serves (World.host engine delegate) config) (w : World σ)
    (delays : List Delay) :
    RetryPolicy.waited c.host.wait w delays = { w with waits := w.waits ++ delays } := by
  induction delays generalizing w with
  | nil =>
    rw [List.append_nil]
    rfl
  | cons d delays ih =>
    have hnext : RetryPolicy.waited c.host.wait w (d :: delays)
        = RetryPolicy.waited c.host.wait ((c.host.wait d).run w).2 delays := rfl
    rw [hnext, run_wait hc, ih]
    simp

/-! ## All attempts -/

/-- Below the shadow directory the attempts decide. -/
theorem run_removeSnapshotPath (h : c.shadowRoot.accepts p = true) (w : World σ) :
    (c.removeSnapshotPath p).run.run w
      = (((c.retry.run (c.removeOnce p) c.host.wait).run w).1.mapError
            fun failure => .teardown p failure.attempts failure.fault,
          ((c.retry.run (c.removeOnce p) c.host.wait).run w).2) := by
  have hcheck := run_ofExcept (c.shadowRoot.check p) w
  rw [show c.shadowRoot.check p = .ok p from if_pos h] at hcheck
  have hretry := run_lift (c.retry.run (c.removeOnce p) c.host.wait) w
  unfold removeSnapshotPath
  rw [show c.shadowRoot.check p = .ok p from if_pos h, run_bind_of_ok hcheck,
    run_bind_of_ok hretry]
  cases ((c.retry.run (c.removeOnce p) c.host.wait).run w).1 <;> rfl

/-- A path that the guard refuses is left alone. -/
theorem removeSnapshotPath_of_refused (h : c.shadowRoot.accepts p = false) (w : World σ) :
    (c.removeSnapshotPath p).run.run w = (.error (.pathViolation p c.shadowRoot.root), w) := by
  have hcheck := run_ofExcept (c.shadowRoot.check p) w
  have hrefused : c.shadowRoot.check p = .error (.pathViolation p c.shadowRoot.root) :=
    if_neg (by simp [h])
  rw [hrefused] at hcheck
  unfold removeSnapshotPath
  rw [hrefused, run_bind_of_error hcheck]

/-- What no removal and no wait changes is the same after the teardown of any path. -/
theorem removeSnapshotPath_preserves (hc : c.Serves (World.host engine delegate) config)
    {β : Type} {f : World σ → β} (htree : ∀ (w : World σ) t, f { w with tree := t } = f w)
    (hwaits : ∀ (w : World σ) ds, f { w with waits := ds } = f w) (p : Path) (w : World σ) :
    f ((c.removeSnapshotPath p).run.run w).2 = f w := by
  cases h : c.shadowRoot.accepts p with
  | false => rw [removeSnapshotPath_of_refused h]
  | true =>
    rw [run_removeSnapshotPath h]
    refine RetryPolicy.run_preserves (fun w => ?_) (fun d w => ?_) w
    · rw [run_removeOnce hc]
      exact htree w _
    · rw [run_wait hc]
      exact hwaits w _

/-- A removal that succeeds is done after one attempt. -/
theorem removeSnapshotPath_of_settled (hc : c.Serves (World.host engine delegate) config)
    (h : c.shadowRoot.accepts p = true) {t : Tree}
    (hremove : (settled (w.tree.removeAll p).1, (w.tree.removeAll p).2) = (.ok (), t)) :
    (c.removeSnapshotPath p).run.run w = (.ok (), { w with tree := t }) := by
  obtain ⟨hresult, htree⟩ := Prod.mk.inj hremove
  have hattempt := run_removeOnce hc p w
  rw [hresult, htree] at hattempt
  rw [run_removeSnapshotPath h, RetryPolicy.run_of_ok hattempt]
  rfl

/-- A removal that fails and changes nothing fails in every attempt. -/
theorem removeSnapshotPath_of_fault (hc : c.Serves (World.host engine delegate) config)
    (h : c.shadowRoot.accepts p = true) {fault : Fault} (hkind : fault.kind ≠ .notFound)
    (hremove : w.tree.removeAll p = (.error fault, w.tree)) :
    (c.removeSnapshotPath p).run.run w
      = (.error (.teardown p (c.retry.attemptsOn fault) fault),
          { w with waits := w.waits ++
              (List.range (c.retry.attemptsOn fault - 1)).map c.retry.delayFor }) := by
  -- All attempts meet the same tree, since neither they nor the waits change it.
  have hattempt : ∀ w' : World σ, w'.tree = w.tree →
      (c.removeOnce p).run w' = (.error fault, w') := by
    intro w' hw'
    rw [run_removeOnce hc, hw', hremove, ← hw']
    exact congrArg (·, w') (if_neg hkind)
  have hwait : ∀ d (w' : World σ), w'.tree = w.tree →
      ((c.host.wait d).run w').2.tree = w.tree := by
    intro d w' hw'
    rw [run_wait hc]
    exact hw'
  rw [run_removeSnapshotPath h, RetryPolicy.run_of_fault hattempt hwait rfl, waited_eq hc]
  rfl

/-- How often the removal of a file is tried. -/
theorem attemptsOn_notDirectory (retry : RetryPolicy) :
    retry.attemptsOn .notDirectory
      = if .notADirectory ∈ retry.transientKinds ∨ 20 ∈ retry.transientCodes
          then max 1 retry.maxAttempts.toNat else 1 := by
  have htransient : retry.isTransient .notDirectory = true
      ↔ .notADirectory ∈ retry.transientKinds ∨ 20 ∈ retry.transientCodes := by
    unfold RetryPolicy.isTransient
    simp [Fault.notDirectory, Fault.kind, Fault.code?, FaultKind.ofCode]
  unfold RetryPolicy.attemptsOn
  simp only [htransient]
  rfl

/-! ## What is removed -/

/-- Below the shadow directory a path that ends in a name is one that removal follows by its
names. -/
theorem Serves.direct (hc : c.Serves (World.host engine delegate) config)
    (h : c.shadowRoot.accepts p = true) (hname : p.EndsInName) : p.Direct := by
  have hroot : c.shadowRoot.root.text ≠ "" := by
    rw [hc.shadowRoot]
    exact config.dataPath.entry_text_ne_empty (by decide)
  exact ⟨hname, PathGuard.text_ne_empty_of_accepts hroot h, (PathGuard.accepts_iff.mp h).2⟩

/-- Teardown of a path, and in the same way of a part and of the whole shadow directory, sends no
query. A path that the guard refuses is reported and nothing is done. Of a path that the guard
accepts and that ends in a name, where everything lies in directories:
what is missing counts as removed, as long as there are only directories on the way; a directory is
removed with what lies below it, and every other entry stays; of a link only the link is removed; a
file stays, and is reported after as many attempts as the policy has for it. A path that the
operating system does not take is reported too, and nothing is removed. -/
theorem removeSnapshotPath_removes_subtree
    (hc : c.Serves (World.host engine delegate) config) (p : Path) (w : World σ) :
    let shadow := config.dataPath.entry "shadow"
    let run := (c.removeSnapshotPath p).run.run w
    let attempts :=
      if .notADirectory ∈ c.retry.transientKinds ∨ 20 ∈ c.retry.transientCodes
        then max 1 c.retry.maxAttempts.toNat else 1
    ((∀ part, c.removeSnapshot part = c.removeSnapshotPath part.path) ∧
      c.removeAllSnapshots = c.removeSnapshotPath shadow) ∧
    (run.2.queries = w.queries ∧ run.2.engine = w.engine) ∧
    ((PathGuard.mk shadow).accepts p = false → run = (.error (.pathViolation p shadow), w)) ∧
    ((PathGuard.mk shadow).accepts p = true → p.EndsInName → w.tree.Nested →
      (w.tree.Takes p →
        (w.tree.node? p.names = none → w.tree.Passable p.names → run = (.ok (), w)) ∧
        (w.tree.content? p.names = some .directory →
          ∃ t, run = (.ok (), { w with tree := t }) ∧
            ∀ loc, t.node? loc = if atOrBelow p.names loc then none else w.tree.node? loc) ∧
        (∀ target, w.tree.content? p.names = some (.link target) →
          ∃ t, run = (.ok (), { w with tree := t }) ∧
            ∀ loc, t.node? loc = if loc = p.names then none else w.tree.node? loc) ∧
        (∀ bytes, w.tree.content? p.names = some (.file bytes) →
          run = (.error (.teardown p attempts .notDirectory),
            { w with waits := w.waits ++ (List.range (attempts - 1)).map c.retry.delayFor }))) ∧
      (¬ w.tree.Takes p → w.tree.Passable p.names →
        ∃ fault, (fault = .zeroInPath ∨ fault = .nameTooLong) ∧
          run = (.error (.teardown p (c.retry.attemptsOn fault) fault),
            { w with waits := w.waits ++
                (List.range (c.retry.attemptsOn fault - 1)).map c.retry.delayFor }))) := by
  intro shadow run attempts
  have hshadow : c.shadowRoot = ⟨shadow⟩ := congrArg PathGuard.mk hc.shadowRoot
  refine ⟨⟨fun part => rfl, congrArg c.removeSnapshotPath hc.shadowRoot⟩, ⟨?_, ?_⟩, ?_, ?_⟩
  · exact removeSnapshotPath_preserves (f := World.queries) hc (fun _ _ => rfl) (fun _ _ => rfl) p w
  · exact removeSnapshotPath_preserves (f := World.engine) hc (fun _ _ => rfl) (fun _ _ => rfl) p w
  · intro h
    rw [← hshadow] at h
    have hrun := removeSnapshotPath_of_refused h w
    rwa [hshadow] at hrun
  · intro h hname ht
    rw [← hshadow] at h
    have hp := hc.direct h hname
    have hloc := hp.names_ne_nil
    refine ⟨fun htakes => ⟨?missing, ?directory, ?link, ?file⟩, ?refused⟩
    case missing =>
      intro hnone hpass
      refine removeSnapshotPath_of_settled hc h ?_
      rw [Tree.removeAll_of_none hp htakes hpass hnone]
      rfl
    case directory =>
      intro hdirectory
      refine ⟨w.tree.without p.names, removeSnapshotPath_of_settled hc h ?_,
        Tree.node?_without hloc⟩
      rw [Tree.removeAll_of_directory ht hp htakes hdirectory]
      rfl
    case link =>
      intro target hlink
      refine ⟨w.tree.without p.names, removeSnapshotPath_of_settled hc h ?_,
        Tree.node?_without_of_not_directory ht hloc fun hdirectory => ?_⟩
      · rw [Tree.removeAll_of_link ht hp htakes hlink]
        rfl
      · rw [hdirectory] at hlink
        cases hlink
    case file =>
      intro bytes hfile
      have hrun := removeSnapshotPath_of_fault hc h (fun hkind => by cases hkind)
        (Tree.removeAll_of_file ht hp htakes hfile)
      rwa [attemptsOn_notDirectory] at hrun
    case refused =>
      intro htakes hpass
      obtain ⟨fault, hfault, hremove⟩ := Tree.removeAll_of_not_takes ht hp hpass htakes
      refine ⟨fault, hfault, removeSnapshotPath_of_fault hc h ?_ hremove⟩
      rcases hfault with rfl | rfl <;> exact fun hkind => by cases hkind

/-- A tree with live data, and with a frozen copy in which a link leads to the live data. -/
def frozenTree : Tree :=
  ⟨[(["ch"], { content := .directory }), (["ch", "data"], { content := .directory }),
    (["ch", "data", "live"], { content := .file ⟨#[1]⟩ }),
    (["ch", "shadow"], { content := .directory }),
    (["ch", "shadow", "1"], { content := .directory }),
    (["ch", "shadow", "1", "link"], { content := .link "../../data" })]⟩

/-- The frozen copy is removed with its link, and the live data stays. -/
theorem removeSnapshotPath_removes_subtree_link :
    let c : Controller (StateM (World Unit)) :=
      serving (World.host (constantEngine (.ok (.text ""))) (.noted (.ok ())))
        ⟨⟨"/ch"⟩, "u", "g", {}, {}⟩ ⟨[21, 8], "21.8"⟩
    ∃ t, (c.removeSnapshotPath ⟨"/ch//shadow/1"⟩).run.run ⟨(), frozenTree, [], [], [], [], []⟩
        = (.ok (), ⟨(), t, [], [], [], [], []⟩) ∧
      t.node? ["ch", "shadow", "1", "link"] = none ∧
      t.node? ["ch", "data", "live"] = some { content := .file ⟨#[1]⟩ } := by
  intro c
  obtain ⟨-, -, -, haccepted⟩ := removeSnapshotPath_removes_subtree
    (serving_serves (World.host (constantEngine (.ok (.text ""))) (.noted (.ok ())))
      ⟨⟨"/ch"⟩, "u", "g", {}, {}⟩ ⟨[21, 8], "21.8"⟩)
    ⟨"/ch//shadow/1"⟩ ⟨(), frozenTree, [], [], [], [], []⟩
  obtain ⟨htaken, -⟩ := haccepted (by decide +kernel) (by decide +kernel) (by decide +kernel)
  have htakes : frozenTree.Takes ⟨"/ch//shadow/1"⟩ :=
    ⟨by decide +kernel, by decide +kernel, Tree.fits_of_short (by decide +kernel)⟩
  obtain ⟨t, hrun, hnodes⟩ := (htaken htakes).2.1 (by decide +kernel)
  have hnames : (Path.mk "/ch//shadow/1").names = ["ch", "shadow", "1"] := by decide +kernel
  rw [hnames] at hnodes
  refine ⟨t, hrun, ?_, ?_⟩
  · rw [hnodes]
    rfl
  · rw [hnodes]
    rfl

/-- The name of 256 letters. -/
def longName : String := String.ofList (List.replicate 256 'a')

/-- What is missing does not always count as removed: a name that is too long for the shadow
directory is looked up in vain, and the fault is not that nothing is there. -/
theorem not_removed_of_missing :
    ¬ ∀ (engine : Engine Unit) (delegate : Delegate) (config : Config)
        (c : Controller (StateM (World Unit))), c.Serves (World.host engine delegate) config →
      ∀ (p : Path) (w : World Unit), c.shadowRoot.accepts p = true → p.EndsInName →
        w.tree.Nested → w.tree.node? p.names = none → w.tree.Passable p.names →
        (c.removeSnapshotPath p).run.run w = (.ok (), w) := by
  intro h
  have hc := serving_serves (World.host (constantEngine (.ok (.text ""))) (.noted (.ok ())))
    ⟨⟨"/"⟩, "u", "g", {}, {}⟩ ⟨[21, 8], "21.8"⟩
  let shadow : Path := ⟨"/shadow"⟩
  let w : World Unit := ⟨(), ⟨[(["shadow"], { content := .directory })]⟩, [], [], [], [], []⟩
  have hletters : longName.toList = List.replicate 256 'a' := String.toList_ofList
  have hlong : Path.IsName longName := ⟨by rw [hletters]; decide, by rw [hletters]; decide,
    by rw [hletters]; decide⟩
  have hroot : shadow.text ≠ "" := by decide
  have hname : (shadow.entry longName).EndsInName := Path.endsInName_entry hlong hroot
  have hnames : (shadow.entry longName).names = ["shadow"] ++ longName :: [] := by
    have hshadow : shadow.names = ["shadow"] := by decide +kernel
    rw [Path.names_entry hlong hroot, hshadow]
  have haccepts : (PathGuard.mk shadow).accepts (shadow.entry longName) = true := by
    rw [PathGuard.accepts_iff, Path.components_entry hlong hroot]
    exact ⟨List.prefix_append _ _, by decide⟩
  have hnone : w.tree.node? (shadow.entry longName).names = none := by
    rw [hnames]
    exact if_neg (by simp)
  have hpass : w.tree.Passable (shadow.entry longName).names := by
    rw [hnames]
    rintro q r hr hqr c hcontent
    -- Only the top and the shadow directory lie above the missing entry.
    obtain rfl | rfl : q = [] ∨ q = ["shadow"] := by
      rcases List.append_eq_cons_iff.mp hqr.symm with ⟨hq, -⟩ | ⟨q', rfl, hq'⟩
      · exact .inl hq
      · rcases List.append_eq_cons_iff.mp hq'.symm with ⟨hq, -⟩ | ⟨q'', -, hq''⟩
        · exact .inr (by rw [hq])
        · exact absurd (List.append_eq_nil_iff.mp hq''.symm).2 hr
    · cases hcontent
      rfl
    · cases hcontent
      rfl
  have htakes : ¬ w.tree.Takes (shadow.entry longName) := fun htakes =>
    absurd (htakes.fits _ _ _ hnames (by decide)) (by decide +kernel)
  obtain ⟨fault, hfault, hremove⟩ := Tree.removeAll_of_not_takes (by decide +kernel)
    (hc.direct haccepts hname) hpass htakes
  have hkind : fault.kind ≠ .notFound := by
    rcases hfault with rfl | rfl <;> exact fun hkind => by cases hkind
  have hrun := h _ _ _ _ hc _ w haccepts hname (by decide +kernel) hnone hpass
  rw [removeSnapshotPath_of_fault hc haccepts hkind hremove] at hrun
  cases hrun

end TableSnapshots.Controller
