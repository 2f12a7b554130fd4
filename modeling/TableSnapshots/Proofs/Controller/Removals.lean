import TableSnapshots.Proofs.Controller.Guards
import TableSnapshots.Proofs.Tree.Cleared

/-!
# Teardown of several paths

Paths below the shadow directory are torn down one after the other, each under a retry policy of its
own (`removePaths`). None of these teardowns fails, although one may find its directory gone with an
earlier one, and in the end what was listed is gone and everything else is left, whatever the order
(`removePaths_in_any_order`). A path that the operating system does not follow can spoil this, and
so can a link above the shadow directory that leads through what is removed
(`not_removed_in_any_order`).
-/

namespace TableSnapshots.Controller

open PathGuard (isName_shadow)

variable {σ : Type} {engine : Engine σ} {delegate : Delegate} {config : Config}
  {c : Controller (StateM (World σ))}

/-- Teardowns one after the other, each under a policy of its own, up to the first one that
fails. -/
def removePaths (c : Controller (StateM (World σ))) (removals : List (RetryPolicy × Path)) :
    Op (StateM (World σ)) Unit :=
  removals.forM fun r => (c.withRetryPolicy r.1).removeSnapshotPath r.2

/-- If anything is accepted below it, the shadow directory has a direct path. -/
theorem direct_shadow {p : Path}
    (h : (PathGuard.mk (config.dataPath.entry "shadow")).accepts p = true) :
    (config.dataPath.entry "shadow").Direct := by
  obtain ⟨hwithin, hup⟩ := PathGuard.accepts_iff.mp h
  rw [Path.components_entry_name _ isName_shadow] at hwithin
  have hdata : .up ∉ config.dataPath.components := fun hmem =>
    hup (hwithin.subset (List.mem_append_left _ hmem))
  by_cases htext : config.dataPath.text = ""
  · rw [Path.entry, Path.join_of_text_eq_empty htext]
    exact ⟨by decide +kernel, by decide, by decide +kernel⟩
  · exact Path.direct_entry isName_shadow htext hdata

/-- Where entries were taken away the teardown of a listed path is done after one attempt. -/
theorem removeSnapshotPath_of_listed (hc : c.Serves (World.host engine delegate) config)
    {t : Tree} {p : Path} (hp : t.Listed (config.dataPath.entry "shadow") p)
    (hsolid : t.Solid (config.dataPath.entry "shadow")) (hfollowed : t.Followed p)
    {w : World σ} (hw : w.tree.Within t) :
    (c.removeSnapshotPath p).run.run w
      = (.ok (), { w with tree := (w.tree.removeAll p).2 }) := by
  have haccepts : c.shadowRoot.accepts p = true := by
    rw [show c.shadowRoot = ⟨config.dataPath.entry "shadow"⟩ from
      congrArg PathGuard.mk hc.shadowRoot]
    exact hp.accepted
  refine removeSnapshotPath_of_settled hc haccepts (Prod.ext ?_ rfl)
  rcases hp.removeAll_of_within (direct_shadow hp.accepted) hsolid hfollowed hw with hok | hmissing
  · rw [hok]
    rfl
  · rw [hmissing]
    rfl

/-- So none of several teardowns fails. -/
theorem run_removePaths (hc : c.Serves (World.host engine delegate) config) {t : Tree}
    (hsolid : t.Solid (config.dataPath.entry "shadow")) {removals : List (RetryPolicy × Path)}
    (hremovals : ∀ r ∈ removals,
      t.Listed (config.dataPath.entry "shadow") r.2 ∧ t.Followed r.2)
    {w : World σ} (hw : w.tree.Within t) :
    (c.removePaths removals).run.run w
      = (.ok (), { w with tree := w.tree.removeEach (removals.map (·.2)) }) := by
  induction removals generalizing w with
  | nil => rfl
  | cons r removals ih =>
    obtain ⟨hlisted, hfollowed⟩ := hremovals r List.mem_cons_self
    have hfirst := removeSnapshotPath_of_listed (hc.withRetryPolicy r.1) hlisted hsolid hfollowed hw
    -- What is left is within the same tree as before, so the rest is listed there as well.
    have hrest := ih (fun r' hr' => hremovals r' (List.mem_cons_of_mem r hr'))
      (w := { w with tree := (w.tree.removeAll r.2).2 })
      ((Tree.within_removeAll w.tree r.2).trans hw)
    exact (run_bind_of_ok hfirst).trans hrest

/-- Without links at the shadow directory or below, listed paths that the operating system follows
can be torn down in any order and any number of times, under any policies: no teardown fails. What
is left at the end is the tree without the entries at and below the listed paths, if no link is on
their ways, or if the links there do not lead through what is removed. -/
theorem removePaths_in_any_order (hc : c.Serves (World.host engine delegate) config) (w : World σ)
    {ps : List Path} (hsolid : w.tree.Solid (config.dataPath.entry "shadow"))
    (hps : ∀ p ∈ ps, w.tree.Listed (config.dataPath.entry "shadow") p ∧ w.tree.Followed p)
    {removals : List (RetryPolicy × Path)}
    (hsame : ∀ p, (∃ r ∈ removals, r.2 = p) ↔ p ∈ ps) :
    ∃ t, (c.removePaths removals).run.run w = (.ok (), { w with tree := t }) ∧
      (w.tree.Unbroken ps ∨ (∀ p ∈ ps, w.tree.Unlinked true [] p.names) →
        t = w.tree.cleared ps) := by
  have hpaths : ∀ p, p ∈ removals.map (·.2) ↔ p ∈ ps := by
    intro p
    rw [List.mem_map]
    exact hsame p
  refine ⟨_, run_removePaths hc hsolid (fun r hr => hps r.2 ((hsame r.2).mp ⟨r, hr, rfl⟩))
    (fun l => .inr rfl), fun hways => ?_⟩
  have hway : w.tree.Unbroken ps := hways.elim id fun hlinks =>
    Tree.unbroken_of_unlinked (config.dataPath.entry_text_ne_empty (by decide))
      (fun p hp => (hps p hp).1.accepted) hlinks
  exact Tree.removeEach_eq_cleared (fun p hp => direct_shadow (hps p hp).1.accepted) hsolid hps hway
    hpaths

/-! ## Links above the shadow directory -/

/-- A tree in which the engine's directory is a link. -/
def linkedTree (target : String) : Tree :=
  ⟨[(["ch"], { content := .link target }), (["real"], { content := .directory }),
    (["real", "live"], { content := .file ⟨#[1]⟩ }),
    (["real", "shadow"], { content := .directory }),
    (["real", "shadow", "1"], { content := .directory }),
    (["real", "shadow", "1", "p"], { content := .directory }),
    (["real", "shadow", "1", "p", "f"], { content := .file ⟨#[1]⟩ }),
    (["real", "shadow", "2"], { content := .directory })]⟩

/-- No link is in its shadow directory, whether the link leads straight to the engine's directory or
through what lies in it. -/
theorem solid_linkedTree :
    ∀ target ∈ ["real", "real/shadow/1/../.."],
      (linkedTree target).Solid ((Path.mk "/ch").entry "shadow") := by
  simp only [List.forall_mem_cons]
  refine ⟨?_, ?_, nofun⟩
  · exact Tree.solid_of_resolve ["real", "shadow"] (by rfl) (by rfl) (by decide +kernel)
  · exact Tree.solid_of_resolve ["real", "shadow"] (by rfl) (by rfl) (by decide +kernel)

/-- A controller for it. -/
def linkedController : Controller (StateM (World Unit)) :=
  serving (World.host (constantEngine (.ok (.text ""))) (.noted (.ok ())))
    ⟨⟨"/ch"⟩, "u", "g", {}, {}⟩ ⟨[21, 8], "21.8"⟩

/-- Its world. -/
def linkedWorld (t : Tree) : World Unit :=
  ⟨(), t, [], [], [], [], []⟩

/-- It is made for its configuration. -/
theorem linkedController_serves :
    linkedController.Serves (World.host (constantEngine (.ok (.text ""))) (.noted (.ok ())))
      ⟨⟨"/ch"⟩, "u", "g", {}, {}⟩ :=
  serving_serves _ _ _

/-- Behind a link a directory is removed, before and after it one in it that is spelled otherwise,
and what was never there. -/
theorem removePaths_in_any_order_linked :
    let removals : List (RetryPolicy × Path) :=
      [(.once, ⟨"/ch//shadow/./1/p/"⟩), (.standard, ⟨"/ch/shadow/1"⟩), (.once, ⟨"/ch/shadow/3"⟩),
        (.once, ⟨"/ch//shadow/./1/p/"⟩)]
    ∃ t, (linkedController.removePaths removals).run.run (linkedWorld (linkedTree "real"))
        = (.ok (), linkedWorld t) ∧
      t.node? ["real", "shadow", "1", "p", "f"] = none ∧
      t.node? ["real", "shadow", "2"] = some { content := .directory } := by
  intro removals
  let ps : List Path := [⟨"/ch/shadow/1"⟩, ⟨"/ch//shadow/./1/p/"⟩, ⟨"/ch/shadow/3"⟩]
  have hps : ∀ p ∈ ps, (linkedTree "real").Listed ((Path.mk "/ch").entry "shadow") p ∧
      (linkedTree "real").Followed p := by
    simp only [ps, List.forall_mem_cons]
    refine ⟨?_, ?_, ?_, nofun⟩
    · exact Tree.listed_of_resolve ["real", "shadow", "1"] (by decide +kernel)
        (by decide +kernel) (by rfl) rfl
    · exact Tree.listed_of_resolve ["real", "shadow", "1", "p"] (by decide +kernel)
        (by decide +kernel) (by rfl) rfl
    · exact Tree.listed_of_missing (by decide +kernel) (by decide +kernel) (by rfl)
        (by decide +kernel)
  have hsame : ∀ p, (∃ r ∈ removals, r.2 = p) ↔ p ∈ ps := by
    intro p
    simp only [removals, ps, List.mem_cons, List.not_mem_nil, or_false, exists_eq_or_imp,
      exists_eq_left, eq_comm (b := p)]
    tauto
  obtain ⟨t, hrun, htree⟩ := removePaths_in_any_order linkedController_serves
    (linkedWorld (linkedTree "real")) (solid_linkedTree "real" (by simp)) hps hsame
  have hcleared := htree (.inl (by decide +kernel))
  exact ⟨t, hrun, by rw [hcleared]; rfl, by rw [hcleared]; rfl⟩

/-- Both directories of the shadow directory may be listed where the link leads through one. -/
theorem listed_through {p : Path} (h : p = ⟨"/ch/shadow/1"⟩ ∨ p = ⟨"/ch/shadow/2"⟩) :
    (linkedTree "real/shadow/1/../..").Listed ((Path.mk "/ch").entry "shadow") p ∧
      (linkedTree "real/shadow/1/../..").Followed p := by
  rcases h with rfl | rfl
  · exact Tree.listed_of_resolve ["real", "shadow", "1"] (by decide +kernel)
      (by decide +kernel) (by rfl) rfl
  · exact Tree.listed_of_resolve ["real", "shadow", "2"] (by decide +kernel)
      (by decide +kernel) (by rfl) rfl

/-- A path with a zero in it is not found and may be listed, and its teardown fails. -/
theorem removePaths_zero :
    let zero : Path := ⟨"/ch/shadow/\x00"⟩
    (linkedTree "real").Listed ((Path.mk "/ch").entry "shadow") zero ∧
      (linkedController.removePaths [(.once, zero)]).run.run (linkedWorld (linkedTree "real"))
        = (.error (.teardown zero 1 .zeroInPath), linkedWorld (linkedTree "real")) := by
  have hfault : (linkedTree "real").resolve false ⟨"/ch/shadow/\x00"⟩ = .error .zeroInPath := by rfl
  refine ⟨⟨by decide +kernel, by decide +kernel, .inr ⟨fun loc hloc => ?_, by decide +kernel⟩⟩, ?_⟩
  · rw [hfault] at hloc
    cases hloc
  · have hrun := removeSnapshotPath_of_fault (linkedController_serves.withRetryPolicy .once)
      (by decide +kernel) (fun hkind => by cases hkind) (w := linkedWorld (linkedTree "real"))
      (Tree.removeAll_of_error hfault)
    exact run_bind_of_error hrun

/-- A teardown fails, although nothing is there, if the path has a zero in it. And if the engine's
directory is reached through one of two directories, the other one stays when it comes second: it is
not found any more. -/
theorem not_removed_in_any_order :
    let shadow := (Path.mk "/ch").entry "shadow"
    let zero : Path := ⟨"/ch/shadow/\x00"⟩
    let first : Path := ⟨"/ch/shadow/1"⟩
    let second : Path := ⟨"/ch/shadow/2"⟩
    let straight := linkedTree "real"
    let through := linkedTree "real/shadow/1/../.."
    (straight.Solid shadow ∧ straight.Listed shadow zero ∧
      (linkedController.removePaths [(.once, zero)]).run.run (linkedWorld straight)
        = (.error (.teardown zero 1 .zeroInPath), linkedWorld straight)) ∧
    (through.Solid shadow ∧ ∀ p, p = first ∨ p = second →
      through.Listed shadow p ∧ through.Followed p) ∧
    ∃ t t',
      (linkedController.removePaths [(.once, first), (.once, second)]).run.run (linkedWorld through)
        = (.ok (), linkedWorld t) ∧
      (linkedController.removePaths [(.once, second), (.once, first)]).run.run (linkedWorld through)
        = (.ok (), linkedWorld t') ∧
      t.node? ["real", "shadow", "2"] = some { content := .directory } ∧
      t'.node? ["real", "shadow", "2"] = none := by
  have hrun : ∀ ps : List Path, (∀ p ∈ ps, p = ⟨"/ch/shadow/1"⟩ ∨ p = ⟨"/ch/shadow/2"⟩) →
      (linkedController.removePaths (ps.map (RetryPolicy.once, ·))).run.run
          (linkedWorld (linkedTree "real/shadow/1/../.."))
        = (.ok (), linkedWorld ((linkedTree "real/shadow/1/../..").removeEach ps)) := by
    intro ps hps
    have hlisted : ∀ r ∈ ps.map (RetryPolicy.once, ·),
        (linkedTree "real/shadow/1/../..").Listed ((Path.mk "/ch").entry "shadow") r.2 ∧
          (linkedTree "real/shadow/1/../..").Followed r.2 := by
      rintro r hr
      obtain ⟨p, hp, rfl⟩ := List.mem_map.mp hr
      exact listed_through (hps p hp)
    have hremovals := run_removePaths linkedController_serves
      (solid_linkedTree "real/shadow/1/../.." (by simp)) hlisted
      (w := linkedWorld (linkedTree "real/shadow/1/../..")) (fun l => .inr rfl)
    rw [hremovals, List.map_map]
    simp [linkedWorld]
  exact ⟨⟨solid_linkedTree "real" (by simp), removePaths_zero⟩,
    ⟨solid_linkedTree "real/shadow/1/../.." (by simp), fun p hp => listed_through hp⟩,
    _, _, hrun [⟨"/ch/shadow/1"⟩, ⟨"/ch/shadow/2"⟩] (by simp),
    hrun [⟨"/ch/shadow/2"⟩, ⟨"/ch/shadow/1"⟩] (by simp), by rfl, by rfl⟩

end TableSnapshots.Controller
