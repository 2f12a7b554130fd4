import TableSnapshots.Proofs.Controller.Teardown
import TableSnapshots.Proofs.Path.Relative

/-!
# The guards of a controller

The guards of a controller start at the engine's directory and at entries of it. A path below one
entry is not below another one (`not_accepts_of_sibling`), so what teardown may remove is neither
what may change its owner nor live data, however it is spelled (`accepts_shadow_apart`). Which paths
a guard accepts depends on their components alone, and the components of an entry are those of the
directory and its name: this carries every statement here, also for a directory whose text is empty
or ends in a slash.
-/

namespace TableSnapshots

open TableSnapshots.Path (IsName)

/-! ## Below the entries of a directory -/

namespace PathGuard

variable {dir p : Path} {s s' : String}

/-- Freezes go to an entry of the engine's directory. -/
theorem isName_shadow : IsName "shadow" := by decide

/-- Tables of one kind of database lie in another entry. -/
theorem isName_data : IsName "data" := by decide

/-- Those of the other kind lie in a third. -/
theorem isName_store : IsName "store" := by decide

/-- What is accepted below an entry is accepted below the directory. -/
theorem accepts_of_entry (hs : IsName s) (h : (PathGuard.mk (dir.entry s)).accepts p = true) :
    (PathGuard.mk dir).accepts p = true := by
  rw [accepts_iff, Path.components_entry_name dir hs] at h
  rw [accepts_iff]
  exact ⟨(List.prefix_append _ _).trans h.1, h.2⟩

/-- It has a component more than the directory. -/
theorem components_ne_of_accepts_entry (hs : IsName s)
    (h : (PathGuard.mk (dir.entry s)).accepts p = true) : p.components ≠ dir.components := by
  rw [accepts_iff, Path.components_entry_name dir hs] at h
  intro heq
  have hlength := h.1.length_le
  rw [heq, List.length_append, List.length_singleton] at hlength
  omega

/-- The components of two entries of a directory never start the same components. -/
theorem not_prefix_of_sibling (hs : IsName s) (hs' : IsName s') (hne : s ≠ s')
    {cs : List Path.Component} (h : (dir.entry s).components <+: cs) :
    ¬ (dir.entry s').components <+: cs := by
  intro h'
  rw [Path.components_entry_name dir hs] at h
  rw [Path.components_entry_name dir hs'] at h'
  -- Both are of the same length, so they would be the same.
  have hprefix := List.prefix_of_prefix_length_le h h' (by simp)
  have heq := hprefix.eq_of_length (by simp)
  rw [List.append_right_inj, List.singleton_inj, Path.Component.name.injEq] at heq
  exact hne heq

/-- What is accepted below one entry is not accepted below another one. -/
theorem not_accepts_of_sibling (hs : IsName s) (hs' : IsName s') (hne : s ≠ s')
    (h : (PathGuard.mk (dir.entry s)).accepts p = true) :
    (PathGuard.mk (dir.entry s')).accepts p = false := by
  rw [Bool.eq_false_iff, ne_eq, accepts_iff]
  rw [accepts_iff] at h
  exact fun h' => not_prefix_of_sibling hs hs' hne h.1 h'.1

/-- A path that is accepted stays so when a relative path that never leads up is joined to it. -/
theorem accepts_join {g : PathGuard} (hroot : g.root.text ≠ "") (h : g.accepts p = true) {q : Path}
    (hq : q.isAbsolute = false) (hup : .up ∉ q.components) : g.accepts (p.join q) = true := by
  have hp : p.text ≠ "" := text_ne_empty_of_accepts hroot h
  rw [accepts_iff] at h
  rw [accepts_iff, Path.components_join hq hp, Path.filterMap_component?_pieces hq]
  refine ⟨h.1.trans (List.prefix_append _ _), ?_⟩
  rw [List.mem_append, not_or]
  exact ⟨h.2, fun hmem => hup (List.mem_filter.mp hmem).1⟩

/-- An entry of a directory is accepted by its own guard unless the path of the directory leads
up. -/
theorem accepts_self_iff (hs : IsName s) :
    (PathGuard.mk (dir.entry s)).accepts (dir.entry s) = true ↔ .up ∉ dir.components := by
  rw [accepts_iff, Path.components_entry_name dir hs, List.mem_append, not_or]
  constructor
  · exact fun h => h.2.1
  · exact fun h => ⟨List.prefix_rfl, h, by simp⟩

end PathGuard

/-! ## Targets of teardown -/

namespace Controller

open PathGuard

variable {σ : Type} {engine : Engine σ} {delegate : Delegate} {config : Config}
  {c : Controller (StateM (World σ))}

/-- The teardown of the whole shadow directory is refused exactly if the path of the engine's
directory leads up. -/
theorem removeAllSnapshots_refused_iff (hc : c.Serves (World.host engine delegate) config)
    (w : World σ) :
    (∃ path root, (c.removeAllSnapshots.run.run w).1 = .error (.pathViolation path root))
      ↔ .up ∈ config.dataPath.components := by
  have hself : c.shadowRoot.accepts c.shadowRoot.root = true ↔ .up ∉ config.dataPath.components := by
    rw [show c.shadowRoot = ⟨config.dataPath.entry "shadow"⟩ from
      congrArg PathGuard.mk hc.shadowRoot]
    exact accepts_self_iff isName_shadow
  cases haccepts : c.shadowRoot.accepts c.shadowRoot.root with
  | false =>
    have hup : .up ∈ config.dataPath.components := by
      by_contra hup
      rw [hself.mpr hup] at haccepts
      cases haccepts
    have hrun := congrArg Prod.fst (removeSnapshotPath_of_refused haccepts w)
    exact iff_of_true ⟨c.shadowRoot.root, c.shadowRoot.root, hrun⟩ hup
  | true =>
    refine iff_of_false ?_ (hself.mp haccepts)
    rintro ⟨path, root, herror⟩
    have hrun := congrArg Prod.fst (run_removeSnapshotPath haccepts w)
    rw [show (c.removeSnapshotPath c.shadowRoot.root) = c.removeAllSnapshots from rfl,
      herror] at hrun
    -- All other failures are those of the attempts.
    cases hattempts : ((c.retry.run (c.removeOnce c.shadowRoot.root) c.host.wait).run w).1 with
    | ok _ =>
      rw [hattempts] at hrun
      cases hrun
    | error failure =>
      rw [hattempts] at hrun
      cases hrun

/-- A path that teardown may work on lies below the engine's directory and is not it. It is not a
target of an ownership change and not accepted below `store`, and no live table's directory has its
components. Whatever is joined to it and does not lead up may be torn down as well. The whole shadow
directory is such a path, and its teardown is not refused, exactly if the path of the engine's
directory does not lead up. -/
theorem accepts_shadow_apart (hc : c.Serves (World.host engine delegate) config) :
    let store : PathGuard := ⟨config.dataPath.entry "store"⟩
    (∀ p, c.shadowRoot.accepts p = true →
      c.root.accepts p = true ∧ p.components ≠ config.dataPath.components ∧
      (c.dataRoot.accepts p = false ∧ store.accepts p = false) ∧
      (∀ live : Path, c.dataRoot.root.components <+: live.components ∨
          store.root.components <+: live.components → p.components ≠ live.components) ∧
      ∀ q : Path, q.isAbsolute = false → .up ∉ q.components →
        c.shadowRoot.accepts (p.join q) = true) ∧
    (c.shadowRoot.accepts c.shadowRoot.root = true ↔ .up ∉ config.dataPath.components) ∧
    ∀ w : World σ,
      (∃ path root, (c.removeAllSnapshots.run.run w).1 = .error (.pathViolation path root))
        ↔ .up ∈ config.dataPath.components := by
  intro store
  have hroot : c.root = ⟨config.dataPath⟩ := congrArg PathGuard.mk hc.root
  have hdata : c.dataRoot = ⟨config.dataPath.entry "data"⟩ := congrArg PathGuard.mk hc.dataRoot
  have hshadow : c.shadowRoot = ⟨config.dataPath.entry "shadow"⟩ :=
    congrArg PathGuard.mk hc.shadowRoot
  have htext : (config.dataPath.entry "shadow").text ≠ "" :=
    config.dataPath.entry_text_ne_empty (by decide)
  rw [hroot, hdata, hshadow]
  refine ⟨fun p hp => ⟨?_, ?_, ⟨?_, ?_⟩, ?_, ?_⟩, ?_, removeAllSnapshots_refused_iff hc⟩
  · exact accepts_of_entry isName_shadow hp
  · exact components_ne_of_accepts_entry isName_shadow hp
  · exact not_accepts_of_sibling isName_shadow isName_data (by decide) hp
  · exact not_accepts_of_sibling isName_shadow isName_store (by decide) hp
  · rintro live hlive hsame
    have hprefix := (accepts_iff.mp hp).1
    rw [hsame] at hprefix
    rcases hlive with hlive | hlive
    · exact not_prefix_of_sibling isName_shadow isName_data (by decide) hprefix hlive
    · exact not_prefix_of_sibling isName_shadow isName_store (by decide) hprefix hlive
  · intro q hq hup
    exact accepts_join htext hp hq hup
  · exact accepts_self_iff isName_shadow

/-- With the empty path as the engine's directory, an odd spelling below `shadow` is a target of
teardown, also with a `.` and a slash joined to it, and no target of an ownership change. -/
theorem accepts_shadow_apart_spelled :
    let c : Controller (StateM (World Unit)) :=
      serving (World.host (constantEngine (.ok (.text ""))) (.noted (.ok ())))
        ⟨⟨""⟩, "u", "g", {}, {}⟩ ⟨[21, 8], "21.8"⟩
    c.shadowRoot.accepts ⟨"shadow//1/./data"⟩ = true ∧
      c.dataRoot.accepts ⟨"shadow//1/./data"⟩ = false ∧
      c.shadowRoot.accepts ((Path.mk "shadow//1/./data").join ⟨"./t/"⟩) = true := by
  intro c
  obtain ⟨htarget, -, -⟩ := accepts_shadow_apart
    (serving_serves (World.host (constantEngine (.ok (.text ""))) (.noted (.ok ())))
      ⟨⟨""⟩, "u", "g", {}, {}⟩ ⟨[21, 8], "21.8"⟩)
  have haccepts : c.shadowRoot.accepts ⟨"shadow//1/./data"⟩ = true := by decide +kernel
  obtain ⟨-, -, ⟨hdata, -⟩, -, hjoin⟩ := htarget _ haccepts
  exact ⟨haccepts, hdata, hjoin ⟨"./t/"⟩ (by decide) (by decide +kernel)⟩

end Controller

end TableSnapshots
