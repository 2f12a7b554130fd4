import TableSnapshots.Proofs.Controller.Restore
import TableSnapshots.Proofs.Controller.Teardown

/-!
# What changes on the file system

The guards of a controller look at the text of a path. On the file system the path leads to one
location, and that is where the operation works: teardown removes entries at and below it, an
ownership change gives away entries below it and the files that have a name there, and nothing else
changes by their doing (`changes_confined`). This location lies below the one of the guarded
directory if the path meets no link after the guarded directory. If it meets one, the location can
be anywhere: a link below `shadow` that leads to live data leads teardown there. And a file below
`data` shows its new owner under another name that it has elsewhere (`not_confined_of_link`).
-/

namespace TableSnapshots.Controller

open TableSnapshots.Tree (atOrBelow below)

variable {σ : Type} {engine : Engine σ} {delegate : Delegate} {config : Config}
  {c : Controller (StateM (World σ))} {p : Path}

/-! ## Teardown -/

/-- Teardown removes nothing that is not where its path leads or below, however often it tries. -/
theorem prunedAlong_removeSnapshotPath (hc : c.Serves (World.host engine delegate) config)
    {ps : List Path} (hp : p ∈ ps) (w : World σ) :
    w.tree.PrunedAlong ps ((c.removeSnapshotPath p).run.run w).2.tree := by
  cases h : c.shadowRoot.accepts p with
  | false =>
    rw [removeSnapshotPath_of_refused h]
    exact .refl w.tree ps
  | true =>
    rw [run_removeSnapshotPath h]
    refine RetryPolicy.run_invariant (I := fun w' : World σ => w.tree.PrunedAlong ps w'.tree)
      (fun w' hw' => ?_) (fun d w' hw' => ?_) (.refl w.tree ps)
    · rw [run_removeOnce hc]
      exact hw'.trans (Tree.prunedAlong_removeAll w'.tree hp)
    · rw [run_wait hc]
      exact hw'

/-! ## Ownership changes -/

/-- An ownership change gives away only what has a name below where the directory leads that the
engine told and the guard accepted. -/
theorem givenAlong_chownDetached (hc : c.Serves (World.host engine delegate) config)
    (db table : String) (w : World σ) :
    let t := (w.after engine [Query.tableDataPath db table]).tree
    let t' := ((c.chownDetached db table).run.run w).2.tree
    t' = t ∨ ∃ path,
      readDataPath db table (w.answer engine (Query.tableDataPath db table)) = .ok path ∧
        c.dataRoot.accepts (path.entry detachedName) = true ∧
        t.GivenAlong (path.entry detachedName) t' := by
  intro t t'
  have hpath := run_tableDataPath_host hc db table w
  cases hread : readDataPath db table (w.answer engine (Query.tableDataPath db table)) with
  | error e =>
    rw [hread] at hpath
    exact .inl (congrArg (·.2.tree) (run_chownDetached_of_error hpath))
  | ok path =>
    rw [hread] at hpath
    cases haccepts : c.dataRoot.accepts (path.entry detachedName) with
    | false => exact .inl (congrArg (·.2.tree) (run_chownDetached_of_refused hpath haccepts))
    | true =>
      have hrun : t' = _ := congrArg (·.2.tree) (run_chownDetached hpath haccepts)
      rw [hc.host] at hrun
      cases delegate with
      | noted answer => exact .inl hrun
      | acting authority =>
        refine .inr ⟨path, rfl, haccepts, ?_⟩
        rw [hrun]
        exact Tree.givenAlong_changeOwnership t authority _ c.user c.group

/-! ## Confinement -/

/-- What is below a location is neither at nor below another one, unless one lies in the other. -/
theorem not_atOrBelow_of_apart {base live l : Location} (h : atOrBelow base live = false)
    (h' : atOrBelow live base = false) (hl : atOrBelow live l = true) :
    atOrBelow base l = false := by
  unfold atOrBelow at *
  rw [Bool.eq_false_iff, ne_eq, List.isPrefixOf_iff_prefix] at h h' ⊢
  rw [List.isPrefixOf_iff_prefix] at hl
  intro hbase
  rcases List.prefix_or_prefix_of_prefix hbase hl with hin | hin
  · exact h hin
  · exact h' hin

/-- What is below a location that goes on from another one is below that one as well. -/
theorem below_of_below_append {base rest l : Location} (h : below (base ++ rest) l = true) :
    below base l = true := by
  unfold below atOrBelow at *
  rw [Bool.and_eq_true, List.isPrefixOf_iff_prefix, decide_eq_true_eq] at h ⊢
  obtain ⟨hstart, hne⟩ := h
  refine ⟨(List.prefix_append base rest).trans hstart, fun heq => hne ?_⟩
  -- Nothing goes on from itself but with nothing.
  subst heq
  have hlength := hstart.length_le
  rw [List.length_append] at hlength
  have hnil : rest = [] := List.eq_nil_of_length_eq_zero (by omega)
  rw [hnil, List.append_nil]

section Guarded

variable {t t' : Tree} {root : Path} {rest : List String} {base : Location}
  (hroot : root.text ≠ "") (haccepts : (PathGuard.mk root).accepts p = true)
  (hrest : p.components = root.components ++ rest.map .name)
  (hbase : t.LeadsTo true root base)
include hroot haccepts hrest hbase

/-- What was removed along a path lies at or below the location of a directory whose guard accepts
the path, if the path meets no link after that directory. -/
theorem removed_below_base (halong : t.RemovedAlong p t')
    (hlinks : t.Unlinked (!decide p.EndsInName) base rest)
    (hself : rest = [] → p.EndsInName → ∀ loc target,
      t.LeadsTo false p loc → t.content? loc ≠ some (.link target)) :
    ∀ l, t'.node? l ≠ t.node? l → t'.node? l = none ∧ atOrBelow base l = true := by
  intro l hl
  have hp : p.text ≠ "" := PathGuard.text_ne_empty_of_accepts hroot haccepts
  have hup : .up ∉ p.components := (PathGuard.accepts_iff.mp haccepts).2
  obtain ⟨hnone, loc, hloc, hbelow⟩ := (halong l).resolve_left hl
  -- Without links the path leads from the directory along its further names.
  have heq : loc = base ++ rest := by
    refine Tree.LeadsTo.eq_append hroot hp hup hrest hbase hloc
      (by rwa [Bool.false_or]) fun hnil => ?_
    by_cases hname : p.EndsInName
    · exact .inr fun target => hself hnil hname loc target hloc
    · exact .inl (by simp [hname])
  refine ⟨hnone, ?_⟩
  unfold atOrBelow at hbelow ⊢
  rw [List.isPrefixOf_iff_prefix] at hbelow ⊢
  exact (List.prefix_append base rest).trans (heq ▸ hbelow)

/-- What was given away along such a path has a name below that location. -/
theorem given_below_base (halong : t.GivenAlong p t') (hlinks : t.Unlinked true base rest) :
    ∀ l, t'.node? l ≠ t.node? l → t.HasNameBelow base l := by
  intro l hl
  have hp : p.text ≠ "" := PathGuard.text_ne_empty_of_accepts hroot haccepts
  have hup : .up ∉ p.components := (PathGuard.accepts_iff.mp haccepts).2
  obtain ⟨loc, hloc, l', hbelow, hsame⟩ := (halong l).2.resolve_left hl
  have heq : loc = base ++ rest := Tree.LeadsTo.eq_append hroot hp hup hrest hbase hloc
    (by rwa [Bool.true_or]) fun _ => .inl (Bool.true_or _)
  exact ⟨l', below_of_below_append (heq ▸ hbelow), hsame⟩

end Guarded

/-- The three ways to tear down are teardown of a path. It removes entries at and below the location
that the path leads to, a link at its end not followed unless a slash or a `.` asks for a directory;
everything else stays as it was. If the path meets no link after the shadow directory, and this is
not itself the link that the path names, then what is removed lies at or below the location of the
shadow directory, so that live data apart from there stays.

An ownership change keeps every entry where and what it is, in the tree that its query left. Another
owner is given only to what has a name below the location of a directory that was told and accepted,
all links followed: to an entry that lies there, or to a file of which another name lies there. If
its path meets no link after the directory of the tables, this is below the location of that
directory. -/
theorem changes_confined (hc : c.Serves (World.host engine delegate) config) (w : World σ) :
    let shadow := config.dataPath.entry "shadow"
    let data := config.dataPath.entry "data"
    ((∀ part, c.removeSnapshot part = c.removeSnapshotPath part.path) ∧
      c.removeAllSnapshots = c.removeSnapshotPath shadow) ∧
    (∀ p,
      let t := w.tree
      let t' := ((c.removeSnapshotPath p).run.run w).2.tree
      ((PathGuard.mk shadow).accepts p = false → t' = t) ∧
      (∀ l, t'.node? l = t.node? l ∨
        t'.node? l = none ∧ ∃ loc, t.LeadsTo false p loc ∧ atOrBelow loc l = true) ∧
      ((PathGuard.mk shadow).accepts p = true →
        ∃ rest : List String, p.components = shadow.components ++ rest.map .name ∧
          ∀ base, t.LeadsTo true shadow base → t.Unlinked (!decide p.EndsInName) base rest →
            (rest = [] → p.EndsInName → ∀ loc target,
              t.LeadsTo false p loc → t.content? loc ≠ some (.link target)) →
            (∀ l, t'.node? l ≠ t.node? l → t'.node? l = none ∧ atOrBelow base l = true) ∧
            ∀ live, atOrBelow base live = false → atOrBelow live base = false →
              ∀ l, atOrBelow live l = true → t'.node? l = t.node? l)) ∧
    ∀ db table,
      let t := (w.after engine [Query.tableDataPath db table]).tree
      let t' := ((c.chownDetached db table).run.run w).2.tree
      t' = t ∨ ∃ path rest,
        readDataPath db table (w.answer engine (Query.tableDataPath db table)) = .ok path ∧
        (path.entry "detached").components = data.components ++ rest.map .name ∧
        (∀ l, t'.content? l = t.content? l ∧
          (t'.node? l = t.node? l ∨
            ∃ loc, t.LeadsTo true (path.entry "detached") loc ∧ t.HasNameBelow loc l)) ∧
        ∀ base, t.LeadsTo true data base → t.Unlinked true base rest →
          ∀ l, t'.node? l ≠ t.node? l → t.HasNameBelow base l := by
  intro shadow data
  have hshadow : c.shadowRoot = ⟨shadow⟩ := congrArg PathGuard.mk hc.shadowRoot
  have hdata : c.dataRoot = ⟨data⟩ := congrArg PathGuard.mk hc.dataRoot
  have hshadowText : shadow.text ≠ "" := config.dataPath.entry_text_ne_empty (by decide)
  have hdataText : data.text ≠ "" := config.dataPath.entry_text_ne_empty (by decide)
  refine ⟨⟨fun part => rfl, congrArg c.removeSnapshotPath hc.shadowRoot⟩, fun p => ?_,
    fun db table => ?_⟩
  · intro t t'
    have halong : t.RemovedAlong p t' :=
      (prunedAlong_removeSnapshotPath hc (List.mem_singleton_self p) w).removedAlong
    refine ⟨fun h => ?_, halong, fun h => ?_⟩
    · rw [← hshadow] at h
      exact congrArg (·.2.tree) (removeSnapshotPath_of_refused h w)
    · obtain ⟨rest, hrest⟩ := Path.exists_names_of_accepts hshadowText h
      refine ⟨rest, hrest, fun base hbase hlinks hself => ?_⟩
      have hgone := removed_below_base hshadowText h hrest hbase halong hlinks hself
      refine ⟨hgone, fun live hlive hlive' l hl => ?_⟩
      -- Live data apart from the shadow directory is not below it, so it was not removed.
      by_contra hchanged
      have hbelow := (hgone l hchanged).2
      rw [not_atOrBelow_of_apart hlive hlive' hl] at hbelow
      cases hbelow
  · intro t t'
    rcases givenAlong_chownDetached hc db table w with hsame | ⟨path, hread, haccepts, halong⟩
    · exact .inl hsame
    · rw [hdata] at haccepts
      obtain ⟨rest, hrest⟩ := Path.exists_names_of_accepts hdataText haccepts
      exact .inr ⟨path, rest, hread, hrest, halong, fun base hbase hlinks =>
        given_below_base hdataText haccepts hrest hbase halong hlinks⟩

/-- A tree in which the shadow directory is a link to another disk. -/
def otherDisk : Tree :=
  ⟨[(["ch"], { content := .directory }), (["ch", "data"], { content := .directory }),
    (["ch", "data", "live"], { content := .directory }),
    (["ch", "shadow"], { content := .link "../disk" }), (["disk"], { content := .directory }),
    (["disk", "1"], { content := .directory })]⟩

/-- Teardown of a freeze on the other disk removes entries there and no live data. -/
theorem changes_confined_otherDisk :
    let c : Controller (StateM (World Unit)) :=
      serving (World.host (constantEngine (.ok (.text ""))) (.noted (.ok ())))
        ⟨⟨"/ch"⟩, "u", "g", {}, {}⟩ ⟨[21, 8], "21.8"⟩
    let t' := ((c.removeSnapshotPath ⟨"/ch/shadow/1"⟩).run.run
      ⟨(), otherDisk, [], [], [], [], []⟩).2.tree
    (∀ l, t'.node? l ≠ otherDisk.node? l → atOrBelow ["disk"] l = true) ∧
      t'.node? ["ch", "data", "live"] = some { content := .directory } := by
  intro c t'
  obtain ⟨-, hremove, -⟩ := changes_confined (c := c)
    (serving_serves (World.host (constantEngine (.ok (.text ""))) (.noted (.ok ())))
      ⟨⟨"/ch"⟩, "u", "g", {}, {}⟩ ⟨[21, 8], "21.8"⟩) ⟨(), otherDisk, [], [], [], [], []⟩
  obtain ⟨-, -, haccepted⟩ := hremove ⟨"/ch/shadow/1"⟩
  obtain ⟨rest, hrest, hconfined⟩ := haccepted (by decide +kernel)
  have hnames : rest = ["1"] := by
    have hone : (Path.mk "/ch/shadow/1").components
        = (Path.mk "/ch/shadow").components ++ ["1"].map .name := by decide +kernel
    have hsame := List.append_cancel_left (hrest.symm.trans hone)
    exact (List.map_inj_right fun _ _ h => Path.Component.name.inj h).mp hsame
  have hbase : otherDisk.LeadsTo true ⟨"/ch/shadow"⟩ ["disk"] :=
    Tree.leadsTo_of_resolve (by decide +kernel)
  have hlinks : otherDisk.Unlinked (!decide (Path.mk "/ch/shadow/1").EndsInName) ["disk"] rest := by
    rw [hnames, show (!decide (Path.mk "/ch/shadow/1").EndsInName) = false by decide +kernel]
    rintro q r hqr hq (hr | hfollow) target
    · rcases List.append_eq_cons_iff.mp hqr.symm with ⟨hnil, -⟩ | ⟨q', -, hq'⟩
      · exact absurd hnil hq
      · exact absurd (List.append_eq_nil_iff.mp hq'.symm).2 hr
    · cases hfollow
  obtain ⟨hgone, hlive⟩ := hconfined ["disk"] hbase hlinks fun hnil => by
    rw [hnames] at hnil
    cases hnil
  exact ⟨fun l hl => (hgone l hl).2,
    hlive ["ch", "data"] rfl rfl ["ch", "data", "live"] rfl⟩

/-- A tree in which a link in the shadow directory leads to live data. -/
def linkedData : Tree :=
  ⟨[(["ch"], { content := .directory }), (["ch", "data"], { content := .directory }),
    (["ch", "data", "live"], { content := .directory }),
    (["ch", "shadow"], { content := .directory }),
    (["ch", "shadow", "link"], { content := .link "../data" })]⟩

/-- A tree in which a file of a detached part has another name in the shadow directory. -/
def sharedFile : Tree :=
  ⟨[(["ch"], { content := .directory }), (["ch", "data"], { content := .directory }),
    (["ch", "data", "t"], { content := .directory }),
    (["ch", "data", "t", "detached"], { content := .directory }),
    (["ch", "data", "t", "detached", "f"], { content := .file .empty, inode := some 1 }),
    (["ch", "shadow"], { content := .directory }),
    (["ch", "shadow", "f"], { content := .file .empty, inode := some 1 })]⟩

/-- What teardown removes is not always below the location of the shadow directory: through a link
there a path that the guard accepts leads to live data. Nor is what an ownership change gives away
always below the location of the directory of the tables: a file there has its owner under every
name. -/
theorem not_confined_of_link :
    (¬ ∀ (engine : Engine Unit) (delegate : Delegate) (config : Config)
        (c : Controller (StateM (World Unit))), c.Serves (World.host engine delegate) config →
      ∀ (p : Path) (w : World Unit) (base : Location),
        w.tree.LeadsTo true (config.dataPath.entry "shadow") base →
        ∀ l, ((c.removeSnapshotPath p).run.run w).2.tree.node? l ≠ w.tree.node? l →
          atOrBelow base l = true) ∧
    ¬ ∀ (engine : Engine Unit) (delegate : Delegate) (config : Config)
        (c : Controller (StateM (World Unit))), c.Serves (World.host engine delegate) config →
      ∀ (db table : String) (w : World Unit) (base : Location),
        let t := (w.after engine [Query.tableDataPath db table]).tree
        t.LeadsTo true (config.dataPath.entry "data") base →
        ∀ l, ((c.chownDetached db table).run.run w).2.tree.node? l ≠ t.node? l →
          atOrBelow base l = true := by
  constructor
  · intro h
    have hc := serving_serves (World.host (constantEngine (.ok (.text ""))) (.noted (.ok ())))
      ⟨⟨"/ch"⟩, "u", "g", {}, {}⟩ ⟨[21, 8], "21.8"⟩
    let w : World Unit := ⟨(), linkedData, [], [], [], [], []⟩
    have hbase : linkedData.LeadsTo true ⟨"/ch/shadow"⟩ ["ch", "shadow"] :=
      Tree.leadsTo_of_resolve (by decide +kernel)
    have hremove : (settled (w.tree.removeAll ⟨"/ch/shadow/link/live"⟩).1,
        (w.tree.removeAll ⟨"/ch/shadow/link/live"⟩).2)
          = (.ok (), w.tree.without ["ch", "data", "live"]) := by
      rfl
    have hrun := removeSnapshotPath_of_settled hc (by decide +kernel) hremove
    have hbelow := h _ _ _ _ hc ⟨"/ch/shadow/link/live"⟩ w _ hbase ["ch", "data", "live"] (by
      rw [hrun]
      intro hsame
      cases hsame)
    cases hbelow
  · intro h
    have hc := serving_serves (World.host (constantEngine (.ok (.text "/ch/data/t")))
        (.acting { accounts := ⟨[("u", 7)], [("g", 8)]⟩, mayGive := true }))
      ⟨⟨"/ch"⟩, "u", "g", {}, {}⟩ ⟨[21, 8], "21.8"⟩
    let w : World Unit := ⟨(), sharedFile, [], [], [], [], []⟩
    have hbase : sharedFile.LeadsTo true ⟨"/ch/data"⟩ ["ch", "data"] :=
      Tree.leadsTo_of_resolve (by decide +kernel)
    have hbelow := h _ _ _ _ hc "db" "t" w _ hbase ["ch", "shadow", "f"] (by
      intro hsame
      have howner := congrArg (Option.map Node.owner) hsame
      revert howner
      decide +kernel)
    cases hbelow

end TableSnapshots.Controller
