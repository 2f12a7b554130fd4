import TableSnapshots.Proofs.Controller.Run
import TableSnapshots.Proofs.Path.Relative
import TableSnapshots.Proofs.Tree.Confined
import TableSnapshots.Proofs.Tree.Ownership
import TableSnapshots.Proofs.World.Session

/-!
# Restoring

Where a part has to be put and which directory is given away are worked out apart from each other,
each from an answer of the engine. If the answers tell the same directory of the table, the part
lies right in the detached directory that an ownership change works on, and the guard decides only
whether there is a change at all. A change that succeeds has then reached every entry of the part
(`restore_paths_agree`).
-/

namespace TableSnapshots.Controller

open TableSnapshots.Tree (atOrBelow)

/-! ## Steps -/

section Steps

variable {S : Type} {c : Controller (StateM S)} {db table : String} {s s' : S} {e : Error}
  {path : Path}

/-- The detached parts lie in an entry of the table's directory. -/
theorem run_detachedDirectory (h : (c.tableDataPath db table).run.run s = (.ok path, s')) :
    (c.detachedDirectory db table).run.run s = (.ok (path.entry detachedName), s') :=
  run_bind_of_ok h

/-- Without a directory of the table there is none of its detached parts. -/
theorem run_detachedDirectory_of_error
    (h : (c.tableDataPath db table).run.run s = (.error e, s')) :
    (c.detachedDirectory db table).run.run s = (.error e, s') :=
  run_bind_of_error h

/-- A part has to be put right into the directory of the detached parts. -/
theorem run_detachedPartPath (h : (c.tableDataPath db table).run.run s = (.ok path, s'))
    (part : String) :
    (c.detachedPartPath db table part).run.run s
      = (.ok ((path.entry detachedName).entry part), s') :=
  run_bind_of_ok (run_detachedDirectory h)

/-- Without a directory of the table there is no place for a part. -/
theorem run_detachedPartPath_of_error
    (h : (c.tableDataPath db table).run.run s = (.error e, s')) (part : String) :
    (c.detachedPartPath db table part).run.run s = (.error e, s') :=
  run_bind_of_error (run_detachedDirectory_of_error h)

/-- An ownership change of a table whose directory is not known is none. -/
theorem run_chownDetached_of_error (h : (c.tableDataPath db table).run.run s = (.error e, s')) :
    (c.chownDetached db table).run.run s = (.error e, s') :=
  run_bind_of_error (run_detachedDirectory_of_error h)

/-- An ownership change of a directory that the guard refuses is none. -/
theorem run_chownDetached_of_refused (h : (c.tableDataPath db table).run.run s = (.ok path, s'))
    (hrefused : c.dataRoot.accepts (path.entry detachedName) = false) :
    (c.chownDetached db table).run.run s
      = (.error (.pathViolation (path.entry detachedName) c.dataRoot.root), s') := by
  have hcheck : c.dataRoot.check (path.entry detachedName)
      = .error (.pathViolation (path.entry detachedName) c.dataRoot.root) :=
    if_neg (by simp [hrefused])
  unfold chownDetached
  rw [run_bind_of_ok (run_detachedDirectory h), hcheck]
  exact run_bind_of_error (run_ofExcept _ _)

/-- Any other one is a single request to the host, in the state that the query left. -/
theorem run_chownDetached (h : (c.tableDataPath db table).run.run s = (.ok path, s'))
    (haccepted : c.dataRoot.accepts (path.entry detachedName) = true) :
    let request := (c.host.changeOwnership (path.entry detachedName) c.user c.group).run s'
    (c.chownDetached db table).run.run s
      = (request.1.mapError (.file (path.entry detachedName)), request.2) := by
  intro request
  have hcheck : c.dataRoot.check (path.entry detachedName) = .ok (path.entry detachedName) :=
    if_pos haccepted
  unfold chownDetached
  rw [run_bind_of_ok (run_detachedDirectory h), hcheck, run_bind_of_ok (run_ofExcept _ _),
    run_bind_of_ok (run_lift _ _)]
  rw [show (c.host.changeOwnership (path.entry detachedName) c.user c.group).run s' = request
    from rfl]
  cases request.1 <;> rfl

end Steps

/-- In a world the directory of a table is what the engine's answer says. -/
theorem run_tableDataPath_host {σ : Type} {engine : Engine σ} {delegate : Delegate}
    {config : Config} {c : Controller (StateM (World σ))}
    (hc : c.Serves (World.host engine delegate) config) (db table : String) (w : World σ) :
    (c.tableDataPath db table).run.run w
      = ((readDataPath db table (w.answer engine (Query.tableDataPath db table))).mapError .gateway,
        w.after engine [Query.tableDataPath db table]) := by
  rw [run_tableDataPath, hc.host, World.run_ask]

/-! ## Both from the same directory -/

section Told

variable {config : Config} {db table part name place : String} (hplace : place ≠ "")
include hplace

/-- A text that is not empty tells the directory of a table. -/
theorem run_tableDataPath_of_text {S : Type} {host : Host (StateM S)} {c : Controller (StateM S)}
    (hc : c.Serves host config) {s s' : S}
    (h : (host.ask (Query.tableDataPath db table)).run s = (.ok (.text place), s')) :
    (c.tableDataPath db table).run.run s = (.ok ⟨place⟩, s') := by
  rw [run_tableDataPath, hc.host, h, readDataPath_text hplace]
  rfl

/-- The detached parts are one component below the table, whatever the spelling of its directory. -/
theorem components_detached :
    ((Path.mk place).entry detachedName).components
      = (Path.mk place).components ++ [.name "detached"] :=
  Path.components_entry (by decide) hplace

/-- A part that is a single name is one component below the detached parts. -/
theorem components_detachedPart (hpart : (Path.mk part).components = [.name name]) :
    (((Path.mk place).entry detachedName).entry part).components
      = (Path.mk place).components ++ [.name "detached"] ++ [.name name] := by
  rw [← components_detached hplace]
  exact Path.components_join_name hpart (Path.entry_text_ne_empty _ (by decide))

/-- The guard looks at the components of the table's directory only. -/
theorem accepts_detached_iff {m : Type → Type} {host : Host m} {c : Controller m}
    (hc : c.Serves host config) :
    c.dataRoot.accepts ((Path.mk place).entry detachedName) = true ↔
      (config.dataPath.entry "data").components
          <+: (Path.mk place).components ++ [.name "detached"] ∧
        .up ∉ (Path.mk place).components ++ [.name "detached"] := by
  rw [PathGuard.accepts_iff, hc.dataRoot, components_detached hplace]

/-- A part that lies where it has to be put, and is no link, lies right where the directory of the
detached parts leads, if none of its directories is a `..`. -/
theorem eq_of_resolve_detachedPart (hpart : (Path.mk part).components = [.name name])
    (hup : .up ∉ (Path.mk place).components ++ [.name "detached"]) {t : Tree} {dir loc : Location}
    (hdir : t.resolve true ((Path.mk place).entry detachedName) = .ok dir) {followLast : Bool}
    (hloc : t.resolve followLast (((Path.mk place).entry detachedName).entry part) = .ok loc)
    (hlink : ∀ target, t.content? (dir ++ [name]) ≠ some (.link target)) :
    loc = dir ++ [name] := by
  have hcomponents := components_detachedPart hplace hpart
  have htext : ((Path.mk place).entry detachedName).text ≠ "" :=
    Path.entry_text_ne_empty _ (by decide)
  have hmem : .name name ∈ (((Path.mk place).entry detachedName).entry part).components := by
    rw [hcomponents]
    exact List.mem_append_right _ (List.mem_singleton_self _)
  have hpartText := Path.text_ne_empty_of_mem hmem
  refine Tree.LeadsTo.eq_append htext hpartText ?_ ?_ (Tree.leadsTo_of_resolve hdir)
    (Tree.leadsTo_of_resolve hloc) ?_ fun hnil => nomatch hnil
  · rw [hcomponents, List.mem_append, not_or]
    exact ⟨hup, by simp⟩
  · rw [hcomponents, components_detached hplace]
    rfl
  · -- The only way from the directory is the name of the part.
    intro q r hqr hq _
    obtain ⟨rfl, -⟩ : q = [name] ∧ r = [] := by
      rcases List.singleton_eq_append_iff.mp hqr with ⟨hnil, -⟩ | hsplit
      · exact absurd hnil hq
      · exact hsplit
    exact hlink

/-- A request that is met on the files gives every entry of a part that lies right in the directory
of the detached parts to the user and the group. -/
theorem exists_owner_of_changeOwnership (hpart : (Path.mk part).components = [.name name])
    (hup : .up ∉ (Path.mk place).components ++ [.name "detached"]) {t : Tree}
    {authority : Authority} {user group : String}
    (hdone : (t.changeOwnership authority ((Path.mk place).entry detachedName) user group).1
      = .ok ()) :
    let detached := (Path.mk place).entry detachedName
    let t' := (t.changeOwnership authority detached user group).2
    ∃ owner dir, authority.accounts.owner user group = .ok owner ∧
      t.resolve true detached = .ok dir ∧
      (∀ l, atOrBelow (dir ++ [name]) l = true →
        t'.node? l = (t.node? l).map ({ · with owner })) ∧
      ∀ followLast loc, t.resolve followLast (detached.entry part) = .ok loc →
        (∀ target, t.content? (dir ++ [name]) ≠ some (.link target)) → loc = dir ++ [name] := by
  intro detached t'
  obtain ⟨owner, dir, howner, hdir, hgiven, -⟩ := Tree.exists_of_changeOwnership hdone
  refine ⟨owner, dir, howner, hdir, fun l hl => ?_, fun followLast loc hloc hlink =>
    eq_of_resolve_detachedPart hplace hpart hup hdir hloc hlink⟩
  exact hgiven l (Tree.hasNameBelow_of_below (Tree.below_of_atOrBelow_entry hl))

end Told

/-- From one text that the engine tells both times, whatever its spelling: a part that is a single
name has to be put right into the directory `detached` of the table; an ownership change is a single
request for this directory, for the configured user and group, if the directory lies in that of all
tables and never leads up, and else it is refused without a request. So if a request is met on the
files, every entry of a part that lies where it has to be put belongs to the configured user and
group afterwards, at any depth. -/
theorem restore_paths_agree (config : Config) {db table part name place : String}
    (hpart : (Path.mk part).components = [.name name]) (hplace : place ≠ "") :
    let query := Query.tableDataPath db table
    let data := config.dataPath.entry "data"
    let detached := (Path.mk place).entry "detached"
    let inner := (Path.mk place).components ++ [.name "detached"]
    (∀ {S : Type} {host : Host (StateM S)} {c : Controller (StateM S)}, c.Serves host config →
      ∀ s s', (host.ask query).run s = (.ok (.text place), s') →
        (c.detachedPartPath db table part).run.run s = (.ok (detached.entry part), s') ∧
        (detached.entry part).components = inner ++ [.name name] ∧
        detached.components = (detached.entry part).components.dropLast ∧
        (data.components <+: inner ∧ .up ∉ inner →
          let request := (host.changeOwnership detached config.user config.group).run s'
          (c.chownDetached db table).run.run s
            = (request.1.mapError (.file detached), request.2)) ∧
        (¬ (data.components <+: inner ∧ .up ∉ inner) →
          (c.chownDetached db table).run.run s = (.error (.pathViolation detached data), s'))) ∧
    ∀ {σ : Type} {engine : Engine σ} {delegate : Delegate} {c : Controller (StateM (World σ))},
      c.Serves (World.host engine delegate) config →
      ∀ w, w.answer engine query = .ok (.text place) →
        let t := (w.after engine [query]).tree
        let run := (c.chownDetached db table).run.run w
        (∀ answer, delegate = .noted answer →
          run.2.requests = w.requests ++
            if data.components <+: inner ∧ .up ∉ inner then
              [⟨detached, config.user, config.group⟩] else []) ∧
        ∀ authority, delegate = .acting authority → run.1 = .ok () →
          ∃ owner dir, authority.accounts.owner config.user config.group = .ok owner ∧
            t.resolve true detached = .ok dir ∧
            (∀ l, atOrBelow (dir ++ [name]) l = true →
              run.2.tree.node? l = (t.node? l).map ({ · with owner })) ∧
            ∀ followLast loc, t.resolve followLast (detached.entry part) = .ok loc →
              (∀ target, t.content? (dir ++ [name]) ≠ some (.link target)) →
                loc = dir ++ [name] := by
  intro query data detached inner
  have hmiddle : detached.components = inner := components_detached hplace
  have hend : (detached.entry part).components = inner ++ [.name name] :=
    components_detachedPart hplace hpart
  refine ⟨fun {S host c} hc s s' h => ?_, fun {σ engine delegate c} hc w hanswer => ?_⟩
  · have htold := run_tableDataPath_of_text hplace hc h
    have haccepts := accepts_detached_iff hplace hc
    refine ⟨run_detachedPartPath htold part, hend, ?_, fun hinside => ?_, fun houtside => ?_⟩
    · rw [hmiddle, hend, List.dropLast_concat]
    · rw [← hc.host, ← hc.user, ← hc.group]
      exact run_chownDetached htold (haccepts.mpr hinside)
    · rw [show data = c.dataRoot.root from hc.dataRoot.symm]
      exact run_chownDetached_of_refused htold
        (Bool.eq_false_iff.mpr fun h => houtside (haccepts.mp h))
  · intro t run
    have hasked : ((World.host engine delegate).ask query).run w
        = (.ok (.text place), w.after engine [query]) := by
      rw [World.run_ask, hanswer]
    have htold := run_tableDataPath_of_text hplace hc hasked
    have haccepts := accepts_detached_iff hplace hc
    -- The guard decides between one request and none.
    by_cases hinside : data.components <+: inner ∧ .up ∉ inner
    · have hrun := run_chownDetached htold (haccepts.mpr hinside)
      rw [hc.host, hc.user, hc.group] at hrun
      refine ⟨?_, ?_⟩
      · rintro answer rfl
        rw [if_pos hinside, show run = _ from hrun]
        change (w.after engine [query]).requests ++ [_] = _
        rw [World.requests_after]
        rfl
      · rintro authority rfl hok
        rw [show run = _ from hrun] at hok ⊢
        have hdone : (t.changeOwnership authority detached config.user config.group).1 = .ok () :=
          eq_ok_of_mapError hok
        exact exists_owner_of_changeOwnership hplace hpart hinside.2 hdone
    · have hrun : run
          = (.error (.pathViolation detached c.dataRoot.root), w.after engine [query]) :=
        run_chownDetached_of_refused htold
          (Bool.eq_false_iff.mpr fun h => hinside (haccepts.mp h))
      rw [hrun]
      refine ⟨fun answer _ => ?_, fun authority _ hok => by cases hok⟩
      rw [if_neg hinside, List.append_nil, World.requests_after]

/-- A tree with a part of two levels that was put where it has to be. -/
def placedPart : Tree :=
  ⟨[(["ch"], { content := .directory }), (["ch", "data"], { content := .directory }),
    (["ch", "data", "t"], { content := .directory }),
    (["ch", "data", "t", "detached"], { content := .directory }),
    (["ch", "data", "t", "detached", "all_1_1_0"], { content := .directory }),
    (["ch", "data", "t", "detached", "all_1_1_0", "p.proj"], { content := .directory }),
    (["ch", "data", "t", "detached", "all_1_1_0", "p.proj", "rows"], { content := .link "n" })]⟩

/-- An engine that spells the directory of its table with more slashes than needed leads both to the
same part, and the link deep in it is given to the configured user and group. -/
theorem restore_paths_agree_placedPart :
    let engine := constantEngine (.ok (.text "/ch//data/t/"))
    let c : Controller (StateM (World Unit)) :=
      serving (World.host engine
          (.acting { accounts := ⟨[("u", 7)], [("g", 8)]⟩, mayGive := true }))
        ⟨⟨"/ch"⟩, "u", "g", {}, {}⟩ ⟨[21, 8], "21.8"⟩
    let w : World Unit := ⟨(), placedPart, [], [], [], [], []⟩
    ((c.detachedPartPath "db" "t" "all_1_1_0").run.run w).1
        = .ok ⟨"/ch//data/t/detached/all_1_1_0"⟩ ∧
      ((c.chownDetached "db" "t").run.run w).1 = .ok () ∧
      ((c.chownDetached "db" "t").run.run w).2.tree.node?
          ["ch", "data", "t", "detached", "all_1_1_0", "p.proj", "rows"]
        = some ⟨.link "n", ⟨7, 8⟩, none⟩ := by
  intro engine c w
  have hc := serving_serves (World.host engine
      (.acting { accounts := ⟨[("u", 7)], [("g", 8)]⟩, mayGive := true }))
    ⟨⟨"/ch"⟩, "u", "g", {}, {}⟩ ⟨[21, 8], "21.8"⟩
  have hpart : (Path.mk "all_1_1_0").components = [.name "all_1_1_0"] := by decide +kernel
  have hplace : "/ch//data/t/" ≠ "" := by decide
  obtain ⟨hany, hworld⟩ := restore_paths_agree ⟨⟨"/ch"⟩, "u", "g", {}, {}⟩ hpart hplace
  obtain ⟨hpath, -, -, hinside, -⟩ := hany hc w _ rfl
  have hgiven : ((c.chownDetached "db" "t").run.run w).1 = .ok () := by
    rw [hinside (by decide +kernel)]
    rfl
  obtain ⟨-, hacting⟩ := hworld hc w rfl
  obtain ⟨owner, dir, howner, hdir, hnodes, -⟩ := hacting _ rfl hgiven
  obtain rfl : owner = ⟨7, 8⟩ := (Except.ok.inj howner).symm
  have hleads : placedPart.resolve true ⟨"/ch//data/t/detached"⟩
      = .ok ["ch", "data", "t", "detached"] := by decide +kernel
  obtain rfl : dir = ["ch", "data", "t", "detached"] :=
    Except.ok.inj ((show placedPart.resolve true ⟨"/ch//data/t/detached"⟩ = .ok dir from
      hdir).symm.trans hleads)
  refine ⟨congrArg Prod.fst hpath, hgiven, ?_⟩
  rw [hnodes _ rfl]
  rfl

end TableSnapshots.Controller
