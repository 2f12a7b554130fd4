import TableSnapshots.Proofs.Controller.Confinement
import TableSnapshots.Proofs.Freeze.Enumeration
import TableSnapshots.Proofs.Freeze.Removal
import TableSnapshots.Proofs.Part.Apart

/-!
# Snapshots apart from each other

Freezes with different numbers lie in different directories, since no two numbers have the same
decimal. So no part of one is part of the other, and removing parts of one leaves the list of the
other as it was (`snapshots_independent`). What has to be excluded are links: below the shadow
directory, where one freeze could lead into the other, and above it those that lead to the shadow
directory through a part that is removed (`not_independent_of_way`).
-/

namespace TableSnapshots

namespace Controller

/-! ## One freeze statement -/

/-- Send a freeze statement and collect the parts that it made. -/
def freezeOnce {m : Type → Type} [Monad m] (c : Controller m) (statement db table : String)
    (relative : Path) : Op m (List FrozenPart) := do
  let _ ← c.ask statement
  c.collectParts db table relative

variable {σ : Type} {engine : Engine σ} {delegate : Delegate} {config : Config}
  {c : Controller (StateM (World σ))}

/-- A freeze statement of a table succeeded: the counter was read as `number` after it, and the
parts were collected. -/
structure Froze (c : Controller (StateM (World σ))) (statement db table : String)
    (relative : Path) (w w' : World σ) (number : Nat) (parts : List FrozenPart) : Prop where
  /-- The table lies below the engine's directory. -/
  place : ∃ p, c.relativePath p = .ok relative
  /-- The statement leaves a world, and these parts are found there. -/
  run : (c.freezeOnce statement db table relative).run.run w = (.ok parts, w')
  /-- This is the number that is read there. -/
  number : c.generation.run.run w' = (.ok number, w')
  /-- The files are as a file system has them. -/
  tree : w'.tree.WellFormed

section Froze

variable {statement db table : String} {relative : Path} {w w' : World σ} {number : Nat}
  {parts : List FrozenPart}

/-- A number that the counter tells is read. -/
theorem run_generation_of_number (hc : c.Serves (World.host engine delegate) config)
    (h : w.tree.readFile config.counterPath >>= readGeneration = .ok number) :
    c.generation.run.run w = (.ok number, w) := by
  unfold Config.counterPath at h
  rw [run_generation hc, hc.incrementPath, h]
  rfl

/-- A statement that succeeded in an engine that leaves files as a file system has them did so with
some number. -/
theorem exists_froze (hc : c.Serves (World.host engine delegate) config)
    (hengine : engine.KeepsWellFormed) (hw : w.tree.WellFormed)
    (hplace : ∃ p, c.relativePath p = .ok relative)
    (h : (c.freezeOnce statement db table relative).run.run w = (.ok parts, w')) :
    w'.tree.WellFormed ∧ ∃ number, c.Froze statement db table relative w w' number parts := by
  obtain ⟨reply, v, -, hcollect⟩ := exists_of_run_bind h
  have hrun := (run_ask_collectParts hc db table relative w statement).symm.trans h
  rw [run_collectParts hc] at hcollect
  obtain ⟨hparts, rfl⟩ := Prod.mk.inj hcollect
  have htree : v.tree.WellFormed := by
    rw [← (Prod.mk.inj hrun).2]
    exact World.wellFormed_after hengine hw [statement]
  obtain ⟨number, hnumber, -⟩ := Reference.exists_of_frozenParts hparts
  exact ⟨htree, number, hplace, h, run_generation_of_number hc hnumber, htree⟩

/-- Every part that a freeze of partitions returns was collected after a statement for one. -/
theorem exists_froze_of_mem_freezePartitions
    (hc : c.Serves (World.host engine delegate) config) (hengine : engine.KeepsWellFormed)
    (hplace : ∃ p, c.relativePath p = .ok relative) {partitions : List Partition}
    (hw : w.tree.WellFormed)
    (h : (c.freezePartitions db table relative partitions).run.run w = (.ok parts, w'))
    {part : FrozenPart} (hpart : part ∈ parts) :
    ∃ statement v v' number ps, IsFreeze statement ∧
      c.Froze statement db table relative v v' number ps ∧ part ∈ ps := by
  induction partitions generalizing w parts with
  | nil =>
    cases h
    cases hpart
  | cons p partitions ih =>
    rw [freezePartitions_cons] at h
    obtain ⟨first, v, hfirst, h⟩ := exists_of_run_bind h
    obtain ⟨rest, v', hrest, h⟩ := exists_of_run_bind h
    cases h
    obtain ⟨hv, number, hfroze⟩ := exists_froze hc hengine hw hplace hfirst
    rcases List.mem_append.mp hpart with hpart | hpart
    · exact ⟨_, _, _, number, first, .inr ⟨db, table, p.name, rfl⟩, hfroze, hpart⟩
    · exact ih hv hrest hpart

/-- Every part that the freeze of a table returns was collected after a freeze statement. -/
theorem exists_froze_of_mem_freezeTable (hc : c.Serves (World.host engine delegate) config)
    (hengine : engine.KeepsWellFormed) (hw : w.tree.WellFormed)
    (h : (c.freezeTable db table).run.run w = (.ok parts, w')) {part : FrozenPart}
    (hpart : part ∈ parts) :
    ∃ statement relative v v' number ps, IsFreeze statement ∧
      c.Froze statement db table relative v v' number ps ∧ part ∈ ps := by
  unfold freezeTable at h
  obtain ⟨path, v, hpath, h⟩ := exists_of_run_bind h
  obtain ⟨relative, _, hrelative, h⟩ := exists_of_run_bind h
  obtain ⟨hplace, rfl⟩ := Prod.mk.inj ((run_ofExcept _ v).symm.trans hrelative)
  have hv : v.tree.WellFormed := by
    have hrun := (run_tableDataPath c db table w).symm.trans hpath
    rw [hc.host, World.run_ask] at hrun
    rw [← (Prod.mk.inj hrun).2]
    exact World.wellFormed_after hengine hw _
  cases hstrategy : c.strategy with
  | wholeTable =>
    rw [hstrategy] at h
    obtain ⟨-, number, hfroze⟩ := exists_froze hc hengine hv ⟨path, hplace⟩ h
    exact ⟨_, relative, v, _, number, parts, .inl ⟨db, table, rfl⟩, hfroze, hpart⟩
  | perPartition =>
    rw [hstrategy] at h
    obtain ⟨partitions, v', hpartitions, h⟩ := exists_of_run_bind h
    have hv' : v'.tree.WellFormed := by
      obtain ⟨names, _, hnames, hrest⟩ := exists_of_run_bind hpartitions
      cases hrest
      have hrun := (run_askColumn c _ _ v).symm.trans hnames
      rw [hc.host, World.run_ask] at hrun
      rw [← (Prod.mk.inj hrun).2]
      exact World.wellFormed_after hengine hv _
    obtain ⟨statement, u, u', number, ps, hfroze⟩ :=
      exists_froze_of_mem_freezePartitions hc hengine ⟨path, hplace⟩ hv' h hpart
    exact ⟨statement, relative, u, u', number, ps, hfroze⟩

variable (hc : c.Serves (World.host engine delegate) config) (hdata : config.dataPath.text ≠ "")
  (h : c.Froze statement db table relative w w' number parts)

include hc h in
/-- The parts are those that the directory of the number lists. -/
theorem Froze.parts_eq :
    w'.tree.parts (config.frozenPath number relative) db table = .ok parts := by
  obtain ⟨reply, v, -, hcollect⟩ := exists_of_run_bind h.run
  rw [run_collectParts hc] at hcollect
  obtain ⟨hparts, rfl⟩ := Prod.mk.inj hcollect
  obtain ⟨number', hnumber', hlisted⟩ := Reference.exists_of_frozenParts hparts
  have hnumber := h.number
  rw [run_generation hc, hc.incrementPath] at hnumber
  unfold Config.counterPath at hnumber'
  rw [hnumber'] at hnumber
  obtain rfl : number' = number := Except.ok.inj (Prod.mk.inj hnumber).1
  exact hlisted

include hc hdata h

/-- That directory goes on from the shadow directory with the number. -/
theorem Froze.exists_extends :
    (config.dataPath.entry "shadow").Direct ∧
      ∃ names, (config.frozenPath number relative).Extends (config.dataPath.entry "shadow")
        (Text.decimal number :: names) := by
  -- The engine's directory starts a path that never leads up, so it does not lead up either.
  obtain ⟨p, hp⟩ := h.place
  have hbelow := liesBelow_of_relativePath hc hdata hp
  have hup : .up ∉ config.dataPath.components := by
    obtain ⟨rest, -, hrest⟩ := hbelow.1
    exact fun hmem => hbelow.2 (hrest ▸ List.mem_append_left _ hmem)
  rw [(eq_remainder_of_relativePath hc hp).2]
  exact ⟨Path.direct_entry PathGuard.isName_shadow hdata hup,
    Config.exists_extends_frozenPath hdata hbelow number⟩

/-- So do its parts. -/
theorem Froze.exists_extends_part {part : FrozenPart} (hpart : part ∈ parts) :
    ∃ names, part.path.Extends (config.dataPath.entry "shadow") (Text.decimal number :: names) := by
  obtain ⟨-, names, hdir⟩ := h.exists_extends hc hdata
  obtain ⟨hpath, hname, -⟩ := h.tree.of_mem_parts (h.parts_eq hc) hpart
  rw [hpath]
  exact ⟨_, hdir.entry hname⟩

/-- No two parts of a statement have the same path. -/
theorem Froze.nodup : (parts.map (·.path.components)).Nodup := by
  obtain ⟨-, names, hdir⟩ := h.exists_extends hc hdata
  have hcomponents : parts.map (·.path.components) = (parts.map (·.name)).map
      fun s => (config.frozenPath number relative).components ++ [.name s] := by
    rw [List.map_map]
    refine List.map_congr_left fun part hpart => ?_
    obtain ⟨hpath, hname, -⟩ := h.tree.of_mem_parts (h.parts_eq hc) hpart
    rw [hpath, Path.components_entry hname hdir.text_ne_empty]
    rfl
  -- They lie in one directory, so their names tell their paths apart.
  rw [hcomponents]
  refine (h.tree.nodup_parts (h.parts_eq hc)).map fun s s' hs => ?_
  simpa using hs

end Froze

/-! ## Removals -/

/-- The world after removals of parts, each under a policy of its own, whether they succeed or
not. -/
def removeEach (c : Controller (StateM (World σ))) (removals : List (RetryPolicy × FrozenPart))
    (w : World σ) : World σ :=
  removals.foldl (fun w r => (((c.withRetryPolicy r.1).removeSnapshot r.2).run.run w).2) w

/-- They take away nothing that is not where one of their paths leads or below. -/
theorem prunedAlong_removeEach (hc : c.Serves (World.host engine delegate) config)
    {removals : List (RetryPolicy × FrozenPart)} {ps : List Path}
    (hps : ∀ r ∈ removals, r.2.path ∈ ps) (w : World σ) :
    w.tree.PrunedAlong ps (c.removeEach removals w).tree := by
  induction removals generalizing w with
  | nil => exact .refl w.tree ps
  | cons r removals ih =>
    have hfirst := prunedAlong_removeSnapshotPath (hc.withRetryPolicy r.1)
      (hps r List.mem_cons_self) w
    exact hfirst.trans (ih (fun r' hr' => hps r' (List.mem_cons_of_mem r hr')) _)

/-- The parts of one freeze statement have different paths. They are apart from those of another
statement, of the same table or of another one, after which another number was read: no path of one
is that of the other, or lies in it. In any world with files as a file system has them, and without
links in the shadow directory, removing any parts of the one statement, in any order and under any
policies, leaves the list of the directory of the other statement as it was. Only the way to the
shadow directory must not lead through the removed parts. -/
theorem snapshots_independent (hc : c.Serves (World.host engine delegate) config)
    (hdata : config.dataPath.text ≠ "") {statement db table : String} {relative : Path}
    {w w' : World σ} {number : Nat} {parts : List FrozenPart}
    (h : c.Froze statement db table relative w w' number parts) :
    (parts.map (·.path.components)).Nodup ∧
    ∀ {statement' db' table' relative' v v' number' parts'},
      c.Froze statement' db' table' relative' v v' number' parts' → number ≠ number' →
      (∀ part ∈ parts, ∀ part' ∈ parts',
        ¬ part.path.components <+: part'.path.components ∧
          ¬ part'.path.components <+: part.path.components) ∧
      ∀ (u : World σ) (removals : List (RetryPolicy × FrozenPart)),
        (∀ r ∈ removals, r.2 ∈ parts) → u.tree.WellFormed →
        u.tree.LinkFree c.shadowRoot.root →
        (∀ r ∈ removals, u.tree.Avoids c.shadowRoot.root r.2.path) →
        let list := FrozenPart.enumerate c.host.toFiles (c.frozenPath number' relative') db' table'
        (list.run (c.removeEach removals u)).1 = (list.run u).1 := by
  refine ⟨h.nodup hc hdata, fun h' hne => ⟨fun part hpart part' hpart' => ?_,
    fun u removals hparts hu hlinks hway => ?_⟩⟩
  · obtain ⟨names, hextends⟩ := h.exists_extends_part hc hdata hpart
    obtain ⟨names', hextends'⟩ := h'.exists_extends_part hc hdata hpart'
    exact ⟨hextends.not_prefix hextends' fun heq => hne (Text.decimal_injective heq),
      hextends'.not_prefix hextends fun heq => hne (Text.decimal_injective heq).symm⟩
  · -- All that is removed goes on from the shadow directory with the one number, and the listed
    -- directory with the other.
    intro list
    rw [hc.shadowRoot] at hlinks hway
    obtain ⟨hroot, names', hdir⟩ := h'.exists_extends hc hdata
    have hpruned : u.tree.PrunedAlong (removals.map (·.2.path)) (c.removeEach removals u).tree :=
      prunedAlong_removeEach hc (fun r hr => List.mem_map.mpr ⟨r, hr, rfl⟩) u
    have hextends : ∀ p ∈ removals.map (·.2.path), ∃ names,
        p.Extends (config.dataPath.entry "shadow") (Text.decimal number :: names) := by
      intro p hp
      obtain ⟨r, hr, rfl⟩ := List.mem_map.mp hp
      exact h.exists_extends_part hc hdata (hparts r hr)
    have havoids : ∀ p ∈ removals.map (·.2.path),
        u.tree.Avoids (config.dataPath.entry "shadow") p := by
      intro p hp
      obtain ⟨r, hr, rfl⟩ := List.mem_map.mp hp
      exact hway r hr
    obtain ⟨keep, htree, hspares⟩ := hpruned.exists_spares hroot hextends hlinks havoids
    dsimp only [list]
    rw [hc.host, hc.frozenPath, FrozenPart.enumerate_host, FrozenPart.enumerate_host, htree]
    exact hspares.parts hroot hdir (fun heq => hne (Text.decimal_injective heq).symm) hu _ _

/-! ## Two freezes -/

/-- The files after so many freezes of one table with one part. The engine's directory is in place,
or it is a link whose target takes the way through the part of the first freeze. -/
def generations (linked : Bool) (number : Nat) : Tree :=
  let root := if linked then "real" else "ch"
  let directory : Node := { content := .directory }
  let copies := (List.range number).flatMap fun n =>
    let copy := [root, "shadow", Text.decimal (n + 1)]
    [(copy, directory), (copy ++ ["data"], directory), (copy ++ ["data", "db"], directory),
      (copy ++ ["data", "db", "t"], directory), (copy ++ ["data", "db", "t", "p"], directory),
      (copy ++ ["data", "db", "t", "p", "checksums.txt"], { content := .file ⟨#[1]⟩ })]
  let link : Node := { content := .link "real/shadow/1/data/db/t/p/../../../../../.." }
  ⟨(if linked then [(["ch"], link)] else []) ++ [([root], directory), ([root, "shadow"], directory),
    ([root, "shadow", "increment.txt"], { content := .file (Text.decimal number).toUTF8 })]
    ++ copies⟩

/-- An engine that freezes the table with every statement, and counts. -/
def counting (linked : Bool) : Engine Nat := fun _ n _ =>
  (.ok (.text ""), n + 1, generations linked (n + 1))

/-- The world after so many freezes. -/
def countingWorld (linked : Bool) (number : Nat) (queries : List String) : World Nat :=
  ⟨number, generations linked number, queries, [], [], [], []⟩

/-- The controller for that engine. -/
def countingController (linked : Bool) : Controller (StateM (World Nat)) :=
  serving (World.host (counting linked) (.noted (.ok ()))) ⟨⟨"/ch"⟩, "u", "g", {}, {}⟩
    ⟨[21, 8], "21.8"⟩

/-- It is for that engine. -/
theorem countingController_serves (linked : Bool) :
    (countingController linked).Serves (World.host (counting linked) (.noted (.ok ())))
      ⟨⟨"/ch"⟩, "u", "g", {}, {}⟩ :=
  serving_serves _ _ _

/-- The directory of the part in the freeze of this number. -/
def generationDirectory (number : Nat) : Path :=
  ((Path.mk "/ch").entry "shadow" |>.entry (Text.decimal number)).join ⟨"data/db/t"⟩

/-- The part in that freeze. -/
def generationPart (number : Nat) : FrozenPart where
  database := "db"
  table := "t"
  name := "p"
  path := (generationDirectory number).entry "p"
  checksum := fingerprint ⟨#[1]⟩
  size := 1

/-- After the first freeze and after the second one the part of it is found. -/
theorem parts_generations (linked : Bool) {number counter : Nat} (hnumber : 0 < number)
    (hle : number ≤ counter) (hcounter : counter ≤ 2) :
    (generations linked counter).parts (generationDirectory number) "db" "t"
      = .ok [generationPart number] := by
  have hcases : (number = 1 ∧ counter = 1) ∨ (number = 1 ∧ counter = 2) ∨
      (number = 2 ∧ counter = 2) := by omega
  have hlist : (generations linked counter).listDirectory (generationDirectory number)
      = .ok [⟨"p", .directory⟩] := by
    rcases hcases with ⟨rfl, rfl⟩ | ⟨rfl, rfl⟩ | ⟨rfl, rfl⟩ <;> cases linked <;> rfl
  have hnames : FrozenPart.directoryNames [⟨"p", .directory⟩] = ["p"] :=
    List.mergeSort_singleton "p"
  have hpart : (generations linked counter).part (generationDirectory number) "db" "t" "p"
      = .ok (generationPart number) := by
    rcases hcases with ⟨rfl, rfl⟩ | ⟨rfl, rfl⟩ | ⟨rfl, rfl⟩ <;> cases linked <;> rfl
  unfold Tree.parts
  rw [hlist]
  dsimp only
  rw [hnames, List.map_cons, hpart]
  rfl

/-- The number that is read is that of the latest freeze. -/
theorem counter_generations (linked : Bool) {number : Nat} (hpos : 0 < number) (hle : number ≤ 2) :
    (generations linked number).readFile (Config.counterPath ⟨⟨"/ch"⟩, "u", "g", {}, {}⟩)
      >>= readGeneration = .ok number := by
  have hcases : number = 1 ∨ number = 2 := by omega
  rcases hcases with rfl | rfl <;> cases linked <;> rfl

/-- The files are those of a file system. -/
theorem wellFormed_generations (linked : Bool) {number : Nat} (hle : number ≤ 2) :
    (generations linked number).WellFormed := by
  have hcases : number = 0 ∨ number = 1 ∨ number = 2 := by omega
  rcases hcases with rfl | rfl | rfl <;> cases linked <;> decide +kernel

/-- The table lies below the engine's directory. -/
theorem relativePath_counting (linked : Bool) :
    (countingController linked).relativePath ⟨"/ch/data/db/t"⟩ = .ok ⟨"data/db/t"⟩ := by
  have haccepts : (PathGuard.mk ⟨"/ch"⟩).accepts ⟨"/ch/data/db/t"⟩ = true := by decide +kernel
  have hremainder : (Path.mk "/ch/data/db/t").remainder (Path.mk "/ch").components.length
      = ⟨"data/db/t"⟩ := by decide +kernel
  refine (relativePath_of_accepts haccepts).trans ?_
  change (if ((Path.mk "/ch/data/db/t").remainder (Path.mk "/ch").components.length).text = ""
    then _ else Except.ok ((Path.mk "/ch/data/db/t").remainder
      (Path.mk "/ch").components.length)) = _
  rw [hremainder, if_neg (by decide)]

/-- The two freezes succeed. -/
theorem froze_generations (linked : Bool) (statement : String) (queries : List String)
    (t : Tree) {n : Nat} (hn : n < 2) :
    (countingController linked).Froze statement "db" "t" ⟨"data/db/t"⟩
      ⟨n, t, queries, [], [], [], []⟩ (countingWorld linked (n + 1) (queries ++ [statement]))
      (n + 1) [generationPart (n + 1)] := by
  have hc := countingController_serves linked
  have hcounter := counter_generations linked n.succ_pos hn
  refine ⟨⟨_, relativePath_counting linked⟩, ?_, ?_, wellFormed_generations linked hn⟩
  · refine (run_ask_collectParts hc "db" "t" _ _ statement).trans (Prod.ext ?_ rfl)
    change Reference.frozenParts _ "db" "t" _ (generations linked (n + 1)) = _
    rw [Reference.frozenParts_of_number hcounter]
    exact congrArg (Except.mapError _) (parts_generations linked n.succ_pos (le_refl (n + 1)) hn)
  · exact run_generation_of_number hc hcounter

/-- One statement for the whole table and one for a partition of it. -/
def generationQueries : List String :=
  [Query.freezeTable "db" "t", Query.freezePartition "db" "t" "1"]

/-- From no freeze at all they make the first one and the second one. -/
theorem froze_generationQueries (linked : Bool) :
    (countingController linked).Froze (Query.freezeTable "db" "t") "db" "t" ⟨"data/db/t"⟩
      ⟨0, .empty, [], [], [], [], []⟩ (countingWorld linked 1 [Query.freezeTable "db" "t"]) 1
      [generationPart 1] ∧
    (countingController linked).Froze (Query.freezePartition "db" "t" "1") "db" "t" ⟨"data/db/t"⟩
      (countingWorld linked 1 [Query.freezeTable "db" "t"])
      (countingWorld linked 2 generationQueries) 2 [generationPart 2] :=
  ⟨froze_generations linked _ [] .empty Nat.two_pos,
    froze_generations linked _ [Query.freezeTable "db" "t"] (generations linked 1) Nat.one_lt_two⟩

/-- No link is in the shadow directory, wherever it is. -/
theorem linkFree_generations (linked : Bool) :
    (generations linked 2).LinkFree ((Path.mk "/ch").entry "shadow") := by
  have hresolve : (generations linked 2).resolve true ((Path.mk "/ch").entry "shadow")
      = .ok [if linked then "real" else "ch", "shadow"] := by cases linked <;> rfl
  exact Tree.linkFree_of_resolve hresolve (by cases linked <;> decide +kernel)

/-- The list of a freeze's directory is that of the parts in the tree. -/
theorem run_enumerate_counting (linked : Bool) (number : Nat) (w : World Nat) :
    ((FrozenPart.enumerate (countingController linked).host.toFiles
        ((countingController linked).frozenPath number ⟨"data/db/t"⟩) "db" "t").run w).1
      = w.tree.parts (generationDirectory number) "db" "t" := by
  have hdirectory : (countingController linked).frozenPath number ⟨"data/db/t"⟩
      = generationDirectory number := rfl
  rw [hdirectory, (countingController_serves linked).host, FrozenPart.enumerate_host]

/-- Of two freezes the part of the second one is listed as before when that of the first one was
removed. -/
theorem snapshots_independent_generations :
    let c := countingController false
    let queries := [Query.freezeTable "db" "t", Query.freezePartition "db" "t" "1"]
    ((FrozenPart.enumerate c.host.toFiles (c.frozenPath 2 ⟨"data/db/t"⟩) "db" "t").run
        (c.removeEach [(.once, generationPart 1)] (countingWorld false 2 queries))).1
      = .ok [generationPart 2] := by
  intro c queries
  have hc := countingController_serves false
  have hwell := wellFormed_generations false (le_refl 2)
  have hroot : ((Path.mk "/ch").entry "shadow").Direct :=
    Path.direct_entry PathGuard.isName_shadow (by decide) (by decide +kernel)
  have hlinks := linkFree_generations false
  obtain ⟨hfirst, hsecond⟩ := froze_generationQueries false
  obtain ⟨names, hextends⟩ := hfirst.exists_extends_part hc (by decide) List.mem_cons_self
  have hnames : ((Path.mk "/ch").entry "shadow").names = ["ch", "shadow"] := by decide +kernel
  have hway : (generations false 2).Avoids ((Path.mk "/ch").entry "shadow")
      (generationPart 1).path :=
    Tree.avoids_of_directory hwell.nested hroot (by rw [hnames]; rfl) hlinks hextends
  obtain ⟨-, hother⟩ := snapshots_independent hc (by decide) hfirst
  obtain ⟨-, hlist⟩ := hother hsecond (by decide)
  have hsame := hlist (countingWorld false 2 queries) [(.once, generationPart 1)]
    (fun r hr => by
      rw [List.mem_singleton.mp hr]
      exact List.mem_cons_self)
    hwell hlinks
    (fun r hr => by
      rw [List.mem_singleton.mp hr]
      exact hway)
  exact (hsame.trans (run_enumerate_counting false 2 _)).trans
    (parts_generations false Nat.two_pos (le_refl 2) (le_refl 2))

/-- It is not, although no link is in the shadow directory, if the way there leads through the part
that was removed. -/
theorem not_independent_of_way :
    ¬ ∀ (engine : Engine Nat) (delegate : Delegate) (config : Config)
        (c : Controller (StateM (World Nat))), c.Serves (World.host engine delegate) config →
      config.dataPath.text ≠ "" →
      ∀ (statement statement' db table db' table' : String) (relative relative' : Path)
        (w w' w'' : World Nat) (number number' : Nat) (parts parts' : List FrozenPart),
        c.Froze statement db table relative w w' number parts →
        c.Froze statement' db' table' relative' w' w'' number' parts' → number ≠ number' →
        w''.tree.LinkFree c.shadowRoot.root →
        ∀ removals : List (RetryPolicy × FrozenPart), (∀ r ∈ removals, r.2 ∈ parts) →
          let list :=
            FrozenPart.enumerate c.host.toFiles (c.frozenPath number' relative') db' table'
          (list.run (c.removeEach removals w'')).1 = (list.run w'').1 := by
  intro hall
  have hc := countingController_serves true
  let gone : Location := ["real", "shadow", "1", "data", "db", "t", "p"]
  let w'' := countingWorld true 2 generationQueries
  have hlinks := linkFree_generations true
  obtain ⟨hfirst, hsecond⟩ := froze_generationQueries true
  have hlist := hall _ _ _ _ hc (by decide) _ _ _ _ _ _ _ _ _ _ w'' _ _ _ _ hfirst hsecond
    (by decide) hlinks [(.once, generationPart 1)] (by simp)
  have haccepts : (PathGuard.mk ((Path.mk "/ch").entry "shadow")).accepts (generationPart 1).path
      = true := by decide +kernel
  -- The removal takes the part away, through which the link at the engine's directory leads.
  have hremove : (settled ((generations true 2).removeAll (generationPart 1).path).1,
      ((generations true 2).removeAll (generationPart 1).path).2)
        = (.ok (), (generations true 2).without gone) := by rfl
  have hrun : (countingController true).removeEach [(.once, generationPart 1)] w''
      = { w'' with tree := (generations true 2).without gone } :=
    congrArg Prod.snd (removeSnapshotPath_of_settled (hc.withRetryPolicy .once) haccepts
      (w := w'') hremove)
  have hbefore := parts_generations true Nat.two_pos (le_refl 2) (le_refl 2)
  have hafter : ((generations true 2).without gone).parts (generationDirectory 2) "db" "t"
      = .ok [] := by rfl
  rw [hrun] at hlist
  have hsame := (run_enumerate_counting true 2 _).symm.trans
    (hlist.trans (run_enumerate_counting true 2 w''))
  cases (hafter.symm.trans hsame).trans hbefore

end Controller

end TableSnapshots
