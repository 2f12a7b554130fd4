import TableSnapshots.Proofs.Freeze.Admission
import TableSnapshots.Proofs.Part.Found

/-!
# What a freeze does

Once the directory of a table is known, a freeze is a list of statements (`Reference.ofStatements`):
one for the whole table, or one for each row of the engine's list of partitions. Each statement
makes the engine change the files, and what it made is looked up in the files as this statement left
them (`Reference.outcome`), before the next one is sent. The result is the parts of all statements
in their order, or the first failure, after which nothing is sent any more.

The reference looks at all statements at once, as if none had failed, and then cuts the list after
the first failure. The operation meets the failures as they come. `freezeTable_eq_reference` says
that both send the same queries, leave the same world and give the same result.
-/

namespace TableSnapshots

namespace Reference

/-! ## The reference -/

/-- The parts that the latest freeze made, going by the counter and the files of a tree. -/
def frozenParts (config : Config) (db table : String) (relative : Path) (t : Tree) :
    Except Error (List FrozenPart) := do
  let shadow := config.dataPath.entry "shadow"
  let counter := shadow.entry "increment.txt"
  let number ← (t.readFile counter >>= Controller.readGeneration).mapError (.generation counter)
  let dir := (shadow.entry (Text.decimal number)).join relative
  (t.parts dir db table).mapError (.file dir)

section Statements

variable {σ : Type} (engine : Engine σ) (config : Config) (db table : String) (relative : Path)

/-- What a statement gives: its own failure, or what it has made by the time it is executed. -/
def outcome (w : World σ) (statement : String) : Except Error (List FrozenPart) :=
  match w.answer engine statement with
  | .error e => .error (.gateway e)
  | .ok _ => frozenParts config db table relative (w.after engine [statement]).tree

/-- What each of some statements gives after all those before it. -/
def outcomes (w : World σ) (statements : List String) : List (Except Error (List FrozenPart)) :=
  statements.mapIdx fun i statement =>
    outcome engine config db table relative (w.after engine (statements.take i)) statement

end Statements

/-- All parts in their order, or the first failure. -/
def inOrder (rs : List (Except Error (List FrozenPart))) : Except Error (List FrozenPart) :=
  (rs.mapM id).map List.flatten

/-- How many statements come before the first one that fails. -/
def beforeFailure (rs : List (Except Error (List FrozenPart))) : Nat :=
  (rs.takeWhile Except.isOk).length

end Reference

/-- What an operation has to send and to give. -/
structure Reference where
  queries : List String
  result : Except Error (List FrozenPart)

namespace Reference

variable {σ : Type} (engine : Engine σ) (config : Config) (db table : String) (relative : Path)

/-- Some statements after some queries. The one that fails first is the last one that is sent. -/
def ofStatements (w : World σ) (before statements : List String) : Reference :=
  let rs := outcomes engine config db table relative (w.after engine before) statements
  { queries := before ++ statements.take (beforeFailure rs + 1)
    result := inOrder rs }

/-- The freeze of a table that lies at `relative`, in the way of a strategy. -/
def freeze (w : World σ) : FreezeStrategy → Reference
  | .wholeTable =>
    ofStatements engine config db table relative w [Query.tableDataPath db table]
      [Query.freezeTable db table]
  | .perPartition =>
    let asked := [Query.tableDataPath db table, Query.tablePartitions db table]
    let listing := (w.after engine [Query.tableDataPath db table]).answer engine
      (Query.tablePartitions db table)
    match listing >>= Reply.column "partition" with
    | .error e => { queries := asked, result := .error (.gateway e) }
    | .ok names =>
      ofStatements engine config db table relative w asked
        (names.map (Query.freezePartition db table))

/-! ## One statement after the other -/

variable {engine config db table relative}

/-- After the first statement the others start from the world that it left. -/
theorem outcomes_cons (w : World σ) (statement : String) (statements : List String) :
    outcomes engine config db table relative w (statement :: statements)
      = outcome engine config db table relative w statement
        :: outcomes engine config db table relative (w.after engine [statement]) statements := by
  unfold outcomes
  rw [List.mapIdx_cons]
  rfl

/-- A failure is the result, whatever comes after it. -/
theorem inOrder_cons_error (e : Error) (rs : List (Except Error (List FrozenPart))) :
    inOrder (.error e :: rs) = .error e := by
  unfold inOrder
  rw [List.mapM_cons]
  rfl

/-- Parts that were found come before the others. -/
theorem inOrder_cons_ok (parts : List FrozenPart) (rs : List (Except Error (List FrozenPart))) :
    inOrder (.ok parts :: rs) = (inOrder rs).map (parts ++ ·) := by
  unfold inOrder
  rw [List.mapM_cons]
  cases rs.mapM id <;> rfl

/-- A failure at the start has nothing before it. -/
theorem beforeFailure_cons_error (e : Error) (rs : List (Except Error (List FrozenPart))) :
    beforeFailure (.error e :: rs) = 0 := rfl

/-- What succeeds at the start comes before any failure. -/
theorem beforeFailure_cons_ok (parts : List FrozenPart)
    (rs : List (Except Error (List FrozenPart))) :
    beforeFailure (.ok parts :: rs) = beforeFailure rs + 1 := rfl

/-- The result of one statement is what it gives. -/
theorem inOrder_singleton (r : Except Error (List FrozenPart)) : inOrder [r] = r := by
  cases r with
  | error e => exact inOrder_cons_error e []
  | ok parts =>
    rw [inOrder_cons_ok]
    change Except.ok (parts ++ []) = _
    rw [List.append_nil]

end Reference

namespace Controller

open Reference

variable {σ : Type} {engine : Engine σ} {delegate : Delegate} {config : Config}
  {c : Controller (StateM (World σ))} {db table : String} {relative : Path}

/-! ## Looking up what was frozen -/

/-- The counter is the one below `shadow`. -/
theorem Serves.incrementPath {m : Type → Type} {host : Host m} {c : Controller m}
    (hc : c.Serves host config) :
    c.incrementPath = (config.dataPath.entry "shadow").entry "increment.txt" := by
  unfold Controller.incrementPath
  rw [hc.shadowRoot]
  rfl

/-- The counter is read in the tree, and nothing changes. -/
theorem run_generation (hc : c.Serves (World.host engine delegate) config) (w : World σ) :
    c.generation.run.run w
      = ((w.tree.readFile c.incrementPath >>= readGeneration).mapError
          (.generation c.incrementPath), w) := by
  have hread := run_lift ((World.host engine delegate).readFile c.incrementPath) w
  rw [World.run_readFile] at hread
  unfold generation
  rw [hc.host, run_bind_of_ok hread]
  cases w.tree.readFile c.incrementPath with
  | error fault => rfl
  | ok bytes =>
    change _ = ((readGeneration bytes).mapError _, w)
    dsimp only
    cases readGeneration bytes <;> rfl

/-- The parts are looked up in the tree, and nothing changes. -/
theorem run_collectParts (hc : c.Serves (World.host engine delegate) config) (w : World σ) :
    (c.collectParts db table relative).run.run w
      = (frozenParts config db table relative w.tree, w) := by
  have hgeneration := run_generation hc w
  unfold collectParts frozenParts
  dsimp only
  rw [← hc.incrementPath]
  cases hnumber : w.tree.readFile c.incrementPath >>= readGeneration with
  | error fault =>
    rw [hnumber] at hgeneration
    exact run_bind_of_error hgeneration
  | ok number =>
    rw [hnumber] at hgeneration
    rw [run_bind_of_ok hgeneration, hc.host]
    have hfound := run_lift (FrozenPart.enumerate (World.host engine delegate).toFiles
      (c.frozenPath number relative) db table) w
    rw [FrozenPart.enumerate_host] at hfound
    rw [run_bind_of_ok hfound]
    unfold frozenPath
    rw [hc.shadowRoot]
    change _ = ((w.tree.parts (((config.dataPath.entry "shadow").entry
      (Text.decimal number)).join relative) db table).mapError _, w)
    dsimp only
    cases w.tree.parts (((config.dataPath.entry "shadow").entry
      (Text.decimal number)).join relative) db table <;> rfl

/-! ## Freezing -/

/-- A statement leaves the world that the engine leaves, and then its parts are looked up. -/
theorem run_ask_collectParts (hc : c.Serves (World.host engine delegate) config)
    (db table : String) (relative : Path) (w : World σ) (statement : String) :
    (c.ask statement >>= fun _ => c.collectParts db table relative).run.run w
      = (outcome engine config db table relative w statement, w.after engine [statement]) := by
  have hask := run_askHost (World.host engine delegate) statement w
  rw [World.run_ask] at hask
  unfold ask outcome
  rw [hc.host]
  cases hanswer : w.answer engine statement with
  | error e =>
    rw [hanswer] at hask
    exact run_bind_of_error hask
  | ok reply =>
    rw [hanswer] at hask
    rw [run_bind_of_ok hask, run_collectParts hc]

/-- The first partition is frozen and looked up, and then the others are. -/
theorem freezePartitions_cons {m : Type → Type} [Monad m] [LawfulMonad m] (c : Controller m)
    (p : Partition) (ps : List Partition) :
    c.freezePartitions db table relative (p :: ps)
      = (c.ask (Query.freezePartition db table p.name) >>= fun _ =>
          c.collectParts db table relative) >>= fun parts => do
            let rest ← c.freezePartitions db table relative ps
            return parts ++ rest :=
  (bind_assoc _ _ _).symm

/-- Partitions are frozen as the reference says, up to the first failure. -/
theorem run_freezePartitions (hc : c.Serves (World.host engine delegate) config)
    (ps : List Partition) {statements : List String}
    (hstatements : statements = ps.map fun p => Query.freezePartition db table p.name)
    (w : World σ) :
    (c.freezePartitions db table relative ps).run.run w
      = (inOrder (outcomes engine config db table relative w statements),
          w.after engine (statements.take
            (beforeFailure (outcomes engine config db table relative w statements) + 1))) := by
  -- The world changes with every statement, so the induction is over all worlds at once.
  induction ps generalizing w statements with
  | nil =>
    subst hstatements
    rfl
  | cons p ps ih =>
    rw [List.map_cons] at hstatements
    subst hstatements
    have hfirst := run_ask_collectParts hc db table relative w
      (Query.freezePartition db table p.name)
    have hrest := ih rfl (w.after engine [Query.freezePartition db table p.name])
    rw [freezePartitions_cons, outcomes_cons, List.take_succ_cons]
    cases houtcome : outcome engine config db table relative w
      (Query.freezePartition db table p.name) with
    | error e =>
      rw [houtcome] at hfirst
      rw [run_bind_of_error hfirst, inOrder_cons_error, beforeFailure_cons_error]
      rfl
    | ok parts =>
      rw [houtcome] at hfirst
      rw [run_bind_of_ok hfirst, inOrder_cons_ok, beforeFailure_cons_ok,
        World.after_cons engine w _ (List.take _ _)]
      cases hresult : inOrder (outcomes engine config db table relative
        (w.after engine [Query.freezePartition db table p.name])
        (ps.map fun p => Query.freezePartition db table p.name)) with
      | error e =>
        rw [hresult] at hrest
        rw [run_bind_of_error hrest]
        rfl
      | ok rest =>
        rw [hresult] at hrest
        rw [run_bind_of_ok hrest, run_pure]
        rfl

/-- A table whose directory is known is frozen as the reference says. -/
theorem run_freezeTable (hc : c.Serves (World.host engine delegate) config) {w : World σ}
    {text : String}
    (hanswer : w.answer engine (Query.tableDataPath db table) = .ok (.text text))
    (htext : text ≠ "") (hrelative : c.relativePath ⟨text⟩ = .ok relative) :
    (c.freezeTable db table).run.run w
      = ((freeze engine config db table relative w c.strategy).result,
          w.after engine (freeze engine config db table relative w c.strategy).queries) := by
  have hpath := run_tableDataPath c db table w
  rw [hc.host, World.run_ask, hanswer, readDataPath_text htext] at hpath
  have hplace := run_ofExcept (c.relativePath ⟨text⟩)
    (w.after engine [Query.tableDataPath db table])
  rw [hrelative] at hplace
  unfold freezeTable
  rw [run_bind_of_ok hpath, hrelative, run_bind_of_ok hplace]
  cases c.strategy with
  | wholeTable =>
    dsimp only [freeze, ofStatements]
    rw [run_ask_collectParts hc, outcomes_cons, World.after_append, List.take_succ_cons,
      List.take_nil]
    exact congrArg (·, _) (inOrder_singleton _).symm
  | perPartition =>
    -- A list of partitions that cannot be read ends the operation before any freeze.
    have hlist := run_askColumn c (Query.tablePartitions db table) "partition"
      (w.after engine [Query.tableDataPath db table])
    rw [hc.host, World.run_ask, ← World.after_append] at hlist
    dsimp only [freeze]
    cases hnames : (w.after engine [Query.tableDataPath db table]).answer engine
        (Query.tablePartitions db table) >>= Reply.column "partition" with
    | error e =>
      rw [hnames] at hlist
      exact run_bind_of_error (run_bind_of_error hlist)
    | ok names =>
      rw [hnames] at hlist
      have hpartitions :
          (c.partitions db table).run.run (w.after engine [Query.tableDataPath db table])
            = (.ok (names.map fun name => { database := db, table, name }),
              w.after engine [Query.tableDataPath db table, Query.tablePartitions db table]) :=
        run_bind_of_ok hlist
      rw [run_bind_of_ok hpartitions, run_freezePartitions hc _ rfl, List.map_map]
      dsimp only [ofStatements]
      rw [World.after_append]
      rfl

/-- Whatever comes of a freeze, it leaves the world that some queries leave. -/
theorem exists_run_freezeTable (hc : c.Serves (World.host engine delegate) config)
    (db table : String) (w : World σ) :
    ∃ result queries, (c.freezeTable db table).run.run w = (result, w.after engine queries) := by
  by_cases hadmits : Admits config.dataPath (w.answer engine (Query.tableDataPath db table))
  · obtain ⟨text, hanswer, htext, hbelow⟩ := exists_of_admits hadmits
    have hrelative := relativePath_of_liesBelow (c := c) htext (by rwa [hc.root])
    exact ⟨_, _, run_freezeTable hc hanswer htext hrelative⟩
  · exact ⟨_, [Query.tableDataPath db table], freezeTable_of_not_admits hc (s := w) hadmits⟩

/-- A freeze of a table whose directory is accepted is that of the reference: it sends the same
queries in the same order and no others, leaves the world as the engine leaves it after these, and
gives the same parts or the same failure. -/
theorem freezeTable_eq_reference (hc : c.Serves (World.host engine delegate) config) (w : World σ)
    {text : String}
    (hanswer : w.answer engine (Query.tableDataPath db table) = .ok (.text text))
    (htext : text ≠ "") (hrelative : c.relativePath ⟨text⟩ = .ok relative) :
    ((c.freezeTable db table).run.run w).1
        = (freeze engine config db table relative w c.strategy).result ∧
      ((c.freezeTable db table).run.run w).2.queries
        = w.queries ++ (freeze engine config db table relative w c.strategy).queries ∧
      ((c.freezeTable db table).run.run w).2
        = w.after engine (freeze engine config db table relative w c.strategy).queries := by
  rw [run_freezeTable hc hanswer htext hrelative]
  exact ⟨rfl, World.queries_after engine w _, rfl⟩

/-- An engine with the partitions 1, 1, 2 and 3 that counts its freezes in its state and in the file
of the counter, and can do two of them. -/
def twoFreezes : Engine Nat := fun query n tree =>
  if query = Query.tableDataPath "db" "t" then (.ok (.text "/ch/data/db/t"), n, tree)
  else if query = Query.tablePartitions "db" "t" then
    (.ok (.json (.record [("data", .list (["1", "1", "2", "3"].map fun name =>
      .record [("partition", .text name)]))])), n, tree)
  else if n = 2 then (.error (.transport "no room"), n, tree)
  else (.ok (.text ""), n + 1, tree.put ["ch", "shadow", "increment.txt"]
    { content := .file (Text.decimal (n + 1)).toUTF8 })

/-- The third freeze fails, so there is no fourth, and its failure is the result. -/
theorem freezeTable_eq_reference_failure :
    let c : Controller (StateM (World Nat)) :=
      { serving (World.host twoFreezes (.noted (.ok ()))) ⟨⟨"/ch"⟩, "u", "g", {}, {}⟩
          ⟨[17, 2], "17.2"⟩ with strategy := .perPartition }
    let w : World Nat := ⟨0, ⟨[(["ch"], { content := .directory }),
      (["ch", "shadow"], { content := .directory })]⟩, [], [], [], [], []⟩
    ((c.freezeTable "db" "t").run.run w).1.mapError Error.message
        = .error "Query failed: HTTP error: no room" ∧
      ((c.freezeTable "db" "t").run.run w).2.queries
        = [Query.tableDataPath "db" "t", Query.tablePartitions "db" "t",
            Query.freezePartition "db" "t" "1", Query.freezePartition "db" "t" "1",
            Query.freezePartition "db" "t" "2"] := by
  intro c w
  have hrelative : c.relativePath ⟨"/ch/data/db/t"⟩ = .ok ⟨"data/db/t"⟩ := by
    have hremainder : (Path.mk "/ch/data/db/t").remainder c.root.root.components.length
        = ⟨"data/db/t"⟩ := by decide +kernel
    rw [relativePath_of_accepts (by decide +kernel), hremainder]
    rfl
  obtain ⟨hresult, hqueries, -⟩ := freezeTable_eq_reference
    (serving_serves_of (World.host twoFreezes (.noted (.ok ()))) ⟨⟨"/ch"⟩, "u", "g", {}, {}⟩
      (ofVersion_of_gt (n := 17) (by decide) [2] "17.2")) w
    (show w.answer twoFreezes (Query.tableDataPath "db" "t") = .ok (.text "/ch/data/db/t") from rfl)
    (by decide) hrelative
  exact ⟨(congrArg (·.mapError Error.message) hresult).trans (by decide +kernel),
    hqueries.trans (by decide +kernel)⟩

end Controller

end TableSnapshots
