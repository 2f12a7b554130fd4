import TableSnapshots.Proofs.CommandLine.Run
import TableSnapshots.Proofs.Controller.Restore
import TableSnapshots.Proofs.Query.Statement

/-!
# Attaching a part

A part is attached after everything else: the engine has told the directory of the table, and if
owners are to be changed it has told it once more, the guard has accepted the detached directory and
the owners were changed (`prepareAttach`). The first of these steps that fails is the end of the
command, which then asks the engine nothing more and reports nothing. Whether the part is there is
looked at only for the log (`run_warnIfAbsent`).
-/

namespace TableSnapshots.CommandLine

open Controller (Op Serves connect readDataPath)
open Rehearsal (console)

variable {σ : Type}

/-! ## Before the statement -/

section Steps

variable (engine : Engine σ) (delegate : Delegate) (config : Config) (db table : String)

/-- The owners of a table's detached parts are changed: the engine tells the directory of the table,
the guard accepts that of the detached parts, and the request to change owners is met. -/
def changeOwners (w : World σ) : Except Error Unit × World σ :=
  let w' := w.after engine [Query.tableDataPath db table]
  match readDataPath db table (w.answer engine (Query.tableDataPath db table)) with
  | .error e => (.error (.gateway e), w')
  | .ok path =>
    match (PathGuard.mk (config.dataPath.entry "data")).check (path.entry "detached") with
    | .error e => (.error e, w')
    | .ok dir =>
      let request := (World.changeOwnership delegate dir config.user config.group).run w'
      (request.1.mapError (.file dir), request.2)

/-- All that comes before the statement that attaches a part: the engine tells the directory of the
table, and then owners are changed if this is asked for. Both ask for the directory, and the answers
need not be the same. -/
def prepareAttach (chown : Bool) (w : World σ) : Except Error Unit × World σ :=
  let w' := w.after engine [Query.tableDataPath db table]
  match readDataPath db table (w.answer engine (Query.tableDataPath db table)) with
  | .error e => (.error (.gateway e), w')
  | .ok _ => if chown then changeOwners engine delegate config db table w' else (.ok (), w')

/-- The table's directory is asked for before the part is looked at, and once more before owners are
changed. -/
def attachQueries (chown : Bool) : List String :=
  if chown then [Query.tableDataPath db table, Query.tableDataPath db table]
  else [Query.tableDataPath db table]

/-- The statement is sent, and the part is reported if the engine did not refuse it. -/
def sendAttach (part : String) (w : World σ) : Except Failure Unit × World σ :=
  let w' := w.after engine [Query.attachPart db table part]
  match w.answer engine (Query.attachPart db table part) with
  | .error e => (.error (.operation (.gateway e)), w')
  | .ok _ =>
    (.ok (), { w' with
      reported := w'.reported ++ ["Attached " ++ part ++ " to " ++ db ++ "." ++ table] })

/-- All that the command does: it reaches the engine, does what has to come first, and attaches the
part. -/
def attachOutcome (part : String) (chown : Bool) (w : World σ) : Except Failure Unit × World σ :=
  let w' := w.after engine [Query.version]
  match Controller.readVersion (w.answer engine Query.version) with
  | .error e => (.error (.operation e), w')
  | .ok _ =>
    match prepareAttach engine delegate config db table chown w' with
    | (.error e, w') => (.error (.operation e), w')
    | (.ok (), w') => sendAttach engine db table part w'

end Steps

/-- The host of a world that says in a way of its own whether a path leads to an entry. -/
def looking (engine : Engine σ) (delegate : Delegate) (looks : Path → Tree → Bool) :
    Host (StateM (World σ)) :=
  { World.host engine delegate with isPresent := fun path => World.observe (looks path) }

/-- The end of the command: the part is attached, and then this is reported. -/
def attachAndReport (c : Controller (StateM (World σ))) (db table part : String) :
    ExceptT Failure (StateM (World σ)) Unit := do
  perform (c.attachPart db table part)
  ExceptT.lift (console.report ("Attached " ++ part ++ " to " ++ db ++ "." ++ table))

section Command

variable {engine : Engine σ} {delegate : Delegate} {looks : Path → Tree → Bool} {config : Config}
  {c : Controller (StateM (World σ))} (hc : c.Serves (looking engine delegate looks) config)
include hc

/-- A part that is not there is warned of, and nothing else comes of it. -/
theorem run_warnIfAbsent (path : Path) (w : World σ) :
    (warnIfAbsent console c path).run.run w = (.ok (), w) := by
  have hlook : (ExceptT.lift (c.host.isPresent path) :
      ExceptT Failure (StateM (World σ)) Bool).run.run w = (.ok (looks path w.tree), w) := by
    rw [hc.host]
    rfl
  unfold warnIfAbsent
  rw [Controller.run_bind_of_ok hlook]
  cases looks path w.tree <;> rfl

/-- A query gets the engine's answer, whatever is looked at. -/
theorem run_ask_looking (query : String) (w : World σ) :
    (c.ask query).run.run w
      = ((w.answer engine query).mapError .gateway, w.after engine [query]) := by
  unfold Controller.ask
  rw [hc.host]
  rfl

/-- The directory of a table is what the engine's answer says. -/
theorem run_tableDataPath_looking (db table : String) (w : World σ) :
    (c.tableDataPath db table).run.run w
      = ((readDataPath db table (w.answer engine (Query.tableDataPath db table))).mapError .gateway,
        w.after engine [Query.tableDataPath db table]) := by
  rw [Controller.run_tableDataPath, hc.host]
  rfl

/-- An ownership change is its steps, each in the world that the one before it leaves. -/
theorem run_chownDetached_looking (db table : String) (w : World σ) :
    (c.chownDetached db table).run.run w = changeOwners engine delegate config db table w := by
  have htold := run_tableDataPath_looking hc db table w
  unfold changeOwners
  cases hread : readDataPath db table (w.answer engine (Query.tableDataPath db table)) with
  | error e =>
    rw [hread] at htold
    exact Controller.run_chownDetached_of_error htold
  | ok path =>
    rw [hread] at htold
    dsimp only
    rw [← hc.dataRoot]
    cases haccepts : c.dataRoot.accepts (path.entry "detached") with
    | false =>
      have hcheck : c.dataRoot.check (path.entry "detached")
          = .error (.pathViolation (path.entry "detached") c.dataRoot.root) :=
        if_neg (by simp [haccepts])
      rw [hcheck]
      exact Controller.run_chownDetached_of_refused htold haccepts
    | true =>
      have hcheck : c.dataRoot.check (path.entry "detached") = .ok (path.entry "detached") :=
        if_pos haccepts
      have hchown := Controller.run_chownDetached htold haccepts
      rw [hc.host, hc.user, hc.group] at hchown
      rw [hcheck]
      exact hchown

/-- A part is attached by one statement, and then the command says so. -/
theorem run_attachAndReport (db table part : String) (w : World σ) :
    (attachAndReport c db table part).run.run w = sendAttach engine db table part w := by
  have hask := run_ask_looking hc (Query.attachPart db table part) w
  unfold sendAttach
  cases hanswer : w.answer engine (Query.attachPart db table part) with
  | error e =>
    rw [hanswer] at hask
    exact run_perform_bind_of_error (Controller.run_bind_of_error hask)
  | ok reply =>
    rw [hanswer] at hask
    have hattach : (c.attachPart db table part).run.run w
        = (.ok (), w.after engine [Query.attachPart db table part]) :=
      Controller.run_bind_of_ok hask
    exact (run_perform_bind_of_ok hattach).trans (run_report _ _)

/-- Once the place of the part is known, owners are changed if this is asked for, and then the part
is attached. -/
theorem run_attach_of_told {db table part : String} {path : Path} {w w' : World σ}
    (htold : (c.detachedPartPath db table part).run.run w = (.ok path, w')) (chown : Bool) :
    ((Command.attach db table part chown).run console c).run.run w
      = (do
          if chown then perform (c.chownDetached db table)
          attachAndReport c db table part :
          ExceptT Failure (StateM (World σ)) Unit).run.run w' := by
  dsimp only [Command.run]
  rw [run_perform_bind_of_ok htold, Controller.run_bind_of_ok (run_warnIfAbsent hc _ _)]
  rfl

/-- If the owners cannot be changed the command ends. -/
theorem run_attach_of_chown_error {db table part : String} {path : Path} {w w' w'' : World σ}
    (htold : (c.detachedPartPath db table part).run.run w = (.ok path, w')) {e : Error}
    (hchown : (c.chownDetached db table).run.run w' = (.error e, w'')) :
    ((Command.attach db table part true).run console c).run.run w = (.error (.operation e), w'') :=
  (run_attach_of_told hc htold true).trans (run_perform_bind_of_error hchown)

/-- If they are changed the part is attached after that. -/
theorem run_attach_of_chown {db table part : String} {path : Path} {w w' w'' : World σ}
    (htold : (c.detachedPartPath db table part).run.run w = (.ok path, w'))
    (hchown : (c.chownDetached db table).run.run w' = (.ok (), w'')) :
    ((Command.attach db table part true).run console c).run.run w
      = (attachAndReport c db table part).run.run w'' :=
  (run_attach_of_told hc htold true).trans (run_perform_bind_of_ok hchown)

/-- The command does what has to come first, and then it attaches the part. -/
theorem run_attach (db table part : String) (chown : Bool) (w : World σ) :
    ((Command.attach db table part chown).run console c).run.run w
      = match prepareAttach engine delegate config db table chown w with
        | (.error e, w') => (.error (.operation e), w')
        | (.ok (), w') => sendAttach engine db table part w' := by
  have htold := run_tableDataPath_looking hc db table w
  unfold prepareAttach
  cases hread : readDataPath db table (w.answer engine (Query.tableDataPath db table)) with
  | error e =>
    rw [hread] at htold
    exact run_perform_bind_of_error (Controller.run_detachedPartPath_of_error htold part)
  | ok path =>
    rw [hread] at htold
    have hpart := Controller.run_detachedPartPath htold part
    cases chown with
    | false =>
      exact (run_attach_of_told hc hpart false).trans (run_attachAndReport hc db table part _)
    | true =>
      have hchown := run_chownDetached_looking hc db table
        (w.after engine [Query.tableDataPath db table])
      dsimp only
      rcases howners : changeOwners engine delegate config db table
        (w.after engine [Query.tableDataPath db table]) with ⟨r, w'⟩
      rw [howners] at hchown
      cases r with
      | error e => exact run_attach_of_chown_error hc hpart hchown
      | ok u =>
        exact (run_attach_of_chown hc hpart hchown).trans (run_attachAndReport hc db table part w')

end Command

/-- Reaching the engine and running the command does this, whatever is found where the part has to
be. -/
theorem run_connect_attach (engine : Engine σ) (delegate : Delegate) (looks : Path → Tree → Bool)
    (config : Config) (db table part : String) (chown : Bool) (w : World σ) :
    (do
      let c ← perform (connect (looking engine delegate looks) config)
      (Command.attach db table part chown).run console c :
      ExceptT Failure (StateM (World σ)) Unit).run.run w
      = attachOutcome engine delegate config db table part chown w := by
  have hconnect := Controller.run_connect (looking engine delegate looks) config w
  change _ = ((Controller.readVersion (w.answer engine Query.version)).map _,
    w.after engine [Query.version]) at hconnect
  unfold attachOutcome
  dsimp only
  cases hversion : Controller.readVersion (w.answer engine Query.version) with
  | error e =>
    rw [hversion] at hconnect
    exact run_perform_bind_of_error hconnect
  | ok version =>
    rw [hversion] at hconnect
    have hc := Controller.serving_serves (looking engine delegate looks) config version
    exact (run_perform_bind_of_ok hconnect).trans (run_attach hc db table part chown _)

/-! ## What was asked -/

section Asked

variable (engine : Engine σ) (delegate : Delegate) (config : Config) (db table : String)

/-- The owners are changed exactly if every step to it succeeds. -/
theorem changeOwners_eq_ok_iff (w : World σ) :
    (changeOwners engine delegate config db table w).1 = .ok () ↔
      ∃ path, readDataPath db table (w.answer engine (Query.tableDataPath db table)) = .ok path ∧
        (PathGuard.mk (config.dataPath.entry "data")).accepts (path.entry "detached") = true ∧
        ((World.changeOwnership delegate (path.entry "detached") config.user config.group).run
          (w.after engine [Query.tableDataPath db table])).1 = .ok () := by
  unfold changeOwners
  cases hread : readDataPath db table (w.answer engine (Query.tableDataPath db table)) with
  | error e => simp
  | ok path =>
    dsimp only [PathGuard.check]
    cases haccepts : (PathGuard.mk (config.dataPath.entry "data")).accepts (path.entry "detached")
    with
    | false => simp [haccepts]
    | true =>
      rw [if_pos rfl]
      refine ⟨fun h => ⟨path, rfl, haccepts, Controller.eq_ok_of_mapError h⟩, ?_⟩
      rintro ⟨path', hpath, -, hrequest⟩
      cases hpath
      dsimp only
      rw [hrequest]
      rfl

/-- It takes one query, and nothing is reported of it. -/
theorem changeOwners_writes (w : World σ) :
    let w' := (changeOwners engine delegate config db table w).2
    w'.queries = w.queries ++ [Query.tableDataPath db table] ∧ w'.reported = w.reported := by
  have hasked := World.queries_after engine w [Query.tableDataPath db table]
  have hreported := World.reported_after engine w [Query.tableDataPath db table]
  unfold changeOwners
  cases readDataPath db table (w.answer engine (Query.tableDataPath db table)) with
  | error e => exact ⟨hasked, hreported⟩
  | ok path =>
    dsimp only
    cases (PathGuard.mk (config.dataPath.entry "data")).check (path.entry "detached") with
    | error e => exact ⟨hasked, hreported⟩
    | ok dir =>
      -- Neither way to meet the request asks the engine or reports anything.
      cases delegate with
      | noted answer => exact ⟨hasked, hreported⟩
      | acting authority => exact ⟨hasked, hreported⟩

/-- What has to come first succeeds exactly if each of its steps does. -/
theorem prepareAttach_eq_ok_iff (chown : Bool) (w : World σ) :
    (prepareAttach engine delegate config db table chown w).1 = .ok () ↔
      (∃ path, readDataPath db table (w.answer engine (Query.tableDataPath db table)) = .ok path) ∧
        (chown = true → (changeOwners engine delegate config db table
          (w.after engine [Query.tableDataPath db table])).1 = .ok ()) := by
  unfold prepareAttach
  cases readDataPath db table (w.answer engine (Query.tableDataPath db table)) with
  | error e => simp
  | ok path => cases chown <;> simp

/-- What has to come first asks for nothing else, and leaves none of it out if it succeeds. -/
theorem prepareAttach_writes (chown : Bool) (w : World σ) :
    let prepared := prepareAttach engine delegate config db table chown w
    prepared.2.reported = w.reported ∧ ∃ asked,
      prepared.2.queries = w.queries ++ asked ∧ asked <+: attachQueries db table chown ∧
        (prepared.1 = .ok () → asked = attachQueries db table chown) := by
  let query := Query.tableDataPath db table
  have hasked := World.queries_after engine w [query]
  have hreported := World.reported_after engine w [query]
  unfold prepareAttach attachQueries
  cases readDataPath db table (w.answer engine query) with
  | error e =>
    refine ⟨hreported, [query], hasked, ?_, fun h => nomatch h⟩
    cases chown with
    | false => exact List.prefix_rfl
    | true => exact List.prefix_append [query] [query]
  | ok path =>
    cases chown with
    | false => exact ⟨hreported, [query], hasked, List.prefix_rfl, fun _ => rfl⟩
    | true =>
      obtain ⟨hagain, hsilent⟩ :=
        changeOwners_writes engine delegate config db table (w.after engine [query])
      have hboth : (w.after engine [query]).queries ++ [query] = w.queries ++ [query, query] := by
        rw [hasked, List.append_assoc]
        rfl
      exact ⟨hsilent.trans hreported, [query, query], hagain.trans hboth, List.prefix_rfl,
        fun _ => rfl⟩

end Asked

/-- The statement that attaches a part is none that asks for the directory of a table. -/
theorem attachPart_not_mem_attachQueries (db table part : String) (chown : Bool) :
    Query.attachPart db table part ∉ attachQueries db table chown := by
  have hne : Query.attachPart db table part ≠ Query.tableDataPath db table := by
    intro h
    have hstatement := @Query.Statement.text_injective (.attachPart db table part)
      (.tableDataPath db table) h
    cases hstatement
  cases chown with
  | false => simp [attachQueries, hne]
  | true => simp [attachQueries, hne]

/-- Attaching the part takes one statement, and is reported if it succeeds. -/
theorem sendAttach_writes (engine : Engine σ) (db table part : String) (w : World σ) :
    let sent := sendAttach engine db table part w
    sent.2.queries = w.queries ++ [Query.attachPart db table part] ∧
      sent.2.reported = w.reported ++
        if sent.1.isOk then ["Attached " ++ part ++ " to " ++ db ++ "." ++ table] else [] := by
  have hasked := World.queries_after engine w [Query.attachPart db table part]
  have hsilent := World.reported_after engine w [Query.attachPart db table part]
  unfold sendAttach
  cases w.answer engine (Query.attachPart db table part) with
  | error e => exact ⟨hasked, hsilent.trans (List.append_nil _).symm⟩
  | ok reply => exact ⟨hasked, congrArg (· ++ _) hsilent⟩

section Outcome

variable {engine : Engine σ} {delegate : Delegate} {config : Config} {db table : String}
  {chown : Bool} {w w' : World σ}

/-- Without the engine nothing is done. -/
theorem attachOutcome_of_unreached {e : Error}
    (hversion : Controller.readVersion (w.answer engine Query.version) = .error e)
    (part : String) :
    attachOutcome engine delegate config db table part chown w
      = (.error (.operation e), w.after engine [Query.version]) := by
  unfold attachOutcome
  rw [hversion]

section Reached

variable {version : EngineVersion}
  (hversion : Controller.readVersion (w.answer engine Query.version) = .ok version)
include hversion

/-- A step that has to come first and fails is the end. -/
theorem attachOutcome_of_unprepared {e : Error}
    (h : prepareAttach engine delegate config db table chown (w.after engine [Query.version])
      = (.error e, w')) (part : String) :
    attachOutcome engine delegate config db table part chown w = (.error (.operation e), w') := by
  unfold attachOutcome
  rw [hversion]
  dsimp only
  rw [h]

/-- If none fails the part is attached. -/
theorem attachOutcome_of_prepared
    (h : prepareAttach engine delegate config db table chown (w.after engine [Query.version])
      = (.ok (), w')) (part : String) :
    attachOutcome engine delegate config db table part chown w
      = sendAttach engine db table part w' := by
  unfold attachOutcome
  rw [hversion]
  dsimp only
  rw [h]

end Reached

/-- What the whole command asks and reports. -/
theorem attachOutcome_writes (engine : Engine σ) (delegate : Delegate) (config : Config)
    (db table part : String) (chown : Bool) (w : World σ) :
    let statement := Query.attachPart db table part
    let outcome := attachOutcome engine delegate config db table part chown w
    let prepared :=
      prepareAttach engine delegate config db table chown (w.after engine [Query.version])
    (∃ issued, outcome.2.queries = w.queries ++ Query.version :: issued ∧
      issued <+: attachQueries db table chown ++ [statement] ∧
      (statement ∈ issued ↔
        (∃ version, Controller.readVersion (w.answer engine Query.version) = .ok version) ∧
          prepared.1 = .ok ())) ∧
    outcome.2.reported = w.reported ++
      if outcome.1.isOk then ["Attached " ++ part ++ " to " ++ db ++ "." ++ table] else [] := by
  intro statement outcome prepared
  have hasked := World.queries_after engine w [Query.version]
  have hsilent := World.reported_after engine w [Query.version]
  have hnot := attachPart_not_mem_attachQueries db table part chown
  cases hversion : Controller.readVersion (w.answer engine Query.version) with
  | error e =>
    rw [show outcome = _ from attachOutcome_of_unreached hversion part]
    exact ⟨⟨[], hasked, List.nil_prefix, by simp⟩, hsilent.trans (List.append_nil _).symm⟩
  | ok version =>
    obtain ⟨hquiet, asked, hmore, hinitial, hall⟩ :=
      prepareAttach_writes engine delegate config db table chown (w.after engine [Query.version])
    have hqueries : prepared.2.queries = w.queries ++ Query.version :: asked := by
      rw [hmore, hasked, List.append_assoc]
      rfl
    cases hresult : prepared.1 with
    | error e =>
      have hprepared : prepared = (.error e, prepared.2) := Prod.ext hresult rfl
      rw [show outcome = _ from attachOutcome_of_unprepared hversion hprepared part]
      refine ⟨⟨asked, hqueries, hinitial.trans (List.prefix_append _ _), ?_⟩, ?_⟩
      · exact iff_of_false (fun hmem => hnot (hinitial.subset hmem)) (by simp)
      · exact (hquiet.trans hsilent).trans (List.append_nil _).symm
    | ok u =>
      have hprepared : prepared = (.ok (), prepared.2) := Prod.ext hresult rfl
      obtain ⟨hsent, hreported⟩ := sendAttach_writes engine db table part prepared.2
      rw [show outcome = _ from attachOutcome_of_prepared hversion hprepared part]
      refine ⟨⟨asked ++ [statement], ?_, ?_, ?_⟩, ?_⟩
      · rw [hsent, hqueries, List.append_assoc]
        rfl
      · exact ⟨[], by rw [hall hresult, List.append_nil]⟩
      · have hmem : statement ∈ asked ++ [statement] :=
          List.mem_append_right _ (List.mem_singleton_self _)
        exact iff_of_true hmem ⟨⟨version, rfl⟩, rfl⟩
      · rw [hreported, hquiet, hsilent]

end Outcome

/-- The command asks for the version, then for the table's directory, once or, if owners are to be
changed, twice, and then it sends the statement that attaches the part; it never goes on after a
step that failed. So the statement is sent at most once, and exactly if the engine was reached, told
the directory, and, if owners are to be changed, told it again, the guard accepted the detached
directory and the change succeeded. The first step that fails is the failure of the command, and
only a command without one reports the part. What is found where the part has to be changes
nothing. -/
theorem attach_after_every_step (engine : Engine σ) (delegate : Delegate) (config : Config)
    (db table part : String) (chown : Bool) (w : World σ) :
    let query := Query.tableDataPath db table
    let statement := Query.attachPart db table part
    let session (host : Host (StateM (World σ))) : ExceptT Failure (StateM (World σ)) Unit := do
      let c ← perform (connect host config)
      (Command.attach db table part chown).run console c
    let run := (session (World.host engine delegate)).run.run w
    let connected := (connect (World.host engine delegate) config).run.run w
    let w₀ := w.after engine [Query.version]
    let w₁ := w₀.after engine [query]
    let w₂ := w₁.after engine [query]
    (∃ issued, run.2.queries = w.queries ++ Query.version :: issued ∧
      issued <+: (if chown then [query, query, statement] else [query, statement]) ∧
      issued.count statement ≤ 1 ∧
      (statement ∈ issued ↔ (∃ c, connected.1 = .ok c) ∧
        (∃ path, readDataPath db table (w₀.answer engine query) = .ok path) ∧
        (chown = true → ∃ path, readDataPath db table (w₁.answer engine query) = .ok path ∧
          (PathGuard.mk (config.dataPath.entry "data")).accepts (path.entry "detached") = true ∧
          ((World.changeOwnership delegate (path.entry "detached") config.user config.group).run
            w₂).1 = .ok ()))) ∧
    (∀ looks : Path → Tree → Bool, (session (looking engine delegate looks)).run.run w = run) ∧
    (∀ e, connected.1 = .error e → run = (.error (.operation e), w₀)) ∧
    (∀ c, connected.1 = .ok c →
      let told := (c.detachedPartPath db table part).run.run w₀
      let given := (c.chownDetached db table).run.run told.2
      let attached := (c.attachPart db table part).run.run (if chown then given.2 else told.2)
      (∀ e, told.1 = .error e → run = (.error (.operation e), told.2)) ∧
      ∀ path, told.1 = .ok path →
        (chown = true → ∀ e, given.1 = .error e → run = (.error (.operation e), given.2)) ∧
        ((chown = true → given.1 = .ok ()) →
          (∀ e, attached.1 = .error e → run = (.error (.operation e), attached.2)) ∧
          (attached.1 = .ok () → run.1 = .ok ()))) ∧
    run.2.reported = w.reported ++
      if run.1.isOk then ["Attached " ++ part ++ " to " ++ db ++ "." ++ table] else [] := by
  intro query statement session run connected w₀ w₁ w₂
  -- All runs, whatever they look at, have one outcome.
  have houtcome : ∀ looks : Path → Tree → Bool,
      (session (looking engine delegate looks)).run.run w
        = attachOutcome engine delegate config db table part chown w :=
    fun looks => run_connect_attach engine delegate looks config db table part chown w
  have hrun : run = attachOutcome engine delegate config db table part chown w :=
    houtcome fun path t => t.isPresent path
  have hconnect : connected
      = ((Controller.readVersion (w.answer engine Query.version)).map
          (Controller.serving (World.host engine delegate) config), w₀) :=
    Controller.run_connect (World.host engine delegate) config w
  have hreached : (∃ c, connected.1 = .ok c) ↔
      ∃ version, Controller.readVersion (w.answer engine Query.version) = .ok version := by
    rw [hconnect]
    cases Controller.readVersion (w.answer engine Query.version) with
    | error e => simp [Except.map]
    | ok version => simp [Except.map]
  obtain ⟨⟨issued, hissued, hinitial, hstatement⟩, hreported⟩ :=
    attachOutcome_writes engine delegate config db table part chown w
  refine ⟨⟨issued, ?_, ?_, ?_, ?_⟩, fun looks => (houtcome looks).trans hrun.symm, fun e he => ?_,
    fun c hc => ?_, ?_⟩
  · rw [hrun, hissued]
  · have hall : attachQueries db table chown ++ [statement]
        = if chown then [query, query, statement] else [query, statement] := by
      cases chown <;> rfl
    rwa [hall] at hinitial
  · -- None of the queries before it is the statement.
    have hnot := attachPart_not_mem_attachQueries db table part chown
    have hcount := hinitial.sublist.count_le statement
    rwa [List.count_append, List.count_singleton_self, List.count_eq_zero.mpr hnot,
      Nat.zero_add] at hcount
  · rw [hstatement, ← hreached, prepareAttach_eq_ok_iff]
    refine and_congr_right fun _ => and_congr_right fun _ => forall_congr' fun _ => ?_
    exact changeOwners_eq_ok_iff engine delegate config db table w₁
  · rw [hconnect] at he
    cases hversion : Controller.readVersion (w.answer engine Query.version) with
    | error e' =>
      rw [hversion] at he
      cases he
      rw [hrun, attachOutcome_of_unreached hversion]
    | ok version =>
      rw [hversion] at he
      cases he
  · -- The steps are operations of the controller that was made, so they fail as its operations do.
    have hworld : connected = (.ok c, w₀) := Prod.ext hc (by rw [hconnect])
    have hcommand : run = ((Command.attach db table part chown).run console c).run.run w₀ :=
      run_perform_bind_of_ok hworld
    obtain ⟨version, rfl⟩ := Controller.exists_serving_of_connect hworld
    have hserves := Controller.serving_serves
      (looking engine delegate fun path t => t.isPresent path) config version
    intro told given attached
    refine ⟨fun e he => ?_, fun path hpath => ⟨fun hchown e he => ?_, fun hready => ?_⟩⟩
    · exact hcommand.trans (run_perform_bind_of_error (Prod.ext he rfl))
    · subst hchown
      exact hcommand.trans
        (run_attach_of_chown_error hserves (Prod.ext hpath rfl) (Prod.ext he rfl))
    · have htold : told = (.ok path, told.2) := Prod.ext hpath rfl
      have hlast : run = (attachAndReport (Controller.serving (World.host engine delegate) config
          version) db table part).run.run (if chown then given.2 else told.2) := by
        cases chown with
        | false => exact hcommand.trans (run_attach_of_told hserves htold false)
        | true =>
          exact hcommand.trans (run_attach_of_chown hserves htold (Prod.ext (hready rfl) rfl))
      refine ⟨fun e he => hlast.trans (run_perform_bind_of_error (Prod.ext he rfl)), fun hok => ?_⟩
      rw [hlast, attachAndReport, run_perform_bind_of_ok (Prod.ext hok rfl), run_report]
  · rw [hrun, hreported]

/-- Of a table that does not lie in the data directory no part is attached if owners are to be
changed first. -/
theorem attach_after_every_step_refused :
    let engine := constantEngine (.ok (.text "21.8"))
    let delegate : Delegate := .noted (.ok ())
    let config : Config := ⟨⟨"/ch"⟩, "u", "g", {}, {}⟩
    let w : World Unit := ⟨(), .empty, [], [], [], [], []⟩
    let session (chown : Bool) : ExceptT Failure (StateM (World Unit)) Unit := do
      let c ← perform (connect (World.host engine delegate) config)
      (Command.attach "db" "t" "p" chown).run console c
    let asked := [Query.version, Query.tableDataPath "db" "t", Query.tableDataPath "db" "t"]
    (session true).run.run w
        = (.error (.operation (.pathViolation ⟨"21.8/detached"⟩ ⟨"/ch/data"⟩)),
          w.after engine asked) ∧
      ((session false).run.run w).2.reported = ["Attached p to db.t"] := by
  intro engine delegate config w session asked
  let c := Controller.serving (World.host engine delegate) config ⟨[21, 8], "21.8"⟩
  have hserves : c.Serves (World.host engine delegate) config :=
    Controller.serving_serves (World.host engine delegate) config ⟨[21, 8], "21.8"⟩
  have hconnected : ((connect (World.host engine delegate) config).run.run w).1 = .ok c := by
    have hparse : EngineVersion.parse "21.8" = .ok ⟨[21, 8], "21.8"⟩ := by rfl
    have hversion : Controller.readVersion (w.answer engine Query.version)
        = .ok ⟨[21, 8], "21.8"⟩ := hparse
    rw [Controller.run_connect, World.run_ask, hversion]
    rfl
  have htold : ∀ w' : World Unit, (c.tableDataPath "db" "t").run.run w'
      = (.ok ⟨"21.8"⟩, w'.after engine [Query.tableDataPath "db" "t"]) :=
    fun _ => Controller.run_tableDataPath_of_text (by decide) hserves rfl
  have hpart := Controller.run_detachedPartPath (htold (w.after engine [Query.version])) "p"
  have hgiven : (c.chownDetached "db" "t").run.run
      ((c.detachedPartPath "db" "t" "p").run.run (w.after engine [Query.version])).2
        = (.error (.pathViolation ⟨"21.8/detached"⟩ ⟨"/ch/data"⟩), w.after engine asked) := by
    have hdetached : (Path.mk "21.8").entry Controller.detachedName = ⟨"21.8/detached"⟩ := by
      decide +kernel
    have hdata : c.dataRoot = ⟨⟨"/ch/data"⟩⟩ := by
      refine congrArg PathGuard.mk (hserves.dataRoot.trans ?_)
      decide +kernel
    have hrefused : c.dataRoot.accepts ((Path.mk "21.8").entry Controller.detachedName)
        = false := by
      rw [hdata, hdetached]
      decide +kernel
    have hchown := Controller.run_chownDetached_of_refused (htold
      (w.after engine [Query.version, Query.tableDataPath "db" "t"])) hrefused
    rw [hdata, hdetached] at hchown
    rw [hpart]
    exact hchown
  obtain ⟨-, -, -, hrefusal, -⟩ :=
    attach_after_every_step engine delegate config "db" "t" "p" true w
  obtain ⟨-, -, -, hattached, hreported⟩ :=
    attach_after_every_step engine delegate config "db" "t" "p" false w
  refine ⟨?_, ?_⟩
  · obtain ⟨-, hsteps⟩ := hrefusal c hconnected
    have hrun := (hsteps _ (congrArg Prod.fst hpart)).1 rfl _ (congrArg Prod.fst hgiven)
    exact hrun.trans (congrArg (_, ·) (congrArg Prod.snd hgiven))
  · obtain ⟨-, hsteps⟩ := hattached c hconnected
    have hok := ((hsteps _ (congrArg Prod.fst hpart)).2 (fun h => nomatch h)).2 rfl
    rw [hok] at hreported
    exact hreported.trans (by decide +kernel)

end TableSnapshots.CommandLine
