import TableSnapshots.Proofs.Controller.Operation
import TableSnapshots.Proofs.Freeze.Admission

/-!
# Sessions

All that is asked of the engine in the life of a controller. A session is any sequence of events:
operations, whatever comes of them, other retry policies and other ways to change owners, and
changes that the engine and the files undergo in between. One event sends one segment of queries
(`Session.exists_segment`), and a whole session the query for the version and then the segments of
its events, one after the other (`session_queries`).
-/

namespace TableSnapshots

open Controller (Op IsFreeze Serves connect serving)
open Query (Statement)

/-! ## The queries of one operation -/

section Issues

variable {σ α β : Type}

/-- The queries that a step sends, all of them and in their order, are such a list. -/
def Issues (x : Op (StateM (World σ)) α) (Segment : List String → Prop) : Prop :=
  ∀ w, ∃ segment, (x.run.run w).2.queries = w.queries ++ segment ∧ Segment segment

variable {engine : Engine σ} {query : String} {need : Need} {x : Op (StateM (World σ)) α}
  {f : α → Op (StateM (World σ)) β} {Segment Rest : List String → Prop}

/-- What is said of a list of queries less exactly. -/
theorem Issues.mono (h : Issues x Segment) (hrest : ∀ segment, Segment segment → Rest segment) :
    Issues x Rest := by
  intro w
  obtain ⟨segment, hqueries, hsegment⟩ := h w
  exact ⟨segment, hqueries, hrest segment hsegment⟩

/-- A step that concludes sends nothing. -/
theorem Concludes.issues (h : Concludes x) : Issues x (· = []) := by
  intro w
  exact ⟨[], by rw [(h w).1, List.append_nil], rfl⟩

/-- A step that asks sends its query. -/
theorem Asks.issues (h : Asks engine query need x) : Issues x (· = [query]) := by
  intro w
  obtain ⟨read, -, hrun⟩ := h
  refine ⟨[query], ?_, rfl⟩
  rw [hrun w]
  exact World.queries_after engine w [query]

/-- After a look the queries are those that follow, if it comes to them. -/
theorem Looks.bind_issues (hx : Looks x) (hf : ∀ a, Issues (f a) Rest) :
    Issues (x >>= f) fun segment => segment = [] ∨ Rest segment := by
  intro w
  obtain ⟨r, hr, -⟩ := hx w
  cases r with
  | error e =>
    rw [Controller.run_bind_of_error hr]
    exact ⟨[], (List.append_nil _).symm, .inl rfl⟩
  | ok a =>
    rw [Controller.run_bind_of_ok hr]
    obtain ⟨segment, hqueries, hsegment⟩ := hf a w
    exact ⟨segment, hqueries, .inr hsegment⟩

/-- After a query the others follow, if its answer can be read. -/
theorem Asks.bind_issues (hx : Asks engine query need x) (hf : ∀ a, Issues (f a) Rest) :
    Issues (x >>= f) fun segment =>
      segment = [query] ∨ ∃ rest, segment = query :: rest ∧ Rest rest := by
  intro w
  obtain ⟨read, -, hrun⟩ := hx
  have hw := hrun w
  have hasked := World.queries_after engine w [query]
  cases hresult : (w.answer engine query >>= read) with
  | error e =>
    rw [hresult] at hw
    rw [Controller.run_bind_of_error hw]
    exact ⟨[query], hasked, .inl rfl⟩
  | ok a =>
    rw [hresult] at hw
    rw [Controller.run_bind_of_ok hw]
    obtain ⟨rest, hqueries, hrest⟩ := hf a (w.after engine [query])
    refine ⟨query :: rest, ?_, .inr ⟨rest, rfl, hrest⟩⟩
    rw [hqueries, hasked, List.append_assoc]
    rfl

/-- A result in another form changes nothing of it. -/
theorem Issues.map (h : Issues x Segment) (g : α → β) :
    Issues (x >>= fun a => pure (g a)) Segment := by
  intro w
  obtain ⟨segment, hqueries, hsegment⟩ := h w
  refine ⟨segment, ?_, hsegment⟩
  rcases hx : x.run.run w with ⟨r, w'⟩
  rw [hx] at hqueries
  cases r with
  | ok a => rwa [Controller.run_bind_of_ok hx]
  | error e => rwa [Controller.run_bind_of_error hx]

end Issues

namespace Operation

/-- The statements of an operation, all of them and in their order. A freeze of a table may come to
an end before its statements, or in the course of them. -/
def Statements (strategy : FreezeStrategy) : Operation → List Statement → Prop
  | listDatabases _, statements => statements = [.showDatabases]
  | listTables db, statements => statements = [.showTables db]
  | tableExists db table, statements => statements = [.checkTable db table]
  | databaseSchema db, statements => statements = [.showCreateDatabase db]
  | tableSchema db table, statements => statements = [.showCreateTable db table]
  | tablesOrdered db tables, statements => statements = [.tablesOrdered db tables]
  | partitions db table, statements => statements = [.tablePartitions db table]
  | tableDataPath db table, statements | detachedPartPath db table _, statements
  | chownDetached db table, statements => statements = [.tableDataPath db table]
  | attachPart db table part, statements => statements = [.attachPart db table part]
  | freezeTable db table, statements =>
    statements = [.tableDataPath db table] ∨
      match strategy with
      | .wholeTable => statements = [.tableDataPath db table, .freezeTable db table]
      | .perPartition => ∃ names : List String, statements =
          .tableDataPath db table :: .tablePartitions db table ::
            names.map (.freezePartition db table)
  | _, statements => statements = []

/-- The queries of an operation: the texts of its statements, or the statement that is to be
restored, whatever it is. -/
def Segment (strategy : FreezeStrategy) : Operation → List String → Prop
  | restoreMetadata statement, segment => segment = [statement]
  | op, segment => ∃ statements, op.Statements strategy statements ∧
      segment = statements.map Statement.text

section Issues

variable {σ α : Type} {x : Op (StateM (World σ)) α} {statement : Statement}

/-- A step that sends one statement. -/
theorem issues_statement (h : Issues x (· = [statement.text])) :
    Issues x fun segment => ∃ statements, statements = [statement] ∧
      segment = statements.map Statement.text :=
  h.mono fun _ hsegment => ⟨[statement], rfl, hsegment⟩

/-- A step that sends none. -/
theorem issues_nothing (h : Concludes x) :
    Issues x fun segment => ∃ statements, statements = [] ∧
      segment = statements.map Statement.text :=
  h.issues.mono fun _ hsegment => ⟨[], rfl, hsegment⟩

end Issues

section Serving

variable {σ : Type} {engine : Engine σ} {delegate : Delegate} {config : Config}
  {c : Controller (StateM (World σ))} (hc : c.Serves (World.host engine delegate) config)
include hc

/-- Partitions are frozen by one statement each, up to the first failure. -/
theorem issues_freezePartitions (db table : String) (relative : Path) (ps : List Partition) :
    Issues (c.freezePartitions db table relative ps) fun segment =>
      ∃ names : List String, segment = names.map (Query.freezePartition db table) := by
  induction ps with
  | nil =>
    have hnone : Issues (pure [] : Op (StateM (World σ)) (List FrozenPart)) (· = []) :=
      (looks_pure []).concludes.issues
    exact hnone.mono fun _ hsegment => ⟨[], hsegment⟩
  | cons p ps ih =>
    -- After the statement its parts are looked for, and then come the other partitions.
    have hothers := (Controller.looks_collectParts hc db table relative).bind_issues fun parts =>
      ih.map (parts ++ ·)
    have hall := (Controller.asks_ask hc (Query.freezePartition db table p.name)).bind_issues
      fun _ => hothers
    refine hall.mono fun segment hsegment => ?_
    rcases hsegment with rfl | ⟨rest, rfl, rfl | ⟨names, rfl⟩⟩
    · exact ⟨[p.name], rfl⟩
    · exact ⟨[p.name], rfl⟩
    · exact ⟨p.name :: names, rfl⟩

/-- A freeze of a table sends the query for its directory, and then the statements that its way to
freeze allows. -/
theorem issues_freezeTable (db table : String) :
    Issues (c.freezeTable db table) ((freezeTable db table).Segment c.strategy) := by
  change Issues _ fun segment => ∃ statements,
    (freezeTable db table).Statements c.strategy statements ∧
      segment = statements.map Statement.text
  unfold Controller.freezeTable
  cases c.strategy with
  | wholeTable =>
    have hfreeze := fun relative =>
      (Controller.asks_ask hc (Query.freezeTable db table)).bind_issues fun _ =>
        (Controller.looks_collectParts hc db table relative).concludes.issues
    have hall := (Controller.asks_tableDataPath hc db table).bind_issues fun path =>
      (Controller.looks_relativePath c path).bind_issues hfreeze
    refine hall.mono fun segment hsegment => ?_
    rcases hsegment with rfl | ⟨rest, rfl, rfl | rfl | ⟨rest', rfl, rfl⟩⟩
    · exact ⟨[.tableDataPath db table], .inl rfl, rfl⟩
    · exact ⟨[.tableDataPath db table], .inl rfl, rfl⟩
    · exact ⟨[.tableDataPath db table, .freezeTable db table], .inr rfl, rfl⟩
    · exact ⟨[.tableDataPath db table, .freezeTable db table], .inr rfl, rfl⟩
  | perPartition =>
    have hfreeze := fun relative =>
      (Controller.asks_partitions hc db table).bind_issues fun ps =>
        issues_freezePartitions hc db table relative ps
    have hall := (Controller.asks_tableDataPath hc db table).bind_issues fun path =>
      (Controller.looks_relativePath c path).bind_issues hfreeze
    refine hall.mono fun segment hsegment => ?_
    rcases hsegment with rfl | ⟨rest, rfl, rfl | rfl | ⟨rest', rfl, names, rfl⟩⟩
    · exact ⟨[.tableDataPath db table], .inl rfl, rfl⟩
    · exact ⟨[.tableDataPath db table], .inl rfl, rfl⟩
    · exact ⟨[.tableDataPath db table, .tablePartitions db table], .inr ⟨[], rfl⟩, rfl⟩
    · refine ⟨_, .inr ⟨names, rfl⟩, ?_⟩
      rw [List.map_cons, List.map_cons, List.map_map]
      rfl

/-- Every operation sends its segment of queries. -/
theorem issues (op : Operation) : Issues (op.perform c) (op.Segment c.strategy) := by
  cases op with
  | listDatabases exclude =>
    exact issues_statement ((Controller.asks_askColumn hc _ "name").map _).issues
  | listTables db => exact issues_statement (Controller.asks_askColumn hc _ "name").issues
  | tableExists db table => exact issues_statement (Controller.asks_tableExists hc db table).issues
  | databaseSchema db => exact issues_statement (Controller.asks_askText hc _).issues
  | tableSchema db table => exact issues_statement (Controller.asks_askText hc _).issues
  | tablesOrdered db tables =>
    exact issues_statement (Controller.asks_askColumn hc _ "name").issues
  | partitions db table =>
    exact issues_statement (Controller.asks_partitions hc db table).issues
  | tableDataPath db table =>
    exact issues_statement (Controller.asks_tableDataPath hc db table).issues
  | freezeTable db table => exact issues_freezeTable hc db table
  | generation => exact issues_nothing (Controller.looks_generation hc).concludes
  | attachPart db table part =>
    exact issues_statement ((Controller.asks_ask hc _).map _).issues
  | detachedPartPath db table part =>
    exact issues_statement ((Controller.asks_detachedDirectory hc db table).map _).issues
  | chownDetached db table =>
    have hall := (Controller.asks_detachedDirectory hc db table).bind_issues fun dir =>
      ((Controller.looks_check c.dataRoot dir).bind_concludes fun path =>
        Controller.concludes_changeOwnership hc path c.user c.group).issues
    refine issues_statement (hall.mono fun segment hsegment => ?_)
    rcases hsegment with rfl | ⟨rest, rfl, rfl⟩ <;> rfl
  | restoreMetadata statement => exact ((Controller.asks_ask hc _).map _).issues
  | removeSnapshotPath path =>
    exact issues_nothing (Controller.concludes_removeSnapshotPath hc path)
  | removeSnapshot part =>
    exact issues_nothing (Controller.concludes_removeSnapshotPath hc part.path)
  | removeAllSnapshots => exact issues_nothing (Controller.concludes_removeSnapshotPath hc _)

end Serving

/-! ## Which operation sends which statement -/

/-- A statement that attaches a part. -/
def IsAttach (query : String) : Prop :=
  ∃ db table part, query = Query.attachPart db table part

/-- The statements that freeze are those of two forms, whatever is filled in elsewhere. -/
theorem isFreeze_text_iff {statement : Statement} :
    IsFreeze statement.text ↔ (∃ db table, statement = .freezeTable db table) ∨
      ∃ db table partition, statement = .freezePartition db table partition := by
  constructor
  · rintro (⟨db, table, htext⟩ | ⟨db, table, partition, htext⟩)
    · have htext : statement.text = (Statement.freezeTable db table).text := htext
      exact .inl ⟨db, table, Statement.text_injective htext⟩
    · have htext : statement.text = (Statement.freezePartition db table partition).text := htext
      exact .inr ⟨db, table, partition, Statement.text_injective htext⟩
  · rintro (⟨db, table, rfl⟩ | ⟨db, table, partition, rfl⟩)
    · exact .inl ⟨db, table, rfl⟩
    · exact .inr ⟨db, table, partition, rfl⟩

/-- Those that attach are those of one form. -/
theorem isAttach_text_iff {statement : Statement} :
    IsAttach statement.text ↔ ∃ db table part, statement = .attachPart db table part := by
  constructor
  · rintro ⟨db, table, part, htext⟩
    have htext : statement.text = (Statement.attachPart db table part).text := htext
    exact ⟨db, table, part, Statement.text_injective htext⟩
  · rintro ⟨db, table, part, rfl⟩
    exact ⟨db, table, part, rfl⟩

/-- The statements of a freeze have one of four forms. -/
theorem of_mem_freezeTable {strategy : FreezeStrategy} {db table : String}
    {statements : List Statement} (h : (freezeTable db table).Statements strategy statements)
    {statement : Statement} (hmem : statement ∈ statements) :
    statement = .tableDataPath db table ∨ statement = .freezeTable db table ∨
      statement = .tablePartitions db table ∨
        ∃ name, statement = .freezePartition db table name := by
  rcases h with rfl | h
  · exact .inl (List.mem_singleton.mp hmem)
  · cases strategy with
    | wholeTable =>
      cases h
      rcases List.mem_cons.mp hmem with rfl | hmem
      · exact .inl rfl
      · exact .inr (.inl (List.mem_singleton.mp hmem))
    | perPartition =>
      obtain ⟨names, rfl⟩ := h
      rcases List.mem_cons.mp hmem with rfl | hmem
      · exact .inl rfl
      rcases List.mem_cons.mp hmem with rfl | hmem
      · exact .inr (.inr (.inl rfl))
      · obtain ⟨name, -, rfl⟩ := List.mem_map.mp hmem
        exact .inr (.inr (.inr ⟨name, rfl⟩))

/-- No operation asks for the version, and only those that freeze a table or attach a part do
either. -/
theorem of_mem_statements {strategy : FreezeStrategy} {op : Operation}
    {statements : List Statement} (h : op.Statements strategy statements) {statement : Statement}
    (hmem : statement ∈ statements) :
    statement ≠ .version ∧
      (IsFreeze statement.text → ∃ db table, op = freezeTable db table) ∧
      (IsAttach statement.text → ∃ db table part, op = attachPart db table part) := by
  rw [isFreeze_text_iff, isAttach_text_iff]
  cases op with
  | freezeTable db table =>
    rcases of_mem_freezeTable h hmem with rfl | rfl | rfl | ⟨name, rfl⟩ <;>
      exact ⟨by simp, fun _ => ⟨db, table, rfl⟩, by simp⟩
  | attachPart db table part =>
    cases h
    rw [List.mem_singleton] at hmem
    subst hmem
    exact ⟨by simp, by simp, fun _ => ⟨db, table, part, rfl⟩⟩
  | generation | restoreMetadata _ | removeSnapshotPath _ | removeSnapshot _
  | removeAllSnapshots =>
    cases h
    exact absurd hmem List.not_mem_nil
  | _ =>
    cases h
    rw [List.mem_singleton] at hmem
    simp [hmem]

end Operation

/-! ## Sessions -/

/-- What can happen in the life of a controller. -/
inductive Event (σ : Type) where
  /-- It does an operation, whatever comes of it. -/
  | operation (op : Operation)
  /-- It is given another retry policy. -/
  | retryPolicy (retry : RetryPolicy)
  /-- It is given another way to change owners. -/
  | delegate (delegate : Delegate)
  /-- The engine and the files change by themselves. -/
  | outside (change : σ → Tree → σ × Tree)

/-- The queries of an event: those of an operation, and none otherwise. -/
def Event.Segment {σ : Type} (strategy : FreezeStrategy) : Event σ → List String → Prop
  | operation op, segment => op.Segment strategy segment
  | _, segment => segment = []

/-- A controller and the world that it works in. -/
structure Session (σ : Type) where
  controller : Controller (StateM (World σ))
  world : World σ

namespace Session

variable {σ : Type}

/-- The session after one event. -/
def step (s : Session σ) : Event σ → Session σ
  | .operation op => { s with world := ((op.perform s.controller).run.run s.world).2 }
  | .retryPolicy retry => { s with controller := s.controller.withRetryPolicy retry }
  | .delegate delegate =>
    { s with controller := s.controller.withDelegate (World.changeOwnership delegate) }
  | .outside change =>
    let (engine, tree) := change s.world.engine s.world.tree
    { s with world := { s.world with engine, tree } }

/-- The session after some events, one after the other. -/
def run (s : Session σ) (events : List (Event σ)) : Session σ :=
  events.foldl step s

/-- A session with an engine of this version. -/
structure With (s : Session σ) (engine : Engine σ) (config : Config) (version : EngineVersion) :
    Prop where
  /-- The controller is for the engine, with some way to change owners. -/
  serves : ∃ delegate, s.controller.Serves (World.host engine delegate) config
  /-- It has the version that it was made with. -/
  version : s.controller.version = version

variable {engine : Engine σ} {config : Config} {version : EngineVersion} {s : Session σ}

/-- Its way to freeze is that of the version. -/
theorem With.strategy (h : s.With engine config version) :
    s.controller.strategy = .ofVersion version := by
  obtain ⟨delegate, hserves⟩ := h.serves
  rw [hserves.strategy, h.version]

/-- An event leaves the controller for the engine, and adds its queries to those sent before. -/
theorem With.step (h : s.With engine config version) (e : Event σ) :
    (s.step e).With engine config version ∧
      ∃ segment, e.Segment (.ofVersion version) segment ∧
        (s.step e).world.queries = s.world.queries ++ segment := by
  obtain ⟨delegate, hserves⟩ := h.serves
  have hnothing : s.world.queries = s.world.queries ++ [] := (List.append_nil _).symm
  cases e with
  | operation op =>
    obtain ⟨segment, hqueries, hsegment⟩ := op.issues hserves s.world
    rw [h.strategy] at hsegment
    exact ⟨⟨⟨delegate, hserves⟩, h.version⟩, segment, hsegment, hqueries⟩
  | retryPolicy retry =>
    exact ⟨⟨⟨delegate, hserves.withRetryPolicy retry⟩, h.version⟩, [], rfl, hnothing⟩
  | delegate other =>
    have hother : (s.controller.withDelegate (World.changeOwnership other)).Serves
        (World.host engine other) config := by
      refine ⟨?_, hserves.root, hserves.dataRoot, hserves.shadowRoot, hserves.user, hserves.group,
        hserves.strategy⟩
      unfold Controller.withDelegate
      rw [hserves.host]
      rfl
    exact ⟨⟨⟨other, hother⟩, h.version⟩, [], rfl, hnothing⟩
  | outside change => exact ⟨⟨⟨delegate, hserves⟩, h.version⟩, [], rfl, hnothing⟩

/-- After some events it is still for the engine, and their queries were sent in their order. -/
theorem With.run (h : s.With engine config version) (events : List (Event σ)) :
    (s.run events).With engine config version ∧
      ∃ segments, List.Forall₂ (fun e segment => e.Segment (.ofVersion version) segment)
          events segments ∧
        (s.run events).world.queries = s.world.queries ++ segments.flatten := by
  induction events generalizing s with
  | nil => exact ⟨h, [], .nil, (List.append_nil _).symm⟩
  | cons e events ih =>
    obtain ⟨hstep, segment, hsegment, hqueries⟩ := h.step e
    obtain ⟨hrun, segments, hsegments, hmore⟩ := ih hstep
    refine ⟨hrun, segment :: segments, .cons hsegment hsegments, ?_⟩
    calc ((s.step e).run events).world.queries
        = (s.step e).world.queries ++ segments.flatten := hmore
      _ = s.world.queries ++ (segment :: segments).flatten := by
        rw [hqueries, List.append_assoc, List.flatten_cons]

end Session

/-! ## Which event sends which query -/

namespace Event

variable {σ : Type} {strategy : FreezeStrategy} {e : Event σ} {segment : List String}

/-- Whether an event gives the engine this statement to restore. -/
def restores (statement : String) : Event σ → Bool
  | operation (.restoreMetadata given) => given = statement
  | _ => false

/-- The queries of an event are a statement to restore, or the statements of an operation, or
none. -/
theorem segment_cases (h : e.Segment strategy segment) :
    (∃ statement, e = .operation (.restoreMetadata statement) ∧ segment = [statement]) ∨
      (∀ statement, e.restores statement = false) ∧
        ((∃ op statements, e = .operation op ∧ op.Statements strategy statements ∧
          segment = statements.map Statement.text) ∨ segment = []) := by
  cases e with
  | operation op =>
    cases op with
    | restoreMetadata statement => exact .inl ⟨statement, rfl, h⟩
    | _ =>
      obtain ⟨statements, hstatements, hsegment⟩ := h
      exact .inr ⟨fun _ => rfl, .inl ⟨_, statements, rfl, hstatements, hsegment⟩⟩
  | _ => exact .inr ⟨fun _ => rfl, .inr h⟩

/-- What can be among the queries of an event, unless it gives a statement to restore. -/
theorem of_mem_segment (h : e.Segment strategy segment)
    (hrestores : ∀ statement, e ≠ .operation (.restoreMetadata statement)) {query : String}
    (hmem : query ∈ segment) :
    query ≠ Query.version ∧
      (IsFreeze query → ∃ db table, e = .operation (.freezeTable db table)) ∧
      (Operation.IsAttach query → ∃ db table part, e = .operation (.attachPart db table part)) := by
  rcases segment_cases h with ⟨statement, he, -⟩ | ⟨-, ⟨op, statements, rfl, hop, rfl⟩ | rfl⟩
  · exact absurd he (hrestores statement)
  · obtain ⟨statement, hstatement, rfl⟩ := List.mem_map.mp hmem
    obtain ⟨hversion, hfreeze, hattach⟩ := Operation.of_mem_statements hop hstatement
    refine ⟨fun htext => hversion (Statement.text_injective htext), fun h => ?_, fun h => ?_⟩
    · obtain ⟨db, table, rfl⟩ := hfreeze h
      exact ⟨db, table, rfl⟩
    · obtain ⟨db, table, part, rfl⟩ := hattach h
      exact ⟨db, table, part, rfl⟩
  · cases hmem

/-- The query for the version is among them only if it was given to restore. -/
theorem count_version_segment (h : e.Segment strategy segment) :
    segment.count Query.version = if e.restores Query.version then 1 else 0 := by
  rcases segment_cases h with ⟨statement, rfl, rfl⟩ | ⟨hrestores, hsegment⟩
  · simp [restores, List.count_singleton]
  · have hnot : ∀ statement, e ≠ .operation (.restoreMetadata statement) := by
      rintro statement rfl
      simpa [restores] using hrestores statement
    rw [hrestores, if_neg Bool.false_ne_true, List.count_eq_zero]
    exact fun hmem => (of_mem_segment h hnot hmem).1 rfl

/-- So of all the queries of some events as many ask for the version as were given to restore. -/
theorem count_version_flatten {events : List (Event σ)} {segments : List (List String)}
    (h : List.Forall₂ (fun e segment => e.Segment strategy segment) events segments) :
    segments.flatten.count Query.version = events.countP (restores Query.version) := by
  induction h with
  | nil => rfl
  | cons hsegment _ ih =>
    rw [List.flatten_cons, List.count_append, List.countP_cons, ih, count_version_segment hsegment,
      Nat.add_comm]

end Event

/-- A session begins with one query for the version, which decides once and for all how tables are
frozen. From then on every event sends its own segment of queries: an operation its statements, a
freeze up to where it came to an end, and anything else nothing. So unless the caller gives it to
restore, the query for the version is sent no second time, and what freezes or attaches is sent only
by the operations that are for it. -/
theorem session_queries {σ : Type} {engine : Engine σ} {delegate : Delegate} {config : Config}
    {w w' : World σ} {c : Controller (StateM (World σ))}
    (hconnect : (connect (World.host engine delegate) config).run.run w = (.ok c, w'))
    (events : List (Event σ)) :
    let s := (Session.mk c w').run events
    Controller.readVersion (w.answer engine Query.version) = .ok c.version ∧
    c.strategy = .ofVersion c.version ∧
    s.controller.version = c.version ∧ s.controller.strategy = c.strategy ∧
    ∃ segments : List (List String),
      s.world.queries = w.queries ++ Query.version :: segments.flatten ∧
      (Query.version :: segments.flatten).count Query.version
        = 1 + events.countP (Event.restores Query.version) ∧
      List.Forall₂ (fun e segment => e.Segment c.strategy segment ∧
          ((∀ statement, e ≠ .operation (.restoreMetadata statement)) → ∀ query ∈ segment,
            query ≠ Query.version ∧
            (IsFreeze query → ∃ db table, e = .operation (.freezeTable db table)) ∧
            (Operation.IsAttach query →
              ∃ db table part, e = .operation (.attachPart db table part))))
        events segments := by
  intro s
  have hrun := Controller.run_connect (World.host engine delegate) config w
  rw [hconnect] at hrun
  -- Connecting succeeds only with a version, and has sent nothing but the query for it.
  cases hversion : Controller.readVersion (w.answer engine Query.version) with
  | error e =>
    rw [World.run_ask, hversion] at hrun
    cases hrun
  | ok version =>
    rw [World.run_ask, hversion] at hrun
    obtain ⟨rfl, rfl⟩ : c = serving (World.host engine delegate) config version ∧
        w' = w.after engine [Query.version] := by
      obtain ⟨hc, hw⟩ := Prod.ext_iff.mp hrun
      exact ⟨Except.ok.inj hc, hw⟩
    have hstart : (Session.mk (serving (World.host engine delegate) config version)
        (w.after engine [Query.version])).With engine config version :=
      ⟨⟨delegate, Controller.serving_serves _ config version⟩, rfl⟩
    obtain ⟨hend, segments, hsegments, hqueries⟩ := hstart.run events
    refine ⟨rfl, rfl, hend.version, hend.strategy, segments, ?_, ?_, ?_⟩
    · rw [show s.world.queries = _ from hqueries, World.queries_after, List.append_assoc]
      rfl
    · rw [List.count_cons_self, Event.count_version_flatten hsegments, Nat.add_comm]
    · exact hsegments.imp fun e segment h =>
        ⟨h, fun hrestores query hmem => Event.of_mem_segment h hrestores hmem⟩

/-- A caller who restores the query for the version sends it once more; attaching does not. -/
theorem session_queries_restored :
    let engine := constantEngine (.ok (.text "21.8"))
    let host := World.host engine (.noted (.ok ()))
    let config : Config := ⟨⟨"/ch"⟩, "u", "g", {}, {}⟩
    let w : World Unit := ⟨(), .empty, [], [], [], [], []⟩
    let c := serving host config ⟨[21, 8], "21.8"⟩
    let s := (Session.mk c (w.after engine [Query.version])).run
      [.operation (.attachPart "db" "t" "all_1_1_0"), .operation (.restoreMetadata Query.version)]
    (connect host config).run.run w = (.ok c, w.after engine [Query.version]) ∧
      s.controller.version = c.version ∧ s.world.queries.count Query.version = 2 := by
  intro engine host config w c s
  have hversion : EngineVersion.parse "21.8" = .ok ⟨[21, 8], "21.8"⟩ := by rfl
  have hconnect : (connect host config).run.run w = (.ok c, w.after engine [Query.version]) := by
    have hread : Controller.readVersion (w.answer engine Query.version)
        = .ok ⟨[21, 8], "21.8"⟩ := hversion
    rw [Controller.run_connect, World.run_ask, hread]
    rfl
  obtain ⟨-, -, hsame, -, segments, hqueries, hcount, -⟩ := session_queries hconnect
    [.operation (.attachPart "db" "t" "all_1_1_0"), .operation (.restoreMetadata Query.version)]
  refine ⟨hconnect, hsame, ?_⟩
  rw [show s.world.queries = _ from hqueries, List.nil_append, hcount]
  rfl

end TableSnapshots
