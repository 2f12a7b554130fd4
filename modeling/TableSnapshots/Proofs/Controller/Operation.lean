import TableSnapshots.Proofs.Controller.Teardown
import TableSnapshots.Proofs.Freeze.Reference
import TableSnapshots.Proofs.Gateway.Need
import TableSnapshots.Proofs.Query.Format

/-!
# Operations

All that a controller can be asked to do is one list of operations, and all of them talk with the
engine in the same manner: a query is sent, its answer is read, and what was read decides how to go
on, until no further query is sent (`Conversation`). What is looked at between two queries, such as
the counter and the files of a freeze, changes nothing; only after the last query may an operation
change files or owners. `Operation.converses` says so of every operation, and what holds of
conversations holds of all of them.
-/

namespace TableSnapshots

open Controller (Op)

/-! ## Conversations -/

/-- Whether the answer to a query comes in the format that is needed. -/
def Need.Suits : Need → String → Prop
  | answer, _ => True
  | text, query | place, query | count, query => Reply.expectsJson query = false
  | column _, query => Reply.expectsJson query = true

section Conversations

variable {σ : Type} {α β : Type}

/-- A step that sends one query and reads its answer in a way that fits a need. -/
def Asks (engine : Engine σ) (query : String) (need : Need) (x : Op (StateM (World σ)) α) : Prop :=
  ∃ read : Reply → Except GatewayError α, need.Reads read ∧
    ∀ w, x.run.run w
      = ((w.answer engine query >>= read).mapError .gateway, w.after engine [query])

/-- A step without a query that changes nothing and fails in other ways than a query. -/
def Looks (x : Op (StateM (World σ)) α) : Prop :=
  ∀ w, ∃ r, x.run.run w = (r, w) ∧ ∀ e, r ≠ .error (.gateway e)

/-- The steps after the last query. They may change the world, and fail in other ways than a
query. -/
def Concludes (x : Op (StateM (World σ)) α) : Prop :=
  ∀ w, (x.run.run w).2.queries = w.queries ∧ ∀ e, (x.run.run w).1 ≠ .error (.gateway e)

/-- An operation that sends queries of a kind one after the other. The list says what is needed of
the answers, the first one first; of those after the end of the list nothing is needed. -/
inductive Conversation (engine : Engine σ) (Sends : String → Prop) :
    {α : Type} → List Need → Op (StateM (World σ)) α → Prop where
  /-- No query is sent any more. -/
  | concludes {α : Type} {needs : List Need} {x : Op (StateM (World σ)) α} (h : Concludes x) :
    Conversation engine Sends needs x
  /-- Something is looked at, and then the conversation goes on. -/
  | looks {α β : Type} {needs : List Need} {x : Op (StateM (World σ)) α}
    {f : α → Op (StateM (World σ)) β} (hx : Looks x)
    (hf : ∀ a, Conversation engine Sends needs (f a)) : Conversation engine Sends needs (x >>= f)
  /-- A query is sent, and then the conversation goes on. -/
  | asks {α β : Type} {needs : List Need} {x : Op (StateM (World σ)) α}
    {f : α → Op (StateM (World σ)) β} {query : String} (hsends : Sends query)
    (hsuits : (needs.headD .answer).Suits query)
    (hx : Asks engine query (needs.headD .answer) x)
    (hf : ∀ a, Conversation engine Sends needs.tail (f a)) :
    Conversation engine Sends needs (x >>= f)

variable {engine : Engine σ} {Sends : String → Prop} {needs : List Need} {need : Need}
  {query : String} {x : Op (StateM (World σ)) α}

/-- Giving a result changes nothing. -/
theorem looks_pure (a : α) : Looks (pure a : Op (StateM (World σ)) α) :=
  fun _ => ⟨_, rfl, fun _ h => by cases h⟩

/-- Nor does failing in another way than a query. -/
theorem looks_ofExcept {r : Except Error α} (h : ∀ e, r ≠ .error (.gateway e)) :
    Looks (Controller.ofExcept r : Op (StateM (World σ)) α) :=
  fun _ => ⟨r, rfl, h⟩

/-- What only looks can come last. -/
theorem Looks.concludes (h : Looks x) : Concludes x := by
  intro w
  obtain ⟨r, hr, hgateway⟩ := h w
  rw [hr]
  exact ⟨rfl, hgateway⟩

/-- So can what concludes after something was looked at. -/
theorem Looks.bind_concludes {f : α → Op (StateM (World σ)) β} (hx : Looks x)
    (hf : ∀ a, Concludes (f a)) : Concludes (x >>= f) := by
  intro w
  obtain ⟨r, hr, hgateway⟩ := hx w
  cases r with
  | ok a =>
    rw [Controller.run_bind_of_ok hr]
    exact hf a w
  | error e =>
    rw [Controller.run_bind_of_error hr]
    exact ⟨rfl, fun e' h => hgateway e' (by cases h; rfl)⟩

/-- A single query is a conversation. -/
theorem Asks.conversation (hx : Asks engine query (needs.headD .answer) x) (hsends : Sends query)
    (hsuits : (needs.headD .answer).Suits query) : Conversation engine Sends needs x := by
  rw [← bind_pure x]
  exact .asks hsends hsuits hx fun a => .concludes (looks_pure a).concludes

/-- What was read is read further. -/
theorem asks_bind {read : Reply → Except GatewayError α}
    (hrun : ∀ w, x.run.run w
      = ((w.answer engine query >>= read).mapError .gateway, w.after engine [query]))
    {further : α → Except GatewayError β}
    (hreads : need.Reads fun reply => read reply >>= further) :
    Asks engine query need (x >>= fun a => Controller.ofAnswer (further a)) := by
  refine ⟨_, hreads, fun w => ?_⟩
  have hw := hrun w
  rw [← bind_assoc]
  cases hresult : w.answer engine query >>= read with
  | error e =>
    rw [hresult] at hw
    exact Controller.run_bind_of_error hw
  | ok a =>
    rw [hresult] at hw
    exact Controller.run_bind_of_ok hw

/-- What was read can be put into another form. -/
theorem Asks.map (h : Asks engine query need x) (f : α → β) :
    Asks engine query need (x >>= fun a => pure (f a)) := by
  obtain ⟨read, hread, hrun⟩ := h
  exact asks_bind hrun (hread.map f)

/-- A result in another form changes nothing of what concludes. -/
theorem Concludes.map (h : Concludes x) (f : α → β) : Concludes (x >>= fun a => pure (f a)) := by
  intro w
  obtain ⟨hqueries, hgateway⟩ := h w
  rcases hx : x.run.run w with ⟨r, w'⟩
  rw [hx] at hqueries hgateway
  cases r with
  | ok a =>
    rw [Controller.run_bind_of_ok hx]
    exact ⟨hqueries, fun e h => by cases h⟩
  | error e =>
    rw [Controller.run_bind_of_error hx]
    exact ⟨hqueries, fun e' h => hgateway e' (by cases h; rfl)⟩

/-- Nor of a conversation. -/
theorem Conversation.map (h : Conversation engine Sends needs x) (f : α → β) :
    Conversation engine Sends needs (x >>= fun a => pure (f a)) := by
  induction h with
  | concludes h => exact .concludes (h.map f)
  | looks hx _ ih =>
    rw [bind_assoc]
    exact .looks hx fun a => ih a f
  | asks hsends hsuits hx _ ih =>
    rw [bind_assoc]
    exact .asks hsends hsuits hx fun a => ih a f

end Conversations

/-! ## Steps -/

namespace Controller

variable {σ : Type} {engine : Engine σ} {delegate : Delegate} {config : Config}
  {c : Controller (StateM (World σ))} (hc : c.Serves (World.host engine delegate) config)
include hc

/-- An answer that is not looked at. -/
theorem asks_ask (query : String) : Asks engine query .answer (c.ask query) := by
  refine ⟨_, Need.reads_answer, fun w => ?_⟩
  unfold ask
  rw [hc.host, run_askHost, World.run_ask]
  cases w.answer engine query <;> rfl

/-- A text. -/
theorem run_askText_host (query : String) (w : World σ) :
    (c.askText query).run.run w
      = ((w.answer engine query >>= Reply.toText).mapError .gateway, w.after engine [query]) := by
  rw [run_askText, hc.host, World.run_ask]

/-- A text is needed. -/
theorem asks_askText (query : String) : Asks engine query .text (c.askText query) :=
  ⟨_, Need.reads_text, run_askText_host hc query⟩

/-- A column is needed. -/
theorem asks_askColumn (query name : String) :
    Asks engine query (.column name) (c.askColumn query name) := by
  refine ⟨_, Need.reads_column name, fun w => ?_⟩
  rw [run_askColumn, hc.host, World.run_ask]

/-- A number is needed to tell whether there is a table. -/
theorem asks_tableExists (db table : String) :
    Asks engine (Query.checkTable db table) .count (c.tableExists db table) := by
  have hcount : Asks engine (Query.checkTable db table) .count
      (c.askText (Query.checkTable db table) >>= fun text => ofAnswer (readCount text)) :=
    asks_bind (run_askText_host hc _) Need.reads_count
  have hexists := hcount.map fun count => decide (count > 0)
  rwa [bind_assoc] at hexists

omit hc in
/-- The directory of a table is read from a text that is not empty. -/
theorem reads_dataPath (db table : String) :
    Need.place.Reads fun reply => readDataPath db table (.ok reply) where
  met := by
    rintro _ ⟨s, rfl, hs⟩
    exact ⟨⟨s⟩, if_neg hs⟩
  unmet reply h := by
    cases reply with
    | json v => exact ⟨_, rfl⟩
    | text s =>
      have hs : s = "" := by
        by_contra hs
        exact h ⟨s, rfl, hs⟩
      exact ⟨_, if_pos hs⟩
  format := by
    rintro _ e ⟨s, rfl⟩ h
    change (if s = "" then _ else _) = _ at h
    split at h
    · cases h
      rw [String.append_assoc, String.append_assoc]
      exact Need.not_isMismatch_of_start _ (by simp)
    · cases h

/-- The directory of a table is needed. -/
theorem asks_tableDataPath (db table : String) :
    Asks engine (Query.tableDataPath db table) .place (c.tableDataPath db table) := by
  refine ⟨_, reads_dataPath db table, fun w => ?_⟩
  rw [run_tableDataPath, hc.host, World.run_ask]
  cases w.answer engine (Query.tableDataPath db table) <;> rfl

/-- The partitions of a table are a column. -/
theorem asks_partitions (db table : String) :
    Asks engine (Query.tablePartitions db table) (.column "partition") (c.partitions db table) :=
  (asks_askColumn hc _ "partition").map _

/-- The directory of the detached parts takes what the directory of the table takes. -/
theorem asks_detachedDirectory (db table : String) :
    Asks engine (Query.tableDataPath db table) .place (c.detachedDirectory db table) :=
  (asks_tableDataPath hc db table).map _

/-- The counter is only looked at. -/
theorem looks_generation : Looks c.generation := by
  intro w
  refine ⟨_, run_generation hc w, fun e h => ?_⟩
  cases hnumber : w.tree.readFile c.incrementPath >>= readGeneration with
  | error fault =>
    rw [hnumber] at h
    cases h
  | ok number =>
    rw [hnumber] at h
    cases h

/-- So are the parts of the latest freeze. -/
theorem looks_collectParts (db table : String) (relative : Path) :
    Looks (c.collectParts db table relative) := by
  intro w
  refine ⟨_, run_collectParts hc w, fun e h => ?_⟩
  unfold Reference.frozenParts at h
  dsimp only at h
  cases hnumber : w.tree.readFile ((config.dataPath.entry "shadow").entry "increment.txt")
      >>= readGeneration with
  | error fault =>
    rw [hnumber] at h
    cases h
  | ok number =>
    rw [hnumber] at h
    change (w.tree.parts (((config.dataPath.entry "shadow").entry
      (Text.decimal number)).join relative) db table).mapError _ = _ at h
    cases hparts : w.tree.parts (((config.dataPath.entry "shadow").entry
        (Text.decimal number)).join relative) db table with
    | error fault =>
      rw [hparts] at h
      cases h
    | ok ps =>
      rw [hparts] at h
      cases h

omit hc in
/-- A path is looked at without the host. -/
theorem looks_relativePath (c : Controller (StateM (World σ))) (p : Path) :
    Looks (ofExcept (c.relativePath p) : Op (StateM (World σ)) Path) := by
  refine looks_ofExcept fun e => ?_
  by_cases haccepts : c.root.accepts p = true
  · rw [relativePath_of_accepts haccepts]
    split <;> rintro ⟨⟩
  · have hcheck : c.root.check p = .error (.pathViolation p c.root.root) := if_neg haccepts
    unfold relativePath
    rw [hcheck]
    rintro ⟨⟩

omit hc in
/-- So is a path that is to be guarded. -/
theorem looks_check (g : PathGuard) (p : Path) :
    Looks (ofExcept (g.check p) : Op (StateM (World σ)) Path) := by
  refine looks_ofExcept fun e => ?_
  unfold PathGuard.check
  split <;> rintro ⟨⟩

/-- A request to change owners comes last. -/
theorem concludes_changeOwnership (path : Path) (user group : String) :
    Concludes (do
      match ← ExceptT.lift (c.host.changeOwnership path user group) with
      | .error fault => throw (.file path fault)
      | .ok () => return () : Op (StateM (World σ)) Unit) := by
  intro w
  have hqueries : ((c.host.changeOwnership path user group).run w).2.queries = w.queries := by
    rw [hc.host]
    cases delegate <;> rfl
  rw [run_bind_of_ok (run_lift _ _)]
  cases ((c.host.changeOwnership path user group).run w).1 with
  | error fault => exact ⟨hqueries, fun e h => by cases h⟩
  | ok u => exact ⟨hqueries, fun e h => by cases h⟩

/-- So does a teardown. -/
theorem concludes_removeSnapshotPath (p : Path) : Concludes (c.removeSnapshotPath p) := by
  intro w
  refine ⟨removeSnapshotPath_preserves (f := World.queries) hc (fun _ _ => rfl) (fun _ _ => rfl)
    p w, fun e h => ?_⟩
  cases haccepts : c.shadowRoot.accepts p with
  | false =>
    rw [removeSnapshotPath_of_refused haccepts] at h
    cases h
  | true =>
    rw [run_removeSnapshotPath haccepts] at h
    cases hresult : ((c.retry.run (c.removeOnce p) c.host.wait).run w).1 with
    | ok u =>
      rw [hresult] at h
      cases h
    | error failure =>
      rw [hresult] at h
      cases h

/-- Partitions are frozen one after the other, each by a statement of its own whose answer is not
looked at. -/
theorem converses_freezePartitions {Sends : String → Prop} (db table : String) (relative : Path)
    (ps : List Partition)
    (hsends : ∀ p ∈ ps, Sends (Query.freezePartition db table p.name)) :
    Conversation engine Sends [] (c.freezePartitions db table relative ps) := by
  induction ps with
  | nil => exact .concludes (looks_pure _).concludes
  | cons p ps ih =>
    -- The other partitions are a conversation, and its result is put after the first parts.
    refine .asks (hsends p List.mem_cons_self) trivial (asks_ask hc _) fun _ => ?_
    refine .looks (looks_collectParts hc db table relative) fun parts => ?_
    exact (ih fun q hq => hsends q (List.mem_cons_of_mem p hq)).map (parts ++ ·)

omit hc in
/-- A controller is made after one query for a text. -/
theorem converses_connect (delegate : Delegate) (config : Config) :
    Conversation engine (· = Query.version) [.text]
      (connect (World.host engine delegate) config) := by
  have hversion : Asks engine Query.version .text
      (askHost (World.host engine delegate) Query.version >>= fun reply =>
        ofAnswer reply.toText) := by
    have hrun : ∀ w, (askHost (World.host engine delegate) Query.version).run.run w
        = ((w.answer engine Query.version >>= Except.ok).mapError .gateway,
            w.after engine [Query.version]) := by
      intro w
      rw [run_askHost, World.run_ask]
      cases w.answer engine Query.version <;> rfl
    exact asks_bind hrun Need.reads_text
  unfold connect
  rw [← bind_assoc]
  refine .asks rfl (Query.expectsJson_text .version) hversion fun text => .concludes ?_
  refine (looks_ofExcept fun e => ?_).bind_concludes fun version => (looks_pure _).concludes
  unfold EngineVersion.parse
  split <;> rintro ⟨⟩

end Controller

/-! ## All operations -/

/-- What a controller can be asked to do. -/
inductive Operation where
  | listDatabases (exclude : List String)
  | listTables (db : String)
  | tableExists (db table : String)
  | databaseSchema (db : String)
  | tableSchema (db table : String)
  | tablesOrdered (db : String) (tables : List String)
  | partitions (db table : String)
  | tableDataPath (db table : String)
  | freezeTable (db table : String)
  | generation
  | attachPart (db table part : String)
  | detachedPartPath (db table part : String)
  | chownDetached (db table : String)
  | restoreMetadata (statement : String)
  | removeSnapshotPath (path : Path)
  | removeSnapshot (part : FrozenPart)
  | removeAllSnapshots

namespace Operation

/-- What an operation gives. -/
def Result : Operation → Type
  | listDatabases _ | listTables _ | tablesOrdered _ _ => List String
  | tableExists _ _ => Bool
  | databaseSchema _ | tableSchema _ _ => String
  | partitions _ _ => List Partition
  | tableDataPath _ _ | detachedPartPath _ _ _ => Path
  | freezeTable _ _ => List FrozenPart
  | generation => Nat
  | attachPart _ _ _ | chownDetached _ _ | restoreMetadata _ => Unit
  | removeSnapshotPath _ | removeSnapshot _ | removeAllSnapshots => Unit

/-- A controller does an operation. -/
def perform {m : Type → Type} [Monad m] (c : Controller m) : (op : Operation) → Op m op.Result
  | listDatabases exclude => c.listDatabases exclude
  | listTables db => c.listTables db
  | tableExists db table => c.tableExists db table
  | databaseSchema db => c.databaseSchema db
  | tableSchema db table => c.tableSchema db table
  | tablesOrdered db tables => c.tablesOrdered db tables
  | partitions db table => c.partitions db table
  | tableDataPath db table => c.tableDataPath db table
  | freezeTable db table => c.freezeTable db table
  | generation => c.generation
  | attachPart db table part => c.attachPart db table part
  | detachedPartPath db table part => c.detachedPartPath db table part
  | chownDetached db table => c.chownDetached db table
  | restoreMetadata statement => c.restoreMetadata statement
  | removeSnapshotPath path => c.removeSnapshotPath path
  | removeSnapshot part => c.removeSnapshot part
  | removeAllSnapshots => c.removeAllSnapshots

/-- What an operation needs of the answers to its queries, the first one first. Nothing is needed of
any further answer. -/
def needs (strategy : FreezeStrategy) : Operation → List Need
  | listDatabases _ | listTables _ | tablesOrdered _ _ => [.column "name"]
  | tableExists _ _ => [.count]
  | databaseSchema _ | tableSchema _ _ => [.text]
  | partitions _ _ => [.column "partition"]
  | tableDataPath _ _ | detachedPartPath _ _ _ | chownDetached _ _ => [.place]
  | freezeTable _ _ =>
    match strategy with
    | .wholeTable => [.place]
    | .perPartition => [.place, .column "partition"]
  | _ => []

/-- The queries that an operation may send. -/
def Sends (strategy : FreezeStrategy) : Operation → String → Prop
  | listDatabases _, query => query = Query.showDatabases
  | listTables db, query => query = Query.showTables db
  | tableExists db table, query => query = Query.checkTable db table
  | databaseSchema db, query => query = Query.showCreateDatabase db
  | tableSchema db table, query => query = Query.showCreateTable db table
  | tablesOrdered db tables, query => query = Query.tablesOrdered db tables
  | partitions db table, query => query = Query.tablePartitions db table
  | tableDataPath db table, query | detachedPartPath db table _, query
  | chownDetached db table, query => query = Query.tableDataPath db table
  | freezeTable db table, query =>
    query = Query.tableDataPath db table ∨
      match strategy with
      | .wholeTable => query = Query.freezeTable db table
      | .perPartition => query = Query.tablePartitions db table ∨
          ∃ partition, query = Query.freezePartition db table partition
  | attachPart db table part, query => query = Query.attachPart db table part
  | restoreMetadata statement, query => query = statement
  | _, _ => False

open Controller in
/-- Every operation converses with the engine. -/
theorem converses {σ : Type} {engine : Engine σ} {delegate : Delegate} {config : Config}
    {c : Controller (StateM (World σ))} (hc : c.Serves (World.host engine delegate) config)
    (op : Operation) :
    Conversation engine (op.Sends c.strategy) (op.needs c.strategy) (op.perform c) := by
  -- Most operations are one query whose answer is put into another form; only freezing a table
  -- sends several, and only changing owners does anything after its query.
  have hstatement := Query.expectsJson_text
  cases op with
  | listDatabases exclude =>
    exact ((asks_askColumn hc _ "name").map _).conversation rfl (hstatement .showDatabases)
  | listTables db =>
    exact (asks_askColumn hc _ "name").conversation rfl (hstatement (.showTables db))
  | tableExists db table =>
    exact (asks_tableExists hc db table).conversation rfl (hstatement (.checkTable db table))
  | databaseSchema db =>
    exact (asks_askText hc _).conversation rfl (hstatement (.showCreateDatabase db))
  | tableSchema db table =>
    exact (asks_askText hc _).conversation rfl (hstatement (.showCreateTable db table))
  | tablesOrdered db tables =>
    exact (asks_askColumn hc _ "name").conversation rfl (hstatement (.tablesOrdered db tables))
  | partitions db table =>
    exact (asks_partitions hc db table).conversation rfl
      (hstatement (.tablePartitions db table))
  | tableDataPath db table =>
    exact (asks_tableDataPath hc db table).conversation rfl (hstatement (.tableDataPath db table))
  | freezeTable db table =>
    have hpath := hstatement (.tableDataPath db table)
    dsimp only [perform, Controller.freezeTable]
    cases c.strategy with
    | wholeTable =>
      refine .asks (.inl rfl) hpath (asks_tableDataPath hc db table) fun path => ?_
      refine .looks (looks_relativePath c path) fun relative => ?_
      refine .asks (.inr rfl) trivial (asks_ask hc _) fun _ => ?_
      exact .concludes (looks_collectParts hc db table relative).concludes
    | perPartition =>
      refine .asks (.inl rfl) hpath (asks_tableDataPath hc db table) fun path => ?_
      refine .looks (looks_relativePath c path) fun relative => ?_
      refine .asks (.inr (.inl rfl)) (hstatement (.tablePartitions db table))
        (asks_partitions hc db table) fun ps => ?_
      exact converses_freezePartitions hc db table relative ps fun p _ => .inr (.inr ⟨p.name, rfl⟩)
  | generation => exact .concludes (looks_generation hc).concludes
  | attachPart db table part =>
    exact ((asks_ask hc _).map _).conversation rfl trivial
  | detachedPartPath db table part =>
    exact ((asks_detachedDirectory hc db table).map _).conversation rfl
      (hstatement (.tableDataPath db table))
  | chownDetached db table =>
    refine .asks rfl (hstatement (.tableDataPath db table))
      (asks_detachedDirectory hc db table) fun dir => .concludes ?_
    exact (looks_check c.dataRoot dir).bind_concludes fun path =>
      concludes_changeOwnership hc path c.user c.group
  | restoreMetadata statement => exact ((asks_ask hc _).map _).conversation rfl trivial
  | removeSnapshotPath path => exact .concludes (concludes_removeSnapshotPath hc path)
  | removeSnapshot part => exact .concludes (concludes_removeSnapshotPath hc part.path)
  | removeAllSnapshots => exact .concludes (concludes_removeSnapshotPath hc _)

end Operation

end TableSnapshots
