import TableSnapshots.Controller.Freeze
import TableSnapshots.Controller.Restore
import TableSnapshots.Controller.Teardown
import TableSnapshots.Proofs.Version.Strategy

/-!
# Running an operation

An operation over a host that is a state: what it gives, and the state that it leaves. An operation
is run step by step, each step either going on with its result (`run_bind_of_ok`) or ending the
whole with its error (`run_bind_of_error`). `Controller.Serves` says which engine and which
configuration a controller is for; those that `connect` makes are for what they were made with
(`exists_serving_of_connect`, `serving_serves`).
-/

namespace TableSnapshots.Controller

/-! ## Steps -/

section Steps

variable {ε S α β : Type}

/-- After a step that succeeds the rest goes on from its state. -/
theorem run_bind_of_ok {x : ExceptT ε (StateM S) α} {f : α → ExceptT ε (StateM S) β}
    {s s' : S} {a : α} (h : x.run.run s = (.ok a, s')) :
    (x >>= f).run.run s = (f a).run.run s' := by
  rw [ExceptT.run_bind, StateT.run_bind, h]
  rfl

/-- A step that fails ends the whole with its error, in its state. -/
theorem run_bind_of_error {x : ExceptT ε (StateM S) α} {f : α → ExceptT ε (StateM S) β}
    {s s' : S} {e : ε} (h : x.run.run s = (.error e, s')) :
    (x >>= f).run.run s = (.error e, s') := by
  rw [ExceptT.run_bind, StateT.run_bind, h]
  rfl

/-- If the whole succeeds, so did its first step, and the rest after it. -/
theorem exists_of_run_bind {x : ExceptT ε (StateM S) α} {f : α → ExceptT ε (StateM S) β}
    {s s' : S} {b : β} (h : (x >>= f).run.run s = (.ok b, s')) :
    ∃ a s₁, x.run.run s = (.ok a, s₁) ∧ (f a).run.run s₁ = (.ok b, s') := by
  rcases hx : x.run.run s with ⟨r, s₁⟩
  cases r with
  | error e =>
    rw [run_bind_of_error hx] at h
    cases h
  | ok a => exact ⟨a, s₁, rfl, by rw [← run_bind_of_ok hx, h]⟩

/-- Telling an error in another way makes no success of it. -/
theorem eq_ok_of_mapError {ε' : Type} {x : Except ε α} {f : ε → ε'} {a : α}
    (h : x.mapError f = .ok a) : x = .ok a := by
  cases x with
  | error e => cases h
  | ok b =>
    cases h
    rfl

/-- Giving a result changes nothing. -/
theorem run_pure (a : α) (s : S) : (pure a : Op (StateM S) α).run.run s = (.ok a, s) := rfl

/-- Failing as something else did changes nothing. -/
theorem run_ofExcept (r : Except Error α) (s : S) :
    (ofExcept r : Op (StateM S) α).run.run s = (r, s) := rfl

/-- A step of the host that fails in no way of its own. -/
theorem run_lift (x : StateM S α) (s : S) :
    (ExceptT.lift x : Op (StateM S) α).run.run s = (.ok (x.run s).1, (x.run s).2) := rfl

end Steps

/-! ## Queries -/

section Queries

variable {S : Type}

/-- A query gives the answer of the host, and leaves the state that the host leaves. -/
theorem run_askHost (host : Host (StateM S)) (query : String) (s : S) :
    (askHost host query).run.run s
      = (((host.ask query).run s).1.mapError .gateway, ((host.ask query).run s).2) := rfl

/-- A query for a text. -/
theorem run_askText (c : Controller (StateM S)) (query : String) (s : S) :
    (c.askText query).run.run s
      = ((((c.host.ask query).run s).1 >>= Reply.toText).mapError .gateway,
        ((c.host.ask query).run s).2) := by
  have h := run_askHost c.host query s
  unfold askText ask
  cases hreply : ((c.host.ask query).run s).1 with
  | error e =>
    rw [hreply] at h
    exact run_bind_of_error h
  | ok reply =>
    rw [hreply] at h
    exact run_bind_of_ok h

/-- A query for a column. -/
theorem run_askColumn (c : Controller (StateM S)) (query column : String) (s : S) :
    (c.askColumn query column).run.run s
      = ((((c.host.ask query).run s).1 >>= Reply.column column).mapError .gateway,
        ((c.host.ask query).run s).2) := by
  have h := run_askHost c.host query s
  unfold askColumn ask
  cases hreply : ((c.host.ask query).run s).1 with
  | error e =>
    rw [hreply] at h
    exact run_bind_of_error h
  | ok reply =>
    rw [hreply] at h
    exact run_bind_of_ok h

/-- What the answer to the query for a table's directory says. -/
def readDataPath (db table : String) (answer : Except GatewayError Reply) :
    Except GatewayError Path := do
  let text ← answer >>= Reply.toText
  if text = "" then throw (.unexpected ("no data path for " ++ db ++ "." ++ table))
  else return ⟨text⟩

/-- A text that is not empty is the path. -/
theorem readDataPath_text {text : String} (h : text ≠ "") (db table : String) :
    readDataPath db table (.ok (.text text)) = .ok ⟨text⟩ :=
  if_neg h

/-- The directory of a table takes one query. -/
theorem run_tableDataPath (c : Controller (StateM S)) (db table : String) (s : S) :
    (c.tableDataPath db table).run.run s
      = ((readDataPath db table ((c.host.ask (Query.tableDataPath db table)).run s).1).mapError
          .gateway,
        ((c.host.ask (Query.tableDataPath db table)).run s).2) := by
  have h := run_askText c (Query.tableDataPath db table) s
  unfold tableDataPath readDataPath
  cases htext : ((c.host.ask (Query.tableDataPath db table)).run s).1 >>= Reply.toText with
  | error e =>
    rw [htext] at h
    rw [run_bind_of_error h]
    rfl
  | ok text =>
    rw [htext] at h
    rw [run_bind_of_ok h]
    by_cases hempty : text = ""
    · rw [if_pos hempty]
      change _ = (Except.mapError _ (if text = "" then _ else _), _)
      rw [if_pos hempty]
      rfl
    · rw [if_neg hempty]
      change _ = (Except.mapError _ (if text = "" then _ else _), _)
      rw [if_neg hempty]
      rfl

end Queries

/-! ## What a controller is for -/

section Serving

variable {m : Type → Type}

/-- A controller is for the engine and the files behind `host`, with this configuration. -/
structure Serves (c : Controller m) (host : Host m) (config : Config) : Prop where
  /-- It asks this engine and works on these files. -/
  host : c.host = host
  /-- The engine's directory is the configured one. -/
  root : c.root.root = config.dataPath
  /-- Tables are looked for in `data`. -/
  dataRoot : c.dataRoot.root = config.dataPath.entry "data"
  /-- Freezes are looked for in `shadow`. -/
  shadowRoot : c.shadowRoot.root = config.dataPath.entry "shadow"
  user : c.user = config.user
  group : c.group = config.group
  /-- The engine's version decides how tables are frozen. -/
  strategy : c.strategy = .ofVersion c.version

/-- Another retry policy changes nothing else. -/
theorem Serves.withRetryPolicy {c : Controller m} {host : Host m} {config : Config}
    (h : c.Serves host config) (retry : RetryPolicy) :
    (c.withRetryPolicy retry).Serves host config :=
  ⟨h.host, h.root, h.dataRoot, h.shadowRoot, h.user, h.group, h.strategy⟩

/-- The controller for an engine of this version. -/
def serving (host : Host m) (config : Config) (version : EngineVersion) : Controller m where
  host := host
  root := ⟨config.dataPath⟩
  dataRoot := ⟨config.dataPath.entry "data"⟩
  shadowRoot := ⟨config.dataPath.entry "shadow"⟩
  user := config.user
  group := config.group
  retry := config.teardown.retryPolicy
  version := version
  strategy := .ofVersion version

/-- It is for that engine. -/
theorem serving_serves (host : Host m) (config : Config) (version : EngineVersion) :
    (serving host config version).Serves host config :=
  ⟨rfl, rfl, rfl, rfl, rfl, rfl, rfl⟩

/-- The same with the way to freeze already worked out. -/
theorem serving_serves_of {version : EngineVersion} {strategy : FreezeStrategy} (host : Host m)
    (config : Config) (h : FreezeStrategy.ofVersion version = strategy) :
    ({ serving host config version with strategy } : Controller m).Serves host config :=
  ⟨rfl, rfl, rfl, rfl, rfl, rfl, h.symm⟩

end Serving

/-- Engines from 19 on freeze whole tables. -/
theorem ofVersion_of_lt {n : Nat} (h : 18 < n) (ns : List Nat) (text : String) :
    FreezeStrategy.ofVersion ⟨n :: ns, text⟩ = .wholeTable :=
  (FreezeStrategy.ofVersion_eq_iff rfl).mpr (.inl h)

/-- Engines before 18 freeze partitions. -/
theorem ofVersion_of_gt {n : Nat} (h : n < 18) (ns : List Nat) (text : String) :
    FreezeStrategy.ofVersion ⟨n :: ns, text⟩ = .perPartition := by
  have hnot : FreezeStrategy.ofVersion ⟨n :: ns, text⟩ ≠ .wholeTable := by
    rw [ne_eq, FreezeStrategy.ofVersion_eq_iff rfl]
    omega
  cases hstrategy : FreezeStrategy.ofVersion ⟨n :: ns, text⟩ with
  | wholeTable => exact absurd hstrategy hnot
  | perPartition => rfl

/-- What the answer to the query for the version says. -/
def readVersion (answer : Except GatewayError Reply) : Except Error EngineVersion := do
  let text ← (answer >>= Reply.toText).mapError .gateway
  EngineVersion.parse text

/-- Connecting takes one query. It makes the controller for the engine of the version that the
answer tells. -/
theorem run_connect {S : Type} (host : Host (StateM S)) (config : Config) (s : S) :
    (connect host config).run.run s
      = ((readVersion ((host.ask Query.version).run s).1).map (serving host config),
        ((host.ask Query.version).run s).2) := by
  have hask := run_askHost host Query.version s
  unfold connect readVersion ofAnswer
  cases hanswer : ((host.ask Query.version).run s).1 with
  | error e =>
    rw [hanswer] at hask
    exact run_bind_of_error hask
  | ok reply =>
    rw [hanswer] at hask
    rw [run_bind_of_ok hask]
    change _ = ((reply.toText.mapError .gateway >>= EngineVersion.parse).map _, _)
    cases reply.toText.mapError Error.gateway with
    | error e => exact run_bind_of_error (run_ofExcept _ _)
    | ok text =>
      rw [run_bind_of_ok (run_ofExcept _ _)]
      change _ = ((EngineVersion.parse text).map _, _)
      cases EngineVersion.parse text with
      | error e => exact run_bind_of_error (run_ofExcept _ _)
      | ok version => exact run_bind_of_ok (run_ofExcept _ _)

/-- Connecting makes the controller for the engine of the version that it was told. -/
theorem exists_serving_of_connect {S : Type} {host : Host (StateM S)} {config : Config} {s s' : S}
    {c : Controller (StateM S)} (h : (connect host config).run.run s = (.ok c, s')) :
    ∃ version, c = serving host config version := by
  rw [run_connect] at h
  cases hversion : readVersion ((host.ask Query.version).run s).1 with
  | error e =>
    rw [hversion] at h
    cases h
  | ok version =>
    rw [hversion] at h
    cases h
    exact ⟨version, rfl⟩

end TableSnapshots.Controller
