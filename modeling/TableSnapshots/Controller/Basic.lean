import TableSnapshots.Config
import TableSnapshots.Host
import TableSnapshots.Path.Guard
import TableSnapshots.Query
import TableSnapshots.Version

/-!
# Controllers

A controller manages the snapshots of one engine. It asks for the engine's version once, when it is
made, and freezes tables in the way of that version from then on. It confines every operation that
changes files to the directory that the operation is for.
-/

namespace TableSnapshots

/-- Manages the snapshots of one engine. -/
structure Controller (m : Type → Type) where
  host : Host m
  /-- The engine's directory. -/
  root : PathGuard
  /-- Where the tables are, `data` in the engine's directory. -/
  dataRoot : PathGuard
  /-- Where freezes go, `shadow` in the engine's directory. -/
  shadowRoot : PathGuard
  user : String
  group : String
  retry : RetryPolicy
  version : EngineVersion
  strategy : FreezeStrategy

namespace Controller

variable {m : Type → Type} [Monad m] {α : Type}

/-- An operation that may fail. -/
abbrev Op (m : Type → Type) (α : Type) := ExceptT Error m α

/-- Fail as something else did. -/
def ofExcept (r : Except Error α) : Op m α :=
  ExceptT.mk (pure r)

/-- Fail as an answer did. -/
def ofAnswer (r : Except GatewayError α) : Op m α :=
  ofExcept (r.mapError .gateway)

/-- Send a query to a host. -/
def askHost (host : Host m) (query : String) : Op m Reply := do
  ofAnswer (← ExceptT.lift (host.ask query))

/-- Send a query. -/
def ask (c : Controller m) (query : String) : Op m Reply :=
  askHost c.host query

/-- A controller for an engine, after asking for its version. -/
def connect (host : Host m) (config : Config) : Op m (Controller m) := do
  let reply ← askHost host Query.version
  let text ← ofAnswer reply.toText
  let version ← ofExcept (EngineVersion.parse text)
  return {
    host
    root := ⟨config.dataPath⟩
    dataRoot := ⟨config.dataPath.entry "data"⟩
    shadowRoot := ⟨config.dataPath.entry "shadow"⟩
    user := config.user
    group := config.group
    retry := config.teardown.retryPolicy
    version
    strategy := .ofVersion version }

/-- The controller with another way to change owners. -/
def withDelegate (c : Controller m)
    (changeOwnership : Path → (user group : String) → m (Except Fault Unit)) : Controller m :=
  { c with host := { c.host with changeOwnership } }

/-- The controller with another retry policy. -/
def withRetryPolicy (c : Controller m) (retry : RetryPolicy) : Controller m :=
  { c with retry }

end Controller

end TableSnapshots
