import TableSnapshots.Host
import TableSnapshots.Tree.Ownership
import TableSnapshots.Tree.Read
import TableSnapshots.Tree.Remove

/-!
# A world to run in

A host whose whole state is a value: an engine that answers queries and may change files while it
does so, a file tree, and a record of what was asked for. Running an operation on it gives the
answer and the state afterwards, so that statements about a session are statements about values.
-/

namespace TableSnapshots

/-- An engine with states `σ`. To a query it answers or fails, moves on to another state, and may
change the file tree. -/
abbrev Engine (σ : Type) := String → σ → Tree → Except GatewayError Reply × σ × Tree

/-- A request to change owners. -/
structure OwnershipRequest where
  path : Path
  user : String
  group : String
  deriving DecidableEq, Repr

/-- How requests to change owners are met. -/
inductive Delegate where
  /-- The request is only noted, and answered as given. -/
  | noted (answer : Except Fault Unit)
  /-- The owners in the tree are changed. -/
  | acting (authority : Authority)

/-- The state of an engine, the files, and what was asked for so far. -/
structure World (σ : Type) where
  engine : σ
  tree : Tree
  /-- The queries, the first one first. -/
  queries : List String := []
  /-- The noted requests to change owners, the first one first. -/
  requests : List OwnershipRequest := []
  /-- The waits, the first one first. -/
  waits : List Delay := []
  /-- The lines of the result, the first one first. -/
  printed : List String := []
  /-- The lines about what was done, the first one first. -/
  reported : List String := []

namespace World

variable {σ : Type}

/-- Send a query to the engine. -/
def ask (engine : Engine σ) (query : String) : StateM (World σ) (Except GatewayError Reply) :=
  fun w =>
    let (answer, state, tree) := engine query w.engine w.tree
    (answer, { w with engine := state, tree, queries := w.queries ++ [query] })

/-- Look at the files. -/
def observe {α : Type} (f : Tree → α) : StateM (World σ) α :=
  fun w => (f w.tree, w)

/-- Change the files. -/
def act {α : Type} (f : Tree → α × Tree) : StateM (World σ) α :=
  fun w =>
    let (a, tree) := f w.tree
    (a, { w with tree })

/-- Meet a request to change owners. -/
def changeOwnership (delegate : Delegate) (path : Path) (user group : String) :
    StateM (World σ) (Except Fault Unit) :=
  match delegate with
  | .noted answer => fun w => (answer, { w with requests := w.requests ++ [⟨path, user, group⟩] })
  | .acting authority => act fun t => t.changeOwnership authority path user group

/-- The host that a world is, with this engine and this way to change owners. -/
def host (engine : Engine σ) (delegate : Delegate) : Host (StateM (World σ)) where
  ask := ask engine
  wait d := fun w => ((), { w with waits := w.waits ++ [d] })
  readFile path := observe fun t => t.readFile path
  listDirectory path := observe fun t => t.listDirectory path
  isPresent path := observe fun t => t.isPresent path
  removeAll path := act fun t => t.removeAll path
  changeOwnership := changeOwnership delegate

end World

end TableSnapshots
