import TableSnapshots.Files
import TableSnapshots.Gateway.Reply
import TableSnapshots.Retry.Delay

/-!
# The host

Everything that snapshots are managed through: the engine that answers queries, the files that it
shares with the caller, and the clock.
-/

namespace TableSnapshots

/-- An engine, its files and a clock. -/
structure Host (m : Type → Type) extends Files m where
  /-- Send a query and take the answer. -/
  ask : String → m (Except GatewayError Reply)
  /-- Let time pass. -/
  wait : Delay → m Unit

end TableSnapshots
