import TableSnapshots.CommandLine.Run
import TableSnapshots.Rehearsal.Server

/-!
# Sessions of the command line

A command line that runs in a world, with a scripted server at an address of its own. What it prints
stays in the world, beside the files and the requests that the server has seen.
-/

namespace TableSnapshots.Rehearsal

open CommandLine (Console Failure)

/-- The console of a world, which keeps every line but those of the log. -/
def console {σ : Type} : Console (StateM (World σ)) where
  print line := fun w => ((), { w with printed := w.printed ++ [line] })
  report line := fun w => ((), { w with reported := w.reported ++ [line] })
  warn _ := pure ()

/-- Run a command line with a server that edits files below `root`. Whatever configuration the
command line names, its requests go through the server. -/
def Server.run (root : Path) (delegate : Delegate) (args : List String) :
    StateM (World Server) (Except Failure Unit) :=
  let hostOf (client : ClientConfig) := World.host (Server.engine root client) delegate
  (CommandLine.run (hostOf {}).toFiles hostOf console args).run

end TableSnapshots.Rehearsal
