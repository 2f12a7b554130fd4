import TableSnapshots.Gateway.Http
import TableSnapshots.Rehearsal.Script

/-!
# Scripted servers

A scripted engine behind HTTP. What a rule answers becomes a response, which is then read as any
response is. A request that goes to another address finds no server.
-/

namespace TableSnapshots.Rehearsal

/-- A server at an address, with its script and the requests that it has seen. -/
structure Server where
  host : String
  portNumber : Nat
  script : Script
  rules : List (Rule × Nat)
  /-- The requests, the first one first. -/
  seen : List Http.Request := []

/-- The response that carries the answer of a rule. -/
def Response.http : Response → Http.Response
  | body s => ⟨200, s.toUTF8⟩
  | text s => ⟨200, s.toUTF8⟩
  | json v => ⟨200, v.compact.toUTF8⟩
  | unexpected what => ⟨200, what.toUTF8⟩
  | server status answer => ⟨status, answer.toUTF8⟩
  | raw bytes => ⟨200, bytes⟩

namespace Server

/-- A server before any request. -/
def fresh (host : String) (portNumber : Nat) (script : Script) : Server :=
  { host, portNumber, script, rules := script.fresh }

/-- Whether a request reaches the server. -/
def isAt (s : Server) (req : Http.Request) : Bool :=
  !req.url.secure && req.url.host = s.host && req.url.portNumber = s.portNumber

/-- Take a request. -/
def take (root : Path) (req : Http.Request) :
    StateM (Server × Tree) (Except String Http.Response) :=
  fun (s, t) =>
    if s.isAt req then
      let (response, edits, rules) := s.script.respond req.body s.rules
      (.ok response.http, { s with rules, seen := s.seen ++ [req] }, Edit.applyAll root edits t)
    else (.error "connection refused", s, t)

/-- The engine that is reached through the server. -/
def engine (root : Path) (client : ClientConfig) : Engine Server :=
  fun query s t => (Http.ask client (take root) query).run (s, t)

end Server

end TableSnapshots.Rehearsal
