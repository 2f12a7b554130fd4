import Std.Async.DNS
import Std.Async.TCP
import TableSnapshots.CommandLine.Run
import TableSnapshots.Gateway.Wire

/-!
# The program

The command line on the machine that it runs on. Configurations and the counter of freezes are read
from its files, queries go over its network, and what a command prints goes to its standard output.
Everything that is decided is decided elsewhere; here it only meets the machine. The machine's
directories cannot be listed from here, nor owners changed: what asks for that fails as unsupported,
and so does an address that asks for an encrypted connection.
-/

namespace TableSnapshots.Program

open Std.Async
open CommandLine (Console Failure)

/-! ## Files -/

/-- The number that the operating system gave a failure. -/
def code? : IO.Error → Option UInt32
  | .alreadyExists _ code _ | .otherError code _ | .resourceBusy code _ | .resourceVanished code _
  | .unsupportedOperation code _ | .hardwareFault code _ | .unsatisfiedConstraints code _
  | .illegalOperation code _ | .protocolError code _ | .timeExpired code _ | .interrupted _ code _
  | .noFileOrDirectory _ code _ | .invalidArgument _ code _ | .permissionDenied _ code _
  | .resourceExhausted _ code _ | .inappropriateType _ code _ | .noSuchThing _ code _ => some code
  | .unexpectedEof | .userError _ => none

/-- The fault that a failure is. Some failures come with the number negated. -/
def faultOf (e : IO.Error) : Fault :=
  match code? e with
  | some code => .system code.toInt32.toInt.natAbs
  | none => .described .other (toString e)

/-- Run a file operation on a path of the machine. -/
def onPath {α : Type} (path : Path) (act : String → IO α) : IO (Except Fault α) := do
  if path.text.contains '\x00' then return .error .zeroInPath
  try return .ok (← act path.text)
  catch e => return .error (faultOf e)

/-- Whether what a path names is a link: its true path is not that of an entry of its directory. -/
def isLink (path : String) : IO Bool := do
  let name := (path.toList.reverse.takeWhile (· ≠ '/')).reverse
  let directory := path.toList.take (path.length - name.length)
  if ["", ".", ".."].contains (String.ofList name) then return false
  let home ← IO.FS.realPath (if directory = [] then "." else String.ofList directory)
  try return (← IO.FS.realPath path) != home / String.ofList name
  catch _ => return true

/-- Remove a directory with all that is in it, or a link. No link in it is followed. -/
def removeAll (path : String) : IO Unit := do
  try IO.FS.removeDir path
  catch e =>
    let fault := faultOf e
    if fault = .notEmpty then IO.FS.removeDirAll path
    else if fault = .notDirectory && (← isLink path) then IO.FS.removeFile path
    else throw e

/-- The files of the machine. -/
def files : Files IO where
  readFile path := onPath path fun text => IO.FS.readBinFile text
  listDirectory _ := return .error (.bare .unsupported)
  isPresent path := return (← onPath path fun text => IO.FS.realPath text).isOk
  removeAll path := onPath path removeAll
  changeOwnership _ _ _ := return .error (.bare .unsupported)

/-! ## The network -/

/-- How many bytes are taken from a connection at once. -/
def portion : UInt64 := 65536

/-- All bytes that still arrive on a connection. -/
partial def receive (socket : TCP.Socket.Client) (sofar : ByteArray) : Async ByteArray := do
  match ← socket.recv? portion with
  | some bytes => receive socket (sofar ++ bytes)
  | none => return sofar

/-- The name of a host as it is looked up, without the brackets around an address. -/
def lookupName (host : String) : String :=
  String.ofList (host.toList.filter fun c => c ≠ '[' && c ≠ ']')

/-- Send a request to an address and take all bytes of the response. -/
def exchange (request : Http.Request) (address : Std.Net.IPAddr) : Async ByteArray := do
  let number := request.url.portNumber.toUInt16
  let socket ← TCP.Socket.Client.mk
  socket.connect <| match address with
    | .v4 addr => .v4 ⟨addr, number⟩
    | .v6 addr => .v6 ⟨addr, number⟩
  socket.send request.toBytes
  receive socket .empty

/-- Send a request and take the response. -/
def send (request : Http.Request) : IO (Except String Http.Response) := do
  if request.url.secure then return .error "encrypted connections are not supported"
  try
    let service := Text.decimal request.url.portNumber
    let addresses ← (DNS.getAddrInfo (lookupName request.url.host) service).block
    match addresses[0]? with
    | none => return .error "the host has no address"
    | some address =>
      match Http.Response.ofBytes? (← (exchange request address).block) with
      | some response => return .ok response
      | none => return .error "the response cannot be read"
  catch e => return .error (toString e)

/-! ## The whole -/

/-- The machine as a host, with its engine behind an address. -/
def host (client : ClientConfig) : Host IO where
  toFiles := files
  ask := Http.ask client send
  wait delay := IO.sleep (delay.toNanos / 1000000).toUInt32

/-- The console of the program. -/
def console : Console IO where
  print line := do (← IO.getStdout).putStrLn line
  report line := do (← IO.getStderr).putStrLn line
  warn line := do (← IO.getStderr).putStrLn line

/-- The exit code of a failure. To ask for help is none. -/
def exitCode : Failure → UInt32
  | .usage .displayHelp => 0
  | .usage _ => 2
  | _ => 1

/-- Run a command line and report a failure. -/
def run (args : List String) : IO UInt32 := do
  match ← (CommandLine.run files host console args).run with
  | .ok () => return 0
  | .error failure =>
    console.report failure.message
    return exitCode failure

end TableSnapshots.Program

/-- The program. -/
def main (args : List String) : IO UInt32 :=
  TableSnapshots.Program.run args
