import ControlClient.Http
import ControlClient.Session.Run
import Std.Async.DNS
import Std.Async.TCP

/-!
# The command line

Reads the arguments and the environment, opens the script that a command names, and follows the
conversation of the command with the service over the network. Only plain connections are made,
redirections are not followed, hosts have to be ASCII, and tables are set out by the width of each
character.
-/

namespace ControlClient

open Std.Async Std.Net

attribute [local instance] DomainMapping.asciiOnly Text.Measure.byCharacters

/-- The error of the operating system behind an error of a file; its number may come negated. -/
def systemErrorOf : IO.Error → SystemError
  | .noFileOrDirectory _ n _ | .permissionDenied _ n _ | .inappropriateType _ n _
  | .resourceExhausted _ n _ | .invalidArgument _ n _ => ⟨n.toInt32.toInt.natAbs⟩
  | _ => ⟨5⟩

/-- Open a path. -/
def openScript (path : List UInt8) : IO (Except OpenFault Content) := do
  if path.contains 0 then return .error .zeroByte
  let some name := Text.Utf8.text? path | return .error (.system .notFound)
  try
    return .ok (.bytes (← IO.FS.readBinFile name).toList)
  catch e =>
    let e := systemErrorOf e
    return if e = .isDirectory then .ok (.unreadable e) else .error (.system e)

/-- The script that a command line names, opened. -/
def filesFor (command : Command) : IO Files := do
  let nothing : Files := fun _ => .error (.system .notFound)
  match command with
  | .define ⟨_, some path, _⟩ =>
      let script ← openScript path
      return fun p => if p = path then script else nothing p
  | _ => return nothing

/-- All that arrives before the connection is closed. -/
partial def receiveAll (socket : TCP.Socket.Client) (before : ByteArray) : IO ByteArray := do
  match ← (socket.recv? 65536).block with
  | some data => receiveAll socket (before ++ data)
  | none => return before

/-- The address of a host and a port. -/
def addressOf (host : String) (port : Nat) : IO (Option SocketAddress) := do
  let found ← (DNS.getAddrInfo host (toString port)).block
  return found[0]?.map fun
    | .v4 a => .v4 ⟨a, port.toUInt16⟩
    | .v6 a => .v6 ⟨a, port.toUInt16⟩

/-- Make a request over the network. -/
def transport (r : SentRequest) : IO Reply := do
  let .bytes body := r.body | return .dropped
  let some (host, port) := Http.endpoint? r.url | return .unreachable ["no host"]
  if r.url.scheme ≠ "http" then return .unreachable ["only plain connections are made"]
  try
    let some address ← addressOf host port | return .unreachable ["unknown host"]
    let socket ← TCP.Socket.Client.mk
    (socket.connect address).block
    (socket.send (ByteArray.mk (Http.requestBytes r body).toArray)).block
    match Http.readAnswer? (← receiveAll socket ByteArray.empty).toList with
    | some (status, answer) => return .answered status answer
    | none => return .dropped
  catch e => return .unreachable ["client error (Connect)", toString e]

/-- A time since some moment, in milliseconds. -/
def elapsedText (since now : Nat) : String :=
  let hundredths := (now - since) / 10000
  Text.digitText (hundredths / 100) ++ "."
    ++ String.ofList (Text.digitsPadded 2 (hundredths % 100)) ++ "ms"

/-- Follow a conversation over the network; the log goes to the error output. -/
def Conversation.follow {α : Type} (filter : Log.Filter) (since : Nat) :
    Conversation α → IO (Except Failure α)
  | .ended a => return .ok a
  | .failed f => return .error f
  | .noted e rest => do
      let now ← IO.monoNanosNow
      if filter.admits e then IO.eprintln (e.line (elapsedText since now))
      rest.follow filter now
  | .asked r next => do (next (← transport r)).follow filter since

/-- The run of a command line that was read. -/
def Invocation.runOnNetwork (env : CommandLine.Environment) (i : Invocation) : IO Ending := do
  let filter := Log.Filter.ofText (← IO.getEnv "RUST_LOG") i.settings.debug
  let files ← filesFor i.command
  match ← (i.perform env files).follow filter (← IO.monoNanosNow) with
  | .ok output => return .succeeded output
  | .error f =>
      let e : Log.Event := .failed f.code
      if filter.admits e then IO.eprintln (e.line "")
      return .failed i.settings.format f

end ControlClient

/-- The client as a program. -/
def main (args : List String) : IO UInt32 := do
  let env : ControlClient.CommandLine.Environment :=
    ⟨(← IO.getEnv ControlClient.CommandLine.urlVariable).map ControlClient.Text.Utf8.bytes⟩
  let ending ← match ControlClient.CommandLine.read env (args.map ControlClient.Text.Utf8.bytes) with
    | .ok i => i.runOnNetwork env
    | .error r => pure (.rejected r)
  IO.print (ending.output env)
  IO.eprint (ending.errorOutput env)
  return ending.exitCode.toUInt32
