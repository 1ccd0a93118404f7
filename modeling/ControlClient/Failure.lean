import ControlClient.Base
import ControlClient.Causes
import ControlClient.CommandLine.Help
import ControlClient.Envelope
import ControlClient.Json.Printer

/-!
# Failures

Why a command fails, and how that is reported. Every failure has a message, a code for programs and an
exit code: 1 for an unknown command, 2 if the command was not told enough or told wrong, and 3 if a
file or the service failed.

As a table, a report is the message and, where it helps, a usage; as JSON it is an object that holds
the code and the message.
-/

namespace ControlClient

open CommandLine (Environment)

/-- Why a command fails. -/
inductive Failure where
  /-- The command of this name was not told enough. -/
  | usage (command message : String)
  /-- Help is wanted on a command that there is not. -/
  | unknownCommand (name : String)
  /-- A file cannot be opened. -/
  | file (path : List UInt8) (cause : String)
  /-- The service has no valid address. -/
  | invalidUrl (e : InvalidUrl)
  /-- A request got no answer; what failed outermost, and its causes. -/
  | transport (outermost : String) (causes : List String)
  /-- The service reports an error. -/
  | server (message : String)
  /-- The service answered a request to an endpoint with a body that is no envelope. -/
  | malformed (path : String) (status : Nat) (fault : Malformed)
deriving Repr

namespace Failure

/-- The message of a failure. -/
def message : Failure → String
  | usage _ message => message
  | unknownCommand name => "Unknown command " ++ name
  | file path cause => "open " ++ Text.Utf8.lossyText path ++ ": " ++ cause
  | invalidUrl e => e.message
  | transport outermost causes => Causes.line outermost causes
  | server message => message
  | malformed path status fault =>
      "malformed response from " ++ path ++ " (HTTP " ++ Text.digitText status ++ "): "
        ++ fault.message

/-- The code of a failure. -/
def code : Failure → String
  | usage _ _ => "usage"
  | unknownCommand _ => "unknown_command"
  | file _ _ => "io_error"
  | invalidUrl _ => "invalid_url"
  | transport _ _ => "transport_error"
  | server _ => "server_error"
  | malformed _ _ _ => "malformed_response"

/-- The exit code of a failure. -/
def exitCode : Failure → Nat
  | unknownCommand _ => 1
  | usage _ _ | invalidUrl _ => 2
  | file _ _ | transport _ _ | server _ | malformed _ _ _ => 3

/-- A failure as JSON. -/
def toValue (f : Failure) : Json.Value :=
  .object [("ok", .bool false),
    ("error", .object [("code", .string f.code), ("message", .string f.message)])]

/-- The usage that a report shows below the message. -/
def usageText? (env : Environment) : Failure → Option String
  | usage command _ => CommandLine.Help.command? env command
  | unknownCommand _ => some (CommandLine.Help.general env)
  | _ => none

/-- The report of a failure. -/
def report (env : Environment) (format : OutputFormat) (f : Failure) : String :=
  match format with
  | .json => f.toValue.text ++ "\n"
  | .table => f.message ++ "\n" ++ (match f.usageText? env with | some u => u ++ "\n" | none => "")

end Failure

end ControlClient
