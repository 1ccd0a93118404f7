import ControlClient.CommandLine.Read
import ControlClient.Log.Filter
import ControlClient.Session.Plan

/-!
# Runs

A run of the client from its command line to its exit code. A command line that is rejected ends the
run before anything is done. Version and help need no service; every other command first needs the
address of one, and only then is looked at for what it was not told.
-/

namespace ControlClient

open CommandLine (ArgumentFault Environment Rejection)

/-- How a run ends. -/
inductive Ending where
  /-- The command line was rejected. -/
  | rejected (r : Rejection)
  /-- The command printed this. -/
  | succeeded (output : String)
  /-- The command failed, which is reported in this format. -/
  | failed (format : OutputFormat) (f : Failure)

/-- A run of the client. -/
structure Run where
  ending : Ending
  /-- The requests that were made, each with its reply. -/
  exchanges : List (SentRequest × Reply)
  events : List Log.Event
  /-- How often more detail in the log was asked for. -/
  detail : Nat

/-! ## Commands -/

/-- The help on a topic. -/
def helpOn (env : Environment) (topic? : Option String) : Except Failure String :=
  match topic? with
  | none => .ok (CommandLine.Help.general env)
  | some name =>
      match CommandLine.Help.command? env name with
      | some page => .ok page
      | none => .error (.unknownCommand name)

/-- What a command line does; the result is what is printed. -/
def Invocation.perform [DomainMapping] [Text.Measure] (env : Environment) (files : Files)
    (i : Invocation) : Conversation String :=
  match i.command with
  | .version => .ended (versionText ++ "\n")
  | .help topic? => .ofExcept ((helpOn env topic?).map (· ++ "\n"))
  | command => do
      let base ← .ofExcept ((Base.read i.settings.url).mapError .invalidUrl)
      let plan ← .ofExcept (command.plan files)
      plan.carryOut base i.settings.format

/-! ## Whole runs -/

/-- The run of a command line that was read, with a service. -/
def Invocation.run [DomainMapping] [Text.Measure] (env : Environment) (files : Files)
    (service : Service) (i : Invocation) : Run :=
  let t := (i.perform env files).transcript service
  match t.result with
  | .ok output => ⟨.succeeded output, t.exchanges, t.events, i.settings.debug⟩
  | .error f =>
      ⟨.failed i.settings.format f, t.exchanges, t.events ++ [.failed f.code], i.settings.debug⟩

/-- The run of some words, with a service. -/
def run [DomainMapping] [Text.Measure] (env : Environment) (files : Files) (service : Service)
    (words : List (List UInt8)) : Run :=
  match CommandLine.read env words with
  | .ok i => i.run env files service
  | .error r => ⟨.rejected r, [], [], 0⟩

namespace Ending

/-- The exit code of a run. -/
def exitCode : Ending → Nat
  | rejected r => r.exitCode
  | succeeded _ => 0
  | failed _ f => f.exitCode

/-- The failure of a command. -/
def failure? : Ending → Option Failure
  | failed _ f => some f
  | _ => none

/-- What a run prints to its output. -/
def output (env : Environment) : Ending → String
  | rejected (.help detail command?) =>
      CommandLine.Help.page env detail (CommandLine.Level.of command?)
  | succeeded text => text
  | _ => ""

/-- What a run prints to its error output, its log apart. -/
def errorOutput (env : Environment) : Ending → String
  | rejected .missingCommand =>
      "Error: Must pass a command.\n" ++ CommandLine.Help.general env ++ "\n"
  | rejected (.unknownCommand name) =>
      "Unknown command " ++ name ++ "\n" ++ CommandLine.Help.general env ++ "\n"
  | rejected (.help _ _) => ""
  -- A program that breaks off also says where; that is left out.
  | rejected (.argument .overflow) => ArgumentFault.overflow.message ++ "\n"
  | rejected (.argument fault) =>
      "error: " ++ fault.message ++ "\n\nFor more information, try '--help'.\n"
  | succeeded _ => ""
  | failed format f => f.report env format

end Ending

/-- The events that a run writes to its log, if a text may say which ones. -/
def Run.logged (filter? : Option String) (r : Run) : List Log.Event :=
  r.events.filter (Log.Filter.ofText filter? r.detail).admits

end ControlClient
