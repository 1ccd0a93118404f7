import ControlClient.Failure
import ControlClient.Proofs.Json.Documents

/-!
# Reports read back

A report in JSON is one document, whatever the failure: its message and its code are strings of the
document, so they come back character for character however they had to be escaped. A report as a table
is the same message, and behind its line the usage that helps with it, if there is one.

## Main results

* `read_report`: the document that a report in JSON is.
* `report_table`: what a report as a table appends to the message.
* `report_formats`: both formats of a report say the same.
-/

namespace ControlClient.Failure

open CommandLine (Environment Help.page Help.command? Level)

/-- A report as a document, with its members in order. -/
def document (f : Failure) : Json.Value :=
  .object [("error", .object [("code", .string f.code), ("message", .string f.message)]),
    ("ok", .bool false)]

theorem sorted_toValue (f : Failure) : f.toValue.sorted = f.document := rfl

/-- **A report in JSON is one document**, which holds the code and the message. -/
theorem read_report (env : Environment) (f : Failure) :
    Json.read (Text.Utf8.bytes (f.report env .json)) = .ok f.document := by
  have hText : Text.Utf8.bytes (f.report env .json) =
      Text.Utf8.encode (Json.print 0 f.toValue) ++ [10] := by
    show Text.Utf8.encode (f.toValue.text ++ "\n").toList = _
    rw [String.toList_append, Json.Value.text, String.toList_ofList, Text.Utf8.encode_append]
    rfl
  have hFits : f.toValue.Fits Json.depthLimit := by
    simp [toValue, Json.Value.Fits, Json.MembersFit, Json.depthLimit]
  rw [hText, Json.read_print hFits (List.forall_mem_singleton.2 rfl), sorted_toValue]

/-! ## Usages -/

/-- What is appended to the message of a failure: the full page of a command that was not told enough, the
summary of all commands behind an unknown one, and nothing else. -/
inductive Appends (env : Environment) : Failure → String → Prop where
  | command (c : CommandName) (message : String) :
      Appends env (.usage c.name message) (Help.page env .full (Level.ofCommand c) ++ "\n")
  /-- A usage failure of something that is no command. -/
  | noCommand {name : String} (message : String) (hNone : ∀ c : CommandName, c.name ≠ name) :
      Appends env (.usage name message) ""
  | summary (name : String) :
      Appends env (.unknownCommand name) (Help.page env .summary Level.top ++ "\n")
  | nothing {f : Failure} (hOther : f.code ∉ ["usage", "unknown_command"]) : Appends env f ""

/-- The usage below a message is that of the command that the failure names. -/
theorem appends_usage (env : Environment) (name message : String) :
    Appends env (.usage name message)
      (match Help.command? env name with | some u => u ++ "\n" | none => "") := by
  cases hName : CommandName.ofName? name with
  | none =>
      rw [Help.command?, hName]
      refine .noCommand message fun c hc => ?_
      rw [← hc, CommandName.ofName?_name] at hName
      cases hName
  | some c =>
      rw [Help.command?, hName, ← CommandName.name_of_ofName? hName]
      exact .command c message

/-- **A report as a table is the message in a line, and a usage where it helps.** -/
theorem report_table (env : Environment) (f : Failure) :
    ∃ appended, f.report env .table = f.message ++ "\n" ++ appended ∧ f.Appends env appended := by
  refine ⟨_, rfl, ?_⟩
  cases f with
  | usage name message => exact appends_usage env name message
  | unknownCommand name => exact .summary name
  | _ => exact .nothing (by simp [code])

/-- **Both formats of a report say the same.** The report in JSON is one document, which says that the run
failed, with the code of the failure and a message; the report as a table is this message, character for
character, in front of its first appended line end, and behind that a usage where one helps. -/
theorem report_formats (env : Environment) (f : Failure) :
    ∃ message appended,
      Json.read (Text.Utf8.bytes (f.report env .json)) =
        .ok (.object [("error", .object [("code", .string f.code), ("message", .string message)]),
          ("ok", .bool false)]) ∧
      f.report env .table = message ++ "\n" ++ appended ∧ f.Appends env appended := by
  obtain ⟨appended, hTable, hAppends⟩ := f.report_table env
  exact ⟨f.message, appended, f.read_report env, hTable, hAppends⟩

end ControlClient.Failure
