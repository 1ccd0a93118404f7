/-!
# Chains of causes

A failure has a message and may have a cause, which has a message and a cause in turn. The whole
chain is shown as one line, outermost message first; a message that the line already ends with is
not said again.

## Main results

* `isPrefix_join`: the line starts with the outermost message.
* `isSuffix_extend`: the line ends with the message last added.
-/

namespace ControlClient.Causes

/-- Whether a line ends with a message. -/
def endsWith (line message : List Char) : Bool := message.isSuffixOf line

/-- Add the message of the next cause to a line, unless the line ends with it. -/
def extend (line message : List Char) : List Char :=
  if endsWith line message then line else line ++ ':' :: ' ' :: message

/-- The line for a chain of messages, the first of which is the outermost. -/
def join (outermost : List Char) (causes : List (List Char)) : List Char :=
  causes.foldl extend outermost

/-- The line for a chain of messages as text. -/
def line (outermost : String) (causes : List String) : String :=
  String.ofList (join outermost.toList (causes.map String.toList))

theorem isPrefix_extend (line message : List Char) : line <+: extend line message := by
  unfold extend
  split
  · exact List.prefix_rfl
  · exact List.prefix_append _ _

theorem isSuffix_extend (line message : List Char) : message <:+ extend line message := by
  unfold extend
  split
  · next h => exact List.isSuffixOf_iff_suffix.1 h
  · exact ⟨line ++ [':', ' '], by simp⟩

theorem isPrefix_join (outermost : List Char) (causes : List (List Char)) :
    outermost <+: join outermost causes := by
  induction causes generalizing outermost with
  | nil => exact List.prefix_rfl
  | cons message rest ih => exact (isPrefix_extend outermost message).trans (ih _)

end ControlClient.Causes
