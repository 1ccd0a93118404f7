/-!
# Cutting a text at separators

`splitAll` cuts a text at every occurrence of a separator, so that there is one piece more than there
are separators, and `joinWith` undoes it. A text is a list of characters, or of bytes.

## Main results

* `joinWith_splitAll`: the pieces with the separator between them are the text.
* `not_mem_of_mem_splitAll`: no piece holds the separator.
-/

namespace ControlClient.Text

variable {α : Type}

/-- Pieces with a separator between them. -/
def joinWith (separator : α) : List (List α) → List α
  | [] => []
  | [piece] => piece
  | piece :: rest => piece ++ separator :: joinWith separator rest

theorem joinWith_cons_cons (separator : α) (piece next : List α) (rest : List (List α)) :
    joinWith separator (piece :: next :: rest) =
      piece ++ separator :: joinWith separator (next :: rest) := rfl

variable [DecidableEq α]

/-- The pieces of a text between the occurrences of a separator. -/
def splitAll (separator : α) : List α → List (List α)
  | [] => [[]]
  | c :: rest =>
      if c = separator then [] :: splitAll separator rest
      else
        match splitAll separator rest with
        | [] => [[c]]
        | piece :: pieces => (c :: piece) :: pieces

theorem splitAll_ne_nil (separator : α) (cs : List α) : splitAll separator cs ≠ [] := by
  cases cs with
  | nil => simp [splitAll]
  | cons c rest =>
      unfold splitAll
      split
      · simp
      · split <;> simp

theorem joinWith_splitAll (separator : α) (cs : List α) :
    joinWith separator (splitAll separator cs) = cs := by
  induction cs with
  | nil => rfl
  | cons c rest ih =>
      unfold splitAll
      split
      · next h =>
          subst h
          cases hPieces : splitAll c rest with
          | nil => exact absurd hPieces (splitAll_ne_nil c rest)
          | cons piece pieces => rw [← ih, hPieces]; rfl
      · cases hPieces : splitAll separator rest with
        | nil => exact absurd hPieces (splitAll_ne_nil separator rest)
        | cons piece pieces =>
            rw [← ih, hPieces]
            cases pieces <;> simp [joinWith]

theorem not_mem_of_mem_splitAll {separator : α} {cs piece : List α}
    (h : piece ∈ splitAll separator cs) : separator ∉ piece := by
  induction cs generalizing piece with
  | nil => simp [splitAll] at h; simp [h]
  | cons c rest ih =>
      unfold splitAll at h
      split at h
      · rcases List.mem_cons.1 h with h | h
        · simp [h]
        · exact ih h
      · next hc =>
          cases hPieces : splitAll separator rest with
          | nil => exact absurd hPieces (splitAll_ne_nil separator rest)
          | cons first others =>
              rw [hPieces] at h ih
              rcases List.mem_cons.1 h with h | h
              · rw [h]
                simp only [List.mem_cons, not_or]
                exact ⟨fun hEq => hc hEq.symm, ih (List.mem_cons_self ..)⟩
              · exact ih (List.mem_cons_of_mem _ h)

end ControlClient.Text
