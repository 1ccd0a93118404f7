import ControlClient.Text.Split
import Mathlib.Data.List.Forall2

/-!
# Pieces between separators

Cutting undoes joining, as joining undoes cutting, if no piece holds the separator.

## Main results

* `splitAll_joinWith`: joined pieces are cut into the same pieces.
* `mapM_eq_some_iff`: a list is read whole exactly if each of its members is.
* `exists_forall₂_iff`: what is known of each member of a list, of the list as a whole.
-/

namespace ControlClient.Text

variable {α β : Type} [DecidableEq α]

/-- A text without separators is one piece. -/
theorem splitAll_of_not_mem {separator : α} {cs : List α} (h : separator ∉ cs) :
    splitAll separator cs = [cs] := by
  induction cs with
  | nil => rfl
  | cons c rest ih =>
      rw [List.mem_cons, not_or] at h
      simp only [splitAll, if_neg (Ne.symm h.1), ih h.2]

/-- There is one piece more than there are separators. -/
theorem length_splitAll (separator : α) (cs : List α) :
    (splitAll separator cs).length = cs.count separator + 1 := by
  induction cs with
  | nil => rfl
  | cons c rest ih =>
      obtain ⟨first, others, hPieces⟩ := List.exists_cons_of_ne_nil (splitAll_ne_nil separator rest)
      by_cases hc : c = separator
      · simp only [splitAll, hc, if_true, List.length_cons, ih, List.count_cons_self]
      · simp only [splitAll, hc, if_false, hPieces, List.count_cons_of_ne hc, ← ih, List.length_cons]

/-- A separator cuts a text into two that are cut on their own. -/
theorem splitAll_append_separator (separator : α) (cs rest : List α) :
    splitAll separator (cs ++ separator :: rest) =
      splitAll separator cs ++ splitAll separator rest := by
  induction cs with
  | nil => simp [splitAll]
  | cons c cs ih =>
      by_cases hc : c = separator
      · simp only [List.cons_append, splitAll, hc, if_true, ih]
      · obtain ⟨first, others, hPieces⟩ := List.exists_cons_of_ne_nil (splitAll_ne_nil separator cs)
        simp only [List.cons_append, splitAll, hc, if_false, ih, hPieces]

/-- The last piece starts behind the last separator. -/
theorem splitAll_append_piece {separator : α} {piece : List α} (h : separator ∉ piece)
    (cs : List α) :
    splitAll separator (cs ++ separator :: piece) = splitAll separator cs ++ [piece] := by
  rw [splitAll_append_separator, splitAll_of_not_mem h]

/-- **Joined texts are cut at the separators between them, and at their own.** -/
theorem splitAll_joinWith_flatMap (separator : α) {pieces : List (List α)} (hNe : pieces ≠ []) :
    splitAll separator (joinWith separator pieces) = pieces.flatMap (splitAll separator) := by
  induction pieces with
  | nil => exact absurd rfl hNe
  | cons piece rest ih =>
      cases rest with
      | nil => simp [joinWith]
      | cons next others =>
          rw [joinWith_cons_cons, splitAll_append_separator, ih (by simp)]
          exact List.flatMap_cons.symm

/-- Texts without separators are one piece each. -/
theorem flatMap_splitAll_of_not_mem {separator : α} {pieces : List (List α)}
    (h : ∀ piece ∈ pieces, separator ∉ piece) : pieces.flatMap (splitAll separator) = pieces := by
  induction pieces with
  | nil => rfl
  | cons piece rest ih =>
      rw [List.flatMap_cons, splitAll_of_not_mem (h piece (by simp)),
        ih fun p hp => h p (List.mem_cons_of_mem _ hp)]
      rfl

/-- **Cutting undoes joining.** -/
theorem splitAll_joinWith {separator : α} {pieces : List (List α)} (hNe : pieces ≠ [])
    (h : ∀ piece ∈ pieces, separator ∉ piece) :
    splitAll separator (joinWith separator pieces) = pieces := by
  rw [splitAll_joinWith_flatMap separator hNe, flatMap_splitAll_of_not_mem h]

omit [DecidableEq α] in
/-- What is joined consists of separators and of what the pieces consist of. -/
theorem mem_joinWith {separator c : α} {pieces : List (List α)} (h : c ∈ joinWith separator pieces) :
    c = separator ∨ ∃ piece ∈ pieces, c ∈ piece := by
  induction pieces with
  | nil => simp [joinWith] at h
  | cons piece rest ih =>
      cases rest with
      | nil => exact .inr ⟨piece, by simp, h⟩
      | cons next others =>
          rw [joinWith_cons_cons, List.mem_append, List.mem_cons] at h
          rcases h with hPiece | hSeparator | hRest
          · exact .inr ⟨piece, by simp, hPiece⟩
          · exact .inl hSeparator
          · rcases ih hRest with hEq | ⟨p, hp, hc⟩
            · exact .inl hEq
            · exact .inr ⟨p, List.mem_cons_of_mem _ hp, hc⟩

omit [DecidableEq α] in
/-- What the pieces consist of is joined. -/
theorem mem_joinWith_of_mem {separator c : α} {pieces : List (List α)} {piece : List α}
    (hPiece : piece ∈ pieces) (hc : c ∈ piece) : c ∈ joinWith separator pieces := by
  induction pieces with
  | nil => cases hPiece
  | cons first rest ih =>
      cases rest with
      | nil =>
          rw [List.mem_singleton] at hPiece
          rwa [joinWith, ← hPiece]
      | cons next others =>
          rw [joinWith_cons_cons, List.mem_append, List.mem_cons]
          rcases List.mem_cons.mp hPiece with rfl | hRest
          · exact .inl hc
          · exact .inr (.inr (ih hRest))

/-- The pieces of a text consist of what the text consists of. -/
theorem mem_of_mem_splitAll {separator c : α} {cs piece : List α}
    (hPiece : piece ∈ splitAll separator cs) (hc : c ∈ piece) : c ∈ cs := by
  rw [← joinWith_splitAll separator cs]
  exact mem_joinWith_of_mem hPiece hc

omit [DecidableEq α] in
/-- A list is read whole exactly if each of its members is. -/
theorem mapM_eq_some_iff {f : α → Option β} {as : List α} {bs : List β} :
    as.mapM f = some bs ↔ List.Forall₂ (fun a b => f a = some b) as bs := by
  induction as generalizing bs with
  | nil => cases bs <;> simp
  | cons a as ih =>
      rw [List.mapM_cons]
      cases bs with
      | nil => cases f a <;> cases as.mapM f <;> simp
      | cons b bs =>
          rw [List.forall₂_cons, ← ih]
          cases f a <;> cases as.mapM f <;> simp

omit [DecidableEq α] in
/-- Each member of a list that was read was read from some member. -/
theorem exists_of_mem_mapM {f : α → Option β} {as : List α} {bs : List β} (h : as.mapM f = some bs)
    {b : β} (hb : b ∈ bs) : ∃ a ∈ as, f a = some b := by
  have hAll := mapM_eq_some_iff.mp h
  clear h
  induction hAll with
  | nil => cases hb
  | cons hHead _ ih =>
      rcases List.mem_cons.mp hb with rfl | hMem
      · exact ⟨_, by simp, hHead⟩
      · obtain ⟨a, ha, hRead⟩ := ih hMem
        exact ⟨a, List.mem_cons_of_mem _ ha, hRead⟩

omit [DecidableEq α] in
/-- Each member of a list is related to something exactly if the list is, member by member. -/
theorem exists_forall₂_iff {R : α → β → Prop} {as : List α} :
    (∃ bs, List.Forall₂ R as bs) ↔ ∀ a ∈ as, ∃ b, R a b := by
  induction as with
  | nil => simp
  | cons a as ih =>
      rw [List.forall_mem_cons, ← ih]
      constructor
      · rintro ⟨_, _ | ⟨hFirst, hRest⟩⟩
        exact ⟨⟨_, hFirst⟩, _, hRest⟩
      · rintro ⟨⟨b, hFirst⟩, bs, hRest⟩
        exact ⟨b :: bs, .cons hFirst hRest⟩

end ControlClient.Text
