import ControlClient.Causes
import Mathlib.Data.List.Forall2
import Mathlib.Data.List.Infix

/-!
# No cause is hidden

A message is left out of the line for a chain of causes if the line ends with it already. That is asked of
the whole line so far, not of the message before it, so whether a message is left out depends on all of
those in front of it: it may be the end of an earlier message, of two messages and the colon between them,
or empty. Nothing is lost by this, because the line ends with each message in turn, either as it was or
with the message added to it.

A line is followed one cause at a time: what one cause does to a line is said first, and then each fact is
an induction on the causes, with the line so far in place of the outermost message.

## Main results

* `line_nil`, `line_cons`: a line grows by one cause after another.
* `exists_stops`: the places at which the messages end, in the order of the chain.
* `line_eq_append_said`: what is added to the outermost message.
* `line_of_nested`: a chain in which each message ends with the next adds nothing.
* `line_says_chain`: what the line says of a chain of any length.
-/

namespace ControlClient.Causes

/-! ## What a line says -/

/-- A message stands in a text and ends at a place, which is counted in characters. -/
def EndsAt (text message : String) (stop : Nat) : Prop :=
  stop ≤ text.length ∧ message.toList <:+ text.toList.take stop

/-- Whether the line for the causes in front of a cause does not end with it. -/
def IsNew (outermost : String) (front : List String) (cause : String) : Prop :=
  ¬cause.toList <:+ (line outermost front).toList

instance (outermost : String) (front : List String) (cause : String) :
    Decidable (IsNew outermost front cause) :=
  inferInstanceAs (Decidable ¬_)

/-- The causes that are new where they stand. -/
def said (outermost : String) (causes : List String) : List String :=
  ((causes.inits.zip causes).filter fun step => IsNew outermost step.1 step.2).map (·.2)

/-- What a text says of a chain of messages: it starts with the first and ends with the last, the messages
stand in it so that none ends in front of an earlier one, it consists of the first message and those that
were not said already, and it is the first message alone if each message ends with the next. -/
structure SaysChain (outermost : String) (causes : List String) (text : String) : Prop where
  starts : outermost.toList <+: text.toList
  ends : ∀ last ∈ (outermost :: causes).getLast?, last.toList <:+ text.toList
  inOrder : ∃ stops : List Nat, stops.Pairwise (· ≤ ·) ∧
    List.Forall₂ (EndsAt text) (outermost :: causes) stops
  parts : text = outermost ++ String.join ((said outermost causes).map (": " ++ ·))
  nested : (outermost :: causes).IsChain (fun message cause => cause.toList <:+ message.toList) →
    text = outermost

variable {outermost cause : String} {causes : List String}

/-! ## One cause -/

theorem line_nil (outermost : String) : line outermost [] = outermost := String.ofList_toList

/-- A line grows by one cause after another. -/
theorem line_cons (outermost cause : String) (causes : List String) :
    line outermost (cause :: causes) = line (line outermost [cause]) causes := by
  simp [line, join]

/-- What a line says already is not said again. -/
theorem line_of_isSuffix (h : cause.toList <:+ outermost.toList) : line outermost [cause] = outermost := by
  have hEnds : endsWith outermost.toList cause.toList = true := List.isSuffixOf_iff_suffix.2 h
  simp [line, join, extend, hEnds]

theorem line_of_not_isSuffix (h : ¬cause.toList <:+ outermost.toList) :
    line outermost [cause] = outermost ++ (": " ++ cause) := by
  have hEnds : endsWith outermost.toList cause.toList = false :=
    Bool.eq_false_iff.2 fun hYes => h (List.isSuffixOf_iff_suffix.1 hYes)
  rw [← String.toList_inj]
  simp [line, join, extend, hEnds]

theorem isPrefix_line (outermost : String) (causes : List String) :
    outermost.toList <+: (line outermost causes).toList := by
  rw [line, String.toList_ofList]
  exact isPrefix_join _ _

theorem isSuffix_single (outermost cause : String) : cause.toList <:+ (line outermost [cause]).toList := by
  rw [line, String.toList_ofList]
  exact isSuffix_extend _ _

/-! ## The whole chain -/

/-- A text ends where it ends, in every text that starts with it. -/
theorem endsAt_of_isPrefix {text : String} (h : outermost.toList <+: text.toList) :
    EndsAt text outermost outermost.length := by
  have hTake : text.toList.take outermost.length = outermost.toList := by
    rw [← String.length_toList]
    exact (List.prefix_iff_eq_take.1 h).symm
  refine ⟨?_, by rw [hTake]⟩
  rw [← String.length_toList, ← String.length_toList]
  exact h.length_le

theorem EndsAt.length_le {text message : String} {stop : Nat} (h : EndsAt text message stop) :
    message.length ≤ stop := by
  have hLength := h.2.length_le
  rw [List.length_take, String.length_toList] at hLength
  omega

/-- What ends a message ends where the message does. -/
theorem EndsAt.of_isSuffix {text message : String} {stop : Nat} (h : EndsAt text message stop)
    (hEnd : cause.toList <:+ message.toList) : EndsAt text cause stop :=
  ⟨h.1, hEnd.trans h.2⟩

/-- **The messages of a chain stand in its line**, and none ends in front of an earlier one. -/
theorem exists_stops (outermost : String) (causes : List String) :
    ∃ stops : List Nat, stops.Pairwise (· ≤ ·) ∧
      List.Forall₂ (EndsAt (line outermost causes)) (outermost :: causes) stops := by
  induction causes generalizing outermost with
  | nil =>
      rw [line_nil]
      exact ⟨[outermost.length], List.pairwise_singleton _ _,
        .cons (endsAt_of_isPrefix List.prefix_rfl) .nil⟩
  | cons cause causes ih =>
      obtain ⟨stops, hOrder, hStops⟩ := ih (line outermost [cause])
      rw [← line_cons] at hStops
      cases hStops with
      | @cons _ first _ later hFirst hLater =>
          -- The line so far ends with the cause, and is not shorter than it was.
          have hCause := hFirst.of_isSuffix (isSuffix_single outermost cause)
          have hGrown : outermost.length ≤ (line outermost [cause]).length := by
            rw [← String.length_toList, ← String.length_toList]
            exact (isPrefix_line outermost [cause]).length_le
          have hBefore : ∀ stop ∈ first :: later, outermost.length ≤ stop := by
            intro stop hStop
            have hLine := Nat.le_trans hGrown hFirst.length_le
            rcases List.mem_cons.1 hStop with rfl | hMem
            · exact hLine
            · exact Nat.le_trans hLine (List.rel_of_pairwise_cons hOrder hMem)
          exact ⟨outermost.length :: first :: later, List.pairwise_cons.2 ⟨hBefore, hOrder⟩,
            .cons (endsAt_of_isPrefix (isPrefix_line _ _)) (.cons hCause hLater)⟩

/-- **The line ends with the last message.** -/
theorem isSuffix_line (outermost : String) (causes : List String) :
    ∀ last ∈ (outermost :: causes).getLast?, last.toList <:+ (line outermost causes).toList := by
  induction causes generalizing outermost with
  | nil =>
      rintro _ ⟨⟩
      rw [line_nil]
      exact List.suffix_rfl
  | cons cause causes ih =>
      intro last hLast
      rw [List.getLast?_cons_cons] at hLast
      rw [line_cons]
      cases causes with
      | nil =>
          obtain rfl : cause = last := Option.some.inj hLast
          rw [line_nil]
          exact isSuffix_single outermost cause
      | cons next causes =>
          rw [List.getLast?_cons_cons] at hLast
          exact ih _ last (by rwa [List.getLast?_cons_cons])

/-- A cause that is not new is not said, and the causes behind it are said behind the line with it. -/
theorem said_cons (outermost cause : String) (causes : List String) :
    said outermost (cause :: causes) =
      (if IsNew outermost [] cause then [cause] else []) ++ said (line outermost [cause]) causes := by
  have hNew : ∀ front next,
      IsNew outermost (cause :: front) next ↔ IsNew (line outermost [cause]) front next := by
    intro front next
    rw [IsNew, line_cons, IsNew]
  have hBehind : (fun step : List String × String => decide (IsNew outermost step.1 step.2)) ∘
      Prod.map (cause :: ·) id = fun step => decide (IsNew (line outermost [cause]) step.1 step.2) := by
    funext step
    exact decide_eq_decide.2 (hNew step.1 step.2)
  rw [said, List.inits_cons, List.zip_cons_cons, List.filter_cons, List.zip_map_left, List.filter_map,
    hBehind]
  by_cases h : IsNew outermost [] cause <;> simp [said, h]

/-- **A line is its outermost message and what is said behind it.** -/
theorem line_eq_append_said (outermost : String) (causes : List String) :
    line outermost causes = outermost ++ String.join ((said outermost causes).map (": " ++ ·)) := by
  induction causes generalizing outermost with
  | nil => simp [line_nil, said]
  | cons cause causes ih =>
      rw [line_cons, ih, said_cons]
      by_cases h : IsNew outermost [] cause
      · have hEnd : ¬cause.toList <:+ outermost.toList := by rwa [IsNew, line_nil] at h
        rw [if_pos h, line_of_not_isSuffix hEnd, List.singleton_append, List.map_cons, String.join_cons,
          String.append_assoc]
      · have hEnd : cause.toList <:+ outermost.toList := by rwa [IsNew, line_nil, not_not] at h
        rw [if_neg h, line_of_isSuffix hEnd, List.nil_append]

/-- **Nothing is added by causes each of which ends the message before it.** -/
theorem line_of_nested {message : String} (hEnd : message.toList <:+ outermost.toList)
    (h : (message :: causes).IsChain fun message cause => cause.toList <:+ message.toList) :
    line outermost causes = outermost := by
  induction causes generalizing message with
  | nil => exact line_nil outermost
  | cons cause causes ih =>
      obtain ⟨hCause, hRest⟩ := List.isChain_cons_cons.1 h
      have hNext := hCause.trans hEnd
      rw [line_cons, line_of_isSuffix hNext]
      exact ih hNext hRest

/-- **The line for a chain of causes hides none of them.** -/
theorem line_says_chain (outermost : String) (causes : List String) :
    SaysChain outermost causes (line outermost causes) where
  starts := isPrefix_line outermost causes
  ends := isSuffix_line outermost causes
  inOrder := exists_stops outermost causes
  parts := line_eq_append_said outermost causes
  nested := line_of_nested List.suffix_rfl

/-- A chain in which every message ends with the next, the last one without characters; and one in which a
message is left out that two earlier ones make up with the colon between them. -/
theorem line_of_suffixes :
    ["x: y", "y", ""].IsChain (fun message cause => cause.toList <:+ message.toList) ∧
      line "x: y" ["y", ""] = "x: y" ∧
      said "a" ["b", "a: b", "c", "b"] = ["b", "c", "b"] ∧
      SaysChain "a" ["b", "a: b", "c", "b"] "a: b: c: b" := by
  have hNested : ["x: y", "y", ""].IsChain fun message cause => cause.toList <:+ message.toList := by decide
  have hLine : line "a" ["b", "a: b", "c", "b"] = "a: b: c: b" := by decide +kernel
  refine ⟨hNested, (line_says_chain "x: y" ["y", ""]).nested hNested, by decide +kernel, ?_⟩
  rw [← hLine]
  exact line_says_chain _ _

end ControlClient.Causes
