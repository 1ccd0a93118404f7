import ControlClient.CommandLine.Write
import ControlClient.Proofs.CommandLine.Given
import ControlClient.Proofs.Except
import ControlClient.Proofs.Text.Utf8
import Mathlib.Data.List.Forall2
import Mathlib.Data.List.TakeWhile

/-!
# Words of a level

What single words of a level say: options with their values in the same word, switches, names of options
whose values are to come, and the positional words behind the separator. A word of an option is settled as
soon as it is read, so behind it nothing is pending, and what was given has grown by one argument.

## Main results

* `readWord_of_says`: one word of an option.
* `readWord_opens`: the name of an option that awaits its value.
-/

namespace ControlClient.CommandLine

namespace Level

/-- Every option of a level has a name, which ends where a value may start. -/
def NamesOptions (l : Level) : Prop :=
  ∀ o ∈ l.options, Text.Utf8.bytes o.long ≠ [] ∧ ∀ b ∈ Text.Utf8.bytes o.long, b ≠ 61

instance (l : Level) : Decidable l.NamesOptions :=
  decidable_of_iff (l.options.all (fun o => !(Text.Utf8.bytes o.long).isEmpty &&
    (Text.Utf8.bytes o.long).all (· != 61)) = true) (by simp [NamesOptions])

/-! ## Options -/

/-- The word of an option says what it gives. -/
inductive Says (l : Level) : Word → Arg × Datum → Prop where
  | value {long : String} {arg : Arg} {value : Word} {d : Datum}
      (hOption : ∃ o, l.long? long = some o ∧ o.arg = arg ∧ o.valueName?.isSome)
      (hRead : arg.read value = .ok d) : Says l (optionWord long value) (arg, d)
  | switch {long : String} {arg : Arg}
      (hOption : ∃ o, l.long? long = some o ∧ o.arg = arg ∧ o.valueName? = none)
      (hHelp : arg ≠ .help) : Says l (switchWord long) (arg, .on)

theorem nameAndValue_append {name : Word} (h : ∀ b ∈ name, b ≠ 61) (value : Word) :
    nameAndValue (name ++ 61 :: value) = (name, some value) := by
  have hName : ∀ b ∈ name, decide (b ≠ 61) = true := fun b hb => decide_eq_true (h b hb)
  rw [nameAndValue, List.takeWhile_append_of_pos hName, List.dropWhile_append_of_pos hName]
  simp

theorem nameAndValue_of_forall {name : Word} (h : ∀ b ∈ name, b ≠ 61) :
    nameAndValue name = (name, none) := by
  have hName : ∀ b ∈ name, decide (b ≠ 61) = true := fun b hb => decide_eq_true (h b hb)
  rw [nameAndValue, List.takeWhile_eq_self_iff.2 hName, List.dropWhile_eq_nil_iff.2 hName]
  rfl

private theorem bytes_append (s t : String) :
    Text.Utf8.bytes (s ++ t) = Text.Utf8.bytes s ++ Text.Utf8.bytes t := by
  simp [Text.Utf8.bytes, Text.Utf8.encode, String.toList_append]

theorem optionWord_eq (long : String) (value : Word) :
    optionWord long value = 45 :: 45 :: (Text.Utf8.bytes long ++ 61 :: value) := by
  rw [optionWord, bytes_append, bytes_append, List.append_assoc, List.append_assoc]
  rfl

theorem switchWord_eq (long : String) :
    switchWord long = 45 :: 45 :: Text.Utf8.bytes long := by
  rw [switchWord, bytes_append]
  rfl

/-- A word behind two hyphens is the one of an option, unless there is nothing behind them. -/
private theorem readWord_long (l : Level) {s : Progress} (hTrailing : s.trailing = false) {body : Word}
    (hBody : body ≠ []) : l.readWord s (45 :: 45 :: body) = l.readLong s body := by
  obtain ⟨b, rest, rfl⟩ := List.exists_cons_of_ne_nil hBody
  simp [readWord, hTrailing]

variable {l : Level} {given : Given} {places : List PositionalSpec}

theorem NamesOptions.of_long? (h : l.NamesOptions) {long : String} {o : OptionSpec}
    (hLong : l.long? long = some o) :
    Text.Utf8.bytes long ≠ [] ∧ ∀ b ∈ Text.Utf8.bytes long, b ≠ 61 := by
  have hName : o.long = long := by simpa using List.find?_some hLong
  rw [← hName]
  exact h o (List.mem_of_find?_eq_some hLong)

/-- What is settled tells how far the level was read: no word is awaited. -/
theorem settle_spec {s t : Progress} (h : s.settle = .ok t) :
    s.places = t.places ∧ s.trailing = t.trailing ∧ s.awaits = false := by
  unfold Progress.settle at h
  unfold Progress.awaits
  cases hPending : s.pending? with
  | none =>
      rw [hPending] at h
      cases h
      exact ⟨rfl, rfl, rfl⟩
  | some p =>
      rw [hPending] at h
      obtain ⟨given, hGiven, rfl⟩ := map_eq_ok_iff.1 h
      refine ⟨rfl, rfl, ?_⟩
      cases hWords : p.words with
      | nil =>
          simp only [Pending.settle, hWords, List.isEmpty_nil, if_true] at hGiven
          cases hGiven
      | cons word words => simp [hWords]

/-- One word is settled as its value if its argument was not given before. -/
theorem settle_of_read {a : Arg} {word : Word} {d : Datum} (hRead : a.read word = .ok d)
    (hNew : given.has a = false) (form : String) (trailing : Bool) :
    Progress.settle ⟨given, some ⟨a, form, false, [word]⟩, places, trailing⟩ =
      .ok ⟨given ++ [(a, d)], none, places, trailing⟩ := by
  simp [Progress.settle, Pending.settle, Pending.data, hNew, hRead, Except.map, bind, Except.bind,
    pure, Except.pure]

/-- Whether an argument may be given again. -/
def Repeats (l : Level) (a : Arg) : Prop :=
  ∀ o ∈ l.options, o.arg = a → o.counts = true ∧ o.valueName? = none

instance (l : Level) (a : Arg) : Decidable (l.Repeats a) :=
  inferInstanceAs (Decidable (∀ o ∈ l.options, o.arg = a → o.counts = true ∧ o.valueName? = none))

section Settled

variable {s : Progress} (hSettle : s.settle = .ok ⟨given, none, places, false⟩)
include hSettle

theorem begin_of_settle (a : Arg) (form : String) (many : Bool) (words : List Word) :
    s.begin a form many words = .ok ⟨given, some ⟨a, form, many, words⟩, places, false⟩ := by
  rw [Progress.begin, hSettle]
  rfl

/-- A switch gives its argument, behind what was pending. -/
theorem readSwitch_of_settle {o : OptionSpec} (hOption : o ∈ l.options) (hHelp : o.arg ≠ .help)
    (hFresh : l.Repeats o.arg ∨ given.has o.arg = false) (detail : Detail) :
    l.readSwitch s o detail = .ok ⟨given ++ [(o.arg, .on)], none, places, false⟩ := by
  have hOnce : (!o.counts && given.has o.arg) = false := by
    rcases hFresh with hRepeats | hNew
    · rw [(hRepeats o hOption rfl).1]
      rfl
    · rw [hNew, Bool.and_false]
  simp only [readSwitch, hSettle, faulty, Except.mapError, bind, Except.bind, if_neg hHelp, hOnce,
    Bool.false_eq_true, if_false, pure, Except.pure]

/-- **The word of an option gives its argument**, behind what was pending. -/
theorem readWord_of_says (hNames : l.NamesOptions) {word : Word} {entry : Arg × Datum}
    (h : l.Says word entry) (hFresh : l.Repeats entry.1 ∨ given.has entry.1 = false) :
    l.readWord s word = .ok ⟨given ++ [entry], none, places, false⟩ := by
  obtain ⟨-, hTrailing, -⟩ := settle_spec hSettle
  cases h with
  | @value long arg value d hOption hRead =>
      obtain ⟨o, hLong, rfl, hTakes⟩ := hOption
      obtain ⟨-, hPlain⟩ := hNames.of_long? hLong
      obtain ⟨v, hValue⟩ := Option.isSome_iff_exists.1 hTakes
      have hNew : given.has o.arg = false := by
        refine hFresh.resolve_left fun hRepeats => ?_
        have hNone := (hRepeats o (List.mem_of_find?_eq_some hLong) rfl).2
        rw [hValue] at hNone
        cases hNone
      rw [optionWord_eq, readWord_long l hTrailing (by simp), readLong, nameAndValue_append hPlain]
      simp only [Text.Utf8.text?_bytes, Option.bind_some, hLong, hValue, begin_of_settle hSettle, bind,
        Except.bind, settle_of_read hRead hNew]
      rfl
  | @switch long arg hOption hHelp =>
      obtain ⟨o, hLong, rfl, hSwitch⟩ := hOption
      obtain ⟨hFilled, hPlain⟩ := hNames.of_long? hLong
      rw [switchWord_eq, readWord_long l hTrailing hFilled, readLong, nameAndValue_of_forall hPlain]
      simp only [Text.Utf8.text?_bytes, Option.bind_some, hLong, hSwitch]
      exact readSwitch_of_settle hSettle (List.mem_of_find?_eq_some hLong) hHelp hFresh _

/-- The name of an option that takes a value opens it. -/
theorem readWord_opens (hNames : l.NamesOptions) {long : String} {o : OptionSpec}
    (hLong : l.long? long = some o) (hTakes : o.valueName?.isSome) :
    l.readWord s (switchWord long) = .ok ⟨given, some ⟨o.arg, o.form, false, []⟩, places, false⟩ := by
  obtain ⟨-, hTrailing, -⟩ := settle_spec hSettle
  obtain ⟨hFilled, hPlain⟩ := hNames.of_long? hLong
  obtain ⟨v, hValue⟩ := Option.isSome_iff_exists.1 hTakes
  rw [switchWord_eq, readWord_long l hTrailing hFilled, readLong, nameAndValue_of_forall hPlain]
  simp only [Text.Utf8.text?_bytes, Option.bind_some, hLong, hValue, begin_of_settle hSettle]
  rfl

end Settled

/-! ## Places -/

/-- The words that places take, in order: one each, but all that are left if a place takes many. -/
inductive Fills : List PositionalSpec → List Word → Given → Prop where
  | nothing (places : List PositionalSpec) : Fills places [] []
  | one {p : PositionalSpec} {rest : List PositionalSpec} {word : Word} {words : List Word} {d : Datum}
      {filled : Given} (hOne : p.many = false) (hRead : p.arg.read word = .ok d)
      (hRest : Fills rest words filled) : Fills (p :: rest) (word :: words) ((p.arg, d) :: filled)
  | many {p : PositionalSpec} {rest : List PositionalSpec} {words : List Word} {data : List Datum}
      (hMany : p.many = true) (hSome : words ≠ []) (hRead : words.mapM p.arg.read = .ok data) :
      Fills (p :: rest) words (data.map (p.arg, ·))

/-- Only arguments of the places are filled. -/
theorem Fills.arg_mem {words : List Word} {filled : Given} (h : Fills places words filled) :
    ∀ e ∈ filled, e.1 ∈ places.map (·.arg) := by
  induction h with
  | nothing => simp
  | @one p rest word words d filled _ _ _ ih =>
      intro e he
      rw [List.map_cons]
      rcases List.mem_cons.1 he with rfl | hLater
      · exact List.mem_cons_self
      · exact List.mem_cons_of_mem _ (ih e hLater)
  | many _ _ _ =>
      intro e he
      obtain ⟨d, -, rfl⟩ := List.mem_map.1 he
      exact List.mem_cons_self

/-- No words fill nothing. -/
theorem Fills.eq_nil {filled : Given} (h : Fills places [] filled) : filled = [] := by
  cases h with
  | nothing => rfl
  | many _ hSome _ => exact absurd rfl hSome

/-- Behind the separator every word is positional. -/
theorem readWord_trailing (l : Level) {s : Progress} (h : s.trailing = true) (word : Word) :
    l.readWord s word = l.readPlace s word := by
  unfold readWord
  exact if_pos h

end Level

end ControlClient.CommandLine
