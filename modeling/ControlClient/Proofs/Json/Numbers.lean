import ControlClient.Proofs.Json.Steps
import ControlClient.Text.Digits
import ControlClient.Text.Utf8

/-!
# Numbers

A number is spelled by bytes that the reader takes for it when nothing else is there; what its digits are
worth is the reader's matter, and only where a number starts and ends is said here. Nothing in a number says
that it is complete; the byte behind it does, and every byte does that may follow a value (`step_ends`).

The digits of an integer are read from the left and gathered, so what has been read of a number is the
number with its last digits missing. That is also how its digits are written: those of its tenth part,
and then one more. The induction is therefore on the number and not on its digits.

## Main results

* `spellsNumber_iff`: what spells a number, by the states of the reader.
* `spellsNumber_intText`: an integer that was written spells itself.
-/

namespace ControlClient.Json

open Text.Utf8 (encode encodeChar)

/-! ## How a number is spelled -/

/-- Whether a byte may belong to a number. -/
def isNumberByte (byte : UInt8) : Bool :=
  (digit? byte).isSome || byte = 43 || byte = 45 || byte = 46 || isExponentMark byte

/-- How a number is written: in digits, signs, points and letters of exponents, so that it is read. -/
def SpellsNumber (v : Value) (bytes : List UInt8) : Prop :=
  (∀ byte ∈ bytes, isNumberByte byte = true) ∧ read bytes = .ok v

/-- The state after the first byte of a number. -/
def NumberState.begin? (byte : UInt8) : Option NumberState :=
  match digit? byte with
  | some d => some (afterDigit false d)
  | none => if byte = 45 then some afterSign else none

/-- What a number is worth is an integer or a double. -/
theorem NumberState.value_cases {n : NumberState} {v : Value} (h : n.value = .ok v) :
    (∃ i, v = .integer i) ∨ ∃ x, v = .fractional x := by
  obtain ⟨negative, digits, exponent, phase⟩ := n
  cases phase <;> grind [value, fractional]

/-- Where the bytes of a number stand does not matter. -/
theorem NumberState.leads_anywhere {n m : NumberState} {taken : Nat} {bytes : List UInt8}
    (h : Leads NumberState.Goes n taken bytes m) (other : Nat) :
    Leads NumberState.Goes n other bytes m := by
  induction h generalizing other with
  | done => exact .done
  | next hStep _ ih => exact .next hStep (ih (other + 1))

/-- Whether a byte cannot go on with a number. -/
def EndsNumber (byte : UInt8) : Prop :=
  digit? byte = none ∧ byte ≠ 46 ∧ isExponentMark byte = false

instance (byte : UInt8) : Decidable (EndsNumber byte) := inferInstanceAs (Decidable (_ ∧ _ ∧ _))

/-- **A complete number ends where another byte stands.** -/
theorem NumberState.step_ends {n : NumberState} {v : Value} {byte : UInt8} (hValue : n.value = .ok v)
    (hEnds : EndsNumber byte) : n.step byte = .ends := by
  obtain ⟨hDigit, hPoint, hMark⟩ := hEnds
  obtain ⟨negative, digits, exponent, phase⟩ := n
  cases phase <;> simp_all [value, step, pointOrMark]

private theorem eq_of_pointOrMark {n m : NumberState} {pointAllowed : Bool} {byte : UInt8}
    (h : n.pointOrMark pointAllowed byte = .goes m) : byte = 46 ∨ isExponentMark byte = true := by
  unfold NumberState.pointOrMark at h
  split at h
  · next hPoint => exact .inl (by simpa using (Bool.and_eq_true_iff.1 hPoint).2)
  · split at h
    · next hMark => exact .inr hMark
    · cases h

/-- A number goes on with a digit, a point, the letter of an exponent, or the sign behind that. -/
private theorem isNumberByte_of_goes {n m : NumberState} {byte : UInt8} (h : n.step byte = .goes m) :
    isNumberByte byte = true := by
  cases hDigit : digit? byte with
  | some d => simp [isNumberByte, hDigit]
  | none =>
      have hOther : (byte = 43 ∨ byte = 45) ∨ byte = 46 ∨ isExponentMark byte = true := by
        cases hPhase : n.phase <;> simp only [NumberState.step, hPhase, hDigit, reduceCtorEq] at h
        case zero | whole | long | fraction | dropped => exact .inr (eq_of_pointOrMark h)
        case mark =>
          split at h
          · next hPlus => exact .inl (.inl hPlus)
          · split at h
            · next hMinus => exact .inl (.inr hMinus)
            · cases h
      simpa [isNumberByte, hDigit, or_assoc] using hOther

theorem isSpace_of_isNumberByte {byte : UInt8} (h : isNumberByte byte = true) : isSpace byte = false := by
  rw [← Bool.not_eq_true]
  intro hSpace
  simp only [isSpace, Bool.or_eq_true, decide_eq_true_eq] at hSpace
  rcases hSpace with ((rfl | rfl) | rfl) | rfl <;> cases h

namespace State

/-- Where a number starts, it is begun with its first byte. -/
theorem begin_number {frames : List Frame} {byte : UInt8} {n : NumberState}
    (h : NumberState.begin? byte = some n) (taken : Nat) :
    begin frames taken byte = .ok ⟨.number n, frames⟩ := by
  unfold NumberState.begin? at h
  cases hDigit : digit? byte with
  | some d =>
      rw [hDigit] at h
      cases h
      simp only [begin, hDigit]
  | none =>
      simp only [hDigit] at h
      split at h
      · next hMinus =>
          cases h
          subst hMinus
          rfl
      · cases h

private theorem begin?_of_begin {frames : List Frame} {taken : Nat} {byte : UInt8} {s : State}
    (hByte : isNumberByte byte = true) (h : begin frames taken byte = .ok s) :
    ∃ n, NumberState.begin? byte = some n := by
  unfold NumberState.begin?
  cases hDigit : digit? byte with
  | some d => exact ⟨_, rfl⟩
  | none =>
      simp only [isNumberByte, hDigit, isExponentMark, Option.isSome_none, Bool.false_or, Bool.or_eq_true,
        decide_eq_true_eq] at hByte
      rcases hByte with ((rfl | rfl) | rfl) | (rfl | rfl)
      · cases h
      · exact ⟨_, rfl⟩
      · cases h
      · cases h
      · cases h

private theorem exists_leads_of_run {n : NumberState} {taken : Nat} {bytes : List UInt8} {v : Value}
    (hBytes : ∀ byte ∈ bytes, isNumberByte byte = true)
    (h : State.run ⟨.number n, []⟩ taken bytes = .ok v) :
    ∃ m, Leads NumberState.Goes n taken bytes m ∧ m.value = .ok v := by
  induction bytes generalizing n taken with
  | nil =>
      refine ⟨n, .done, ?_⟩
      simp only [run, finish] at h
      cases hValue : n.value with
      | error defect =>
          rw [hValue] at h
          cases h
      | ok w =>
          rw [hValue] at h
          cases h
          rfl
  | cons byte rest ih =>
      rw [List.forall_mem_cons] at hBytes
      obtain ⟨hByte, hRest⟩ := hBytes
      simp only [run, step] at h
      cases hStep : n.step byte with
      | goes t =>
          simp only [hStep] at h
          obtain ⟨m, hLeads, hValue⟩ := ih hRest h
          exact ⟨m, .next hStep hLeads, hValue⟩
      | fails defect =>
          rw [hStep] at h
          cases h
      | ends =>
          -- A byte of a number does not stand behind one.
          have hApart : ¬isSpace byte = true := by simp [isSpace_of_isNumberByte hByte]
          rw [hStep] at h
          cases hValue : n.value with
          | error defect =>
              simp only [hValue] at h
              cases h
          | ok w =>
              simp only [hValue, between, hApart, complete] at h
              cases h

end State

theorem isNumberByte_of_begin? {byte : UInt8} {n : NumberState}
    (h : NumberState.begin? byte = some n) : isNumberByte byte = true := by
  unfold NumberState.begin? at h
  unfold isNumberByte
  cases hDigit : digit? byte with
  | some d => rfl
  | none =>
      simp only [hDigit] at h
      split at h
      · next hMinus =>
          subst hMinus
          rfl
      · cases h

private theorem isNumberByte_of_leads {n m : NumberState} {taken : Nat} {bytes : List UInt8}
    (h : Leads NumberState.Goes n taken bytes m) : ∀ byte ∈ bytes, isNumberByte byte = true := by
  induction h with
  | done => simp
  | next hStep _ ih => exact List.forall_mem_cons.2 ⟨isNumberByte_of_goes hStep, ih⟩

/-- **What spells a number, by the states of the reader.** -/
theorem spellsNumber_iff {v : Value} {bytes : List UInt8} :
    SpellsNumber v bytes ↔ ∃ byte rest n m, bytes = byte :: rest ∧ NumberState.begin? byte = some n ∧
      Leads NumberState.Goes n 1 rest m ∧ m.value = .ok v := by
  constructor
  · rintro ⟨hBytes, hRead⟩
    rw [read_eq_ok_iff] at hRead
    cases bytes with
    | nil => cases hRead
    | cons byte rest =>
        rw [List.forall_mem_cons] at hBytes
        obtain ⟨hByte, hRest⟩ := hBytes
        have hApart : isSpace byte = false := isSpace_of_isNumberByte hByte
        simp only [State.run, State.start, State.step, hApart, Bool.false_eq_true, if_false] at hRead
        cases hBegin : State.begin [] 0 byte with
        | error fault =>
            rw [hBegin] at hRead
            cases hRead
        | ok s =>
            obtain ⟨n, hFirst⟩ := State.begin?_of_begin hByte hBegin
            rw [State.begin_number hFirst] at hRead
            obtain ⟨m, hLeads, hValue⟩ := State.exists_leads_of_run hRest hRead
            exact ⟨byte, rest, n, m, rfl, hFirst, hLeads, hValue⟩
  · rintro ⟨byte, rest, n, m, rfl, hFirst, hLeads, hValue⟩
    have hByte := isNumberByte_of_begin? hFirst
    refine ⟨List.forall_mem_cons.2 ⟨hByte, isNumberByte_of_leads hLeads⟩, ?_⟩
    have hRun := State.run_of_leads (State.leads_number [] hLeads) []
    rw [List.append_nil] at hRun
    rw [read_eq_ok_iff]
    simp only [State.run, State.start, State.step, isSpace_of_isNumberByte hByte, Bool.false_eq_true,
      if_false, State.begin_number hFirst, hRun, State.finish, hValue]
    rfl

/-! ## Integers that were written -/

/-- The byte of a digit. -/
def digitByte (n : Nat) : UInt8 := UInt8.ofNat (48 + n)

theorem digitByte_spec {n : Nat} (h : n < 10) :
    encodeChar n.digitChar = [digitByte n] ∧ digit? (digitByte n) = some n := by
  have hAll : ∀ n < 10,
      encodeChar n.digitChar = [digitByte n] ∧ digit? (digitByte n) = some n := by decide
  exact hAll n h

namespace NumberState

/-- The state after the digits of a number. -/
def ofNat (negative : Bool) (n : Nat) : NumberState :=
  ⟨negative, n, 0, if n = 0 then .zero else .whole⟩

private theorem step_ofNat_digit (negative : Bool) {n d : Nat} (hn : n ≠ 0) (hd : d < 10)
    (hBound : n * 10 + d < digitsBound) :
    (ofNat negative n).step (digitByte d) = .goes (ofNat negative (n * 10 + d)) := by
  have hPositive : n * 10 + d ≠ 0 := by omega
  simp only [step, ofNat, hn, hPositive, if_false, (digitByte_spec hd).2]
  rw [if_pos hBound]

/-- **The digits of a number lead to the state of that number**, from the state after the first. -/
theorem leads_digits (negative : Bool) {n : Nat} (hBound : n < digitsBound) (taken : Nat) :
    ∃ d bytes, d < 10 ∧ encode (Text.digits n) = digitByte d :: bytes ∧
      Leads Goes (afterDigit negative d) taken bytes (ofNat negative n) := by
  induction n using Nat.strongRecOn generalizing taken with
  | ind n ih =>
      by_cases hOne : n < 10
      · refine ⟨n, [], hOne, ?_, .done⟩
        show encode (Nat.toDigits 10 n) = _
        rw [Nat.toDigits_of_lt_base hOne, encode, List.flatMap_singleton, (digitByte_spec hOne).1]
      · obtain ⟨d, bytes, hd, hBytes, hLeads⟩ := ih (n / 10) (by omega) (by omega) taken
        have hLast : n % 10 < 10 := Nat.mod_lt n (by decide)
        refine ⟨d, bytes ++ [digitByte (n % 10)], hd, ?_, ?_⟩
        · show encode (Nat.toDigits 10 n) = _
          rw [Nat.toDigits_of_base_le (by decide) (by omega), encode, List.flatMap_append,
            List.flatMap_singleton, (digitByte_spec hLast).1]
          show encode (Text.digits (n / 10)) ++ _ = _
          rw [hBytes]
          rfl
        · apply hLeads.append
          have hStep := step_ofNat_digit negative (show n / 10 ≠ 0 by omega) hLast
            (show n / 10 * 10 + n % 10 < digitsBound by omega)
          rw [show n / 10 * 10 + n % 10 = n by omega] at hStep
          exact .next hStep .done

/-- The integer of a sign and a number, if it is kept. -/
theorem value_ofNat {negative : Bool} {n : Nat}
    (h : negative = true → n ≠ 0 ∧ n ≤ 0x8000000000000000) :
    (ofNat negative n).value = .ok (.integer (if negative then -(n : Int) else n)) := by
  have hWhole : (ofNat negative n).phase = .zero ∨ (ofNat negative n).phase = .whole := by
    by_cases hn : n = 0
    · exact .inl (by simp [ofNat, hn])
    · exact .inr (by simp [ofNat, hn])
  cases negative with
  | false =>
      unfold value
      rcases hWhole with hPhase | hPhase <;> rw [hPhase] <;> rfl
  | true =>
      have hKept := h rfl
      unfold value
      rcases hWhole with hPhase | hPhase <;> rw [hPhase] <;>
        simp only [ofNat, Bool.true_eq_false, if_false, hKept, ne_eq, not_false_eq_true, and_self,
          if_true]

end NumberState

private theorem spellsNumber_natural {n : Nat} (hBound : n < digitsBound) :
    SpellsNumber (.integer n) (encode (Text.digits n)) := by
  have hValue : (NumberState.ofNat false n).value = .ok (.integer n) :=
    NumberState.value_ofNat (by simp)
  obtain ⟨d, bytes, hd, hBytes, hLeads⟩ := NumberState.leads_digits false hBound 1
  refine spellsNumber_iff.2 ⟨_, bytes, _, _, hBytes, ?_, hLeads, hValue⟩
  rw [NumberState.begin?, (digitByte_spec hd).2]

private theorem spellsNumber_negative {n : Nat} (hn : n ≠ 0) (hBound : n ≤ 0x8000000000000000) :
    SpellsNumber (.integer (-n)) (45 :: encode (Text.digits n)) := by
  have hValue : (NumberState.ofNat true n).value = .ok (.integer (-n)) :=
    NumberState.value_ofNat fun _ => ⟨hn, hBound⟩
  have hDigits : n < digitsBound := Nat.lt_of_le_of_lt hBound (by decide)
  obtain ⟨d, bytes, hd, hBytes, hLeads⟩ := NumberState.leads_digits true hDigits 2
  rw [hBytes]
  refine spellsNumber_iff.2 ⟨45, _, .afterSign, _, rfl, rfl, .next ?_ hLeads, hValue⟩
  show NumberState.step _ _ = _
  simp only [NumberState.step, NumberState.afterSign, (digitByte_spec hd).2]

/-- **An integer that was written spells itself**, if it is kept. -/
theorem spellsNumber_intText {n : Int} (hLow : -0x8000000000000000 ≤ n) (hHigh : n < (digitsBound : Int)) :
    SpellsNumber (.integer n) (encode (Text.intText n).toList) := by
  have hDigits : (Text.digitText n.natAbs).toList = Text.digits n.natAbs := String.toList_ofList
  unfold Text.intText
  by_cases hNegative : n < 0
  · have hSelf : -(n.natAbs : Int) = n := by omega
    rw [if_pos hNegative, String.toList_append, hDigits, ← hSelf, Int.natAbs_neg, Int.natAbs_natCast]
    exact spellsNumber_negative (by omega) (by omega)
  · have hSelf : (n.natAbs : Int) = n := by omega
    rw [if_neg hNegative, hDigits, ← hSelf, Int.natAbs_natCast]
    exact spellsNumber_natural (by omega)

end ControlClient.Json
