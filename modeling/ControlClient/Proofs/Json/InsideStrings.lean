import ControlClient.Proofs.Json.Strings
import ControlClient.Proofs.Text.Shortest
import Mathlib.Algebra.GroupWithZero.Nat

/-!
# What may follow inside a string

Bytes that the reader takes up to the closing quote of a string spell a text. Of every state inside a
string it is said what may follow (`Closes`): a text, the rest of a character, the rest of an escape. A
step of the reader turns what follows the state behind a byte into what follows, with the byte, the
state in front of it. A state in which something is not UTF-8 is closed by nothing, because that is
never forgotten.

## Main results

* `closes_of_goes`: what follows a state from what follows the next one.
* `closes_of_ends`: nothing follows in a string that ends.
-/

namespace ControlClient.Json

open Text.Utf8 (Finishes Unfinished encodeChar)

namespace StringState

variable {s t : StringState} {taken : Nat} {byte : UInt8} {rest : List UInt8} {c : Char}

/-- What follows a high surrogate: a low one, and then a text. -/
def ClosesSurrogate (rest : List UInt8) : Prop :=
  ∃ low others more cs, rest = 92 :: 117 :: (others ++ more) ∧ IsCode low others ∧
    (0xDC00 ≤ low ∧ low ≤ 0xDFFF) ∧ SpellsText cs more

/-- What follows the digits of a code. -/
def ClosesCode (high? : Option Nat) (n : Nat) (rest : List UInt8) : Prop :=
  match high? with
  | some _ => (0xDC00 ≤ n ∧ n ≤ 0xDFFF) ∧ ∃ cs, SpellsText cs rest
  | none =>
      (n < 0xD800 ∨ 0xDFFF < n) ∧ (∃ cs, SpellsText cs rest) ∨
        (0xD800 ≤ n ∧ n ≤ 0xDBFF) ∧ ClosesSurrogate rest

/-- What follows inside a string, up to its closing quote. -/
def Closes (s : StringState) (rest : List UInt8) : Prop :=
  s.broken? = none ∧
    match s.phase with
    | .plain =>
        match s.unfinished? with
        | none => ∃ cs, SpellsText cs rest
        | some (_, u) => 0x80 ≤ u.low →
            ∃ c bytes more cs, rest = bytes ++ more ∧ Finishes u bytes c ∧ SpellsText cs more
    | .escape => ∃ cs, SpellsText cs (92 :: rest)
    | .group high? value? toCome => ∃ value n digits more, value? = some value ∧ rest = digits ++ more ∧
        digits.length = toCome - 1 + 1 ∧ hexFrom? value digits = some n ∧ ClosesCode high? n more
    | .surrogate _ => ClosesSurrogate rest
    | .surrogateEscape _ => ClosesSurrogate (92 :: rest)

/-! ## Text -/

private theorem spells_itself_of_high {bytes : List UInt8} (hBytes : encodeChar c = byte :: bytes)
    (hSome : bytes ≠ []) : SpellsChar c (byte :: bytes) := by
  have hHigh : 0x80 ≤ c.toNat := by
    apply Decidable.byContradiction
    intro hLow
    rw [encodeChar, if_pos (by omega)] at hBytes
    exact hSome (List.cons.inj hBytes).2.symm
  rw [← hBytes]
  refine .itself ?_ ?_ (by omega)
  · rintro rfl
    exact absurd hHigh (by decide)
  · rintro rfl
    exact absurd hHigh (by decide)

private theorem closes_of_firstByte (hPhase : s.phase = .plain) (hNone : s.unfinished? = none)
    (hQuote : byte ≠ 34) (hBackslash : byte ≠ 92) (hControl : 0x20 ≤ byte.toNat)
    (h : (s.firstByte taken byte).Closes rest) : s.Closes (byte :: rest) := by
  unfold firstByte at h
  cases hFirst : Text.Utf8.first byte with
  | ends c =>
      rw [hFirst] at h
      obtain ⟨hBroken, cs, hText⟩ := h
      have hChar := (Text.Utf8.toNat_of_ends hFirst).2
      have hNe : ∀ d : Char, byte ≠ UInt8.ofNat d.toNat → c ≠ d := by
        rintro d hd rfl
        exact hd (by rw [hChar, UInt8.ofNat_toNat])
      have hSpells : SpellsChar c (encodeChar c) :=
        .itself (hNe _ hQuote) (hNe _ hBackslash) (by omega)
      rw [Text.Utf8.encodeChar_of_ends hFirst] at hSpells
      refine ⟨hBroken, ?_⟩
      simp only [hPhase, hNone]
      exact ⟨c :: cs, .cons hSpells hText⟩
  | leaves u =>
      rw [hFirst] at h
      obtain ⟨hBroken, hMore⟩ := h
      simp only [hPhase] at hMore
      obtain ⟨c, bytes, more, cs, rfl, hFinishes, hText⟩ := hMore (Text.Utf8.low_of_first hFirst)
      have hSpells := spells_itself_of_high (Text.Utf8.encodeChar_of_finishes hFirst hFinishes)
        (by cases hFinishes <;> simp)
      refine ⟨hBroken, ?_⟩
      simp only [hPhase, hNone]
      exact ⟨c :: cs, .cons hSpells hText⟩
  | refuses =>
      rw [hFirst] at h
      have hBroken : s.broken?.or (some taken) = none := h.1
      simp at hBroken

private theorem closes_of_textByte (hPhase : s.phase = .plain) (hQuote : byte ≠ 34) (hBackslash : byte ≠ 92)
    (hControl : 0x20 ≤ byte.toNat) (h : (s.textByte taken byte).Closes rest) : s.Closes (byte :: rest) := by
  unfold textByte at h
  cases hUnfinished : s.unfinished? with
  | none =>
      rw [hUnfinished] at h
      exact closes_of_firstByte hPhase hUnfinished hQuote hBackslash hControl h
  | some unfinished =>
      obtain ⟨place, u⟩ := unfinished
      simp only [hUnfinished] at h
      cases hNext : u.next byte with
      | ends c =>
          rw [hNext] at h
          obtain ⟨hBroken, cs, hText⟩ := h
          refine ⟨hBroken, ?_⟩
          simp only [hPhase, hUnfinished]
          intro hLow
          have hHigh := Text.Utf8.high_of_next hNext (by simp) hLow
          exact ⟨c, [byte], rest, cs, rfl, .last hHigh hNext, hText⟩
      | leaves v =>
          rw [hNext] at h
          obtain ⟨hBroken, hMore⟩ := h
          refine ⟨hBroken, ?_⟩
          simp only [hPhase, hUnfinished] at hMore ⊢
          intro hLow
          obtain ⟨c, bytes, more, cs, rfl, hFinishes, hText⟩ := hMore (Text.Utf8.low_of_next hNext)
          have hHigh := Text.Utf8.high_of_next hNext (by simp) hLow
          exact ⟨c, byte :: bytes, more, cs, rfl, .more hHigh hNext hFinishes, hText⟩
      | refuses =>
          -- The place of the fault is noted and stays.
          have hFirst : ((s.breakAt place).firstByte taken byte).Closes rest := by
            rw [hNext] at h
            exact h
          have hBroken := (closes_of_firstByte (s := s.breakAt place) hPhase rfl hQuote hBackslash hControl
            hFirst).1
          simp [breakAt] at hBroken

/-! ## Codes -/

private theorem hexFrom?_lt {digits : List UInt8} {value n : Nat} (h : hexFrom? value digits = some n) :
    n < (value + 1) * 16 ^ digits.length := by
  induction digits generalizing value with
  | nil =>
      cases h
      simp
  | cons byte rest ih =>
      obtain ⟨d, hDigit, hRest⟩ := Option.bind_eq_some_iff.1 h
      have hLess : d < 16 := by
        unfold hexValue? at hDigit
        grind
      have hStep := ih hRest
      have hSpan : (value * 16 + d + 1) * 16 ^ rest.length ≤ (value + 1) * 16 * 16 ^ rest.length :=
        Nat.mul_le_mul_right _ (by omega)
      rw [List.length_cons, Nat.pow_succ', ← Nat.mul_assoc]
      omega

private theorem spells_code {n : Nat} {digits : List UInt8} (hCode : IsCode n digits)
    (h : ClosesCode none n rest) : ∃ cs, SpellsText cs (92 :: 117 :: (digits ++ rest)) := by
  have hBound : n < 0x10000 := by
    have hLess := hexFrom?_lt hCode.2
    rwa [hCode.1] at hLess
  obtain ⟨hPlain, cs, hText⟩ | ⟨hHigh, low, others, more, cs, rfl, hLow, hRange, hText⟩ := h
  · have hChar : (Char.ofNat n).toNat = n := Text.Utf8.toNat_ofNat_of_valid (by omega)
    have hSpells : SpellsChar (Char.ofNat n) (92 :: 117 :: digits) := .code (by rwa [hChar])
    exact ⟨_, .cons hSpells hText⟩
  · have hChar := Text.Utf8.toNat_ofNat_of_valid
      (show 0x10000 + (n - 0xD800) * 0x400 + (low - 0xDC00) < 0xD800 ∨ _ by omega)
    have hSpells := SpellsChar.surrogates hCode hLow hHigh hRange hChar
    have hAll := SpellsText.cons hSpells hText
    simp only [List.cons_append, List.append_assoc] at hAll
    exact ⟨_, hAll⟩

private theorem closes_of_endGroup {high? value? : Option Nat} (h : s.endGroup taken high? value? = .goes t)
    (hRest : t.Closes rest) : s.broken? = none ∧ ∃ n, value? = some n ∧ ClosesCode high? n rest := by
  unfold endGroup at h
  split at h
  · cases h
  · next n =>
      split at h
      · cases h
      · next hLow =>
          split at h
          · next hHigh =>
              cases h
              exact ⟨hRest.1, n, rfl, .inr ⟨hHigh, hRest.2⟩⟩
          · next hHigh =>
              cases h
              exact ⟨hRest.1, n, rfl, .inl ⟨by omega, hRest.2⟩⟩
  · next high n =>
      split at h
      · next hLow =>
          cases h
          exact ⟨hRest.1, n, rfl, hLow, hRest.2⟩
      · cases h

private theorem digit_of_group {value? : Option Nat} {n : Nat}
    (h : (value?.bind fun v => (hexValue? byte).map (v * 16 + ·)) = some n) :
    ∃ value, value? = some value ∧ ∃ d, hexValue? byte = some d ∧ value * 16 + d = n := by
  obtain ⟨value, hValue, hDigit⟩ := Option.bind_eq_some_iff.1 h
  obtain ⟨d, hd, hn⟩ := Option.map_eq_some_iff.1 hDigit
  exact ⟨value, hValue, d, hd, hn⟩

/-- A string in which nothing is broken when a character must be complete has none that is not. -/
private theorem settle_eq_self (h : s.settle.broken? = none) : s.unfinished? = none ∧ s.settle = s := by
  unfold settle at h ⊢
  cases hUnfinished : s.unfinished? with
  | none => exact ⟨rfl, rfl⟩
  | some unfinished => simp [hUnfinished, breakAt] at h

/-! ## Steps -/

private theorem closes_of_plain (hPhase : s.phase = .plain) (hStep : s.step taken byte = .goes t)
    (h : t.Closes rest) : s.Closes (byte :: rest) := by
  unfold step at hStep
  simp only [hPhase] at hStep
  split at hStep
  · unfold close at hStep
    split at hStep <;> cases hStep
  · split at hStep
    · next hBackslash =>
        cases hStep
        obtain ⟨hNone, hSettle⟩ := settle_eq_self h.1
        rw [hSettle] at h
        refine ⟨h.1, ?_⟩
        simp only [hPhase, hNone, hBackslash]
        exact h.2
    · split at hStep
      · cases hStep
      · next hQuote hBackslash hControl =>
          cases hStep
          exact closes_of_textByte hPhase hQuote hBackslash (by omega) h

private theorem closes_of_escape (hPhase : s.phase = .escape) (hStep : s.step taken byte = .goes t)
    (h : t.Closes rest) : s.Closes (byte :: rest) := by
  unfold step at hStep
  simp only [hPhase] at hStep
  split at hStep
  · next hCode =>
      cases hStep
      obtain ⟨hBroken, value, n, digits, more, hValue, rfl, hLength, hDigits, hMore⟩ := h
      cases hValue
      refine ⟨hBroken, ?_⟩
      simp only [hPhase, hCode]
      exact spells_code ⟨hLength, hDigits⟩ hMore
  · split at hStep
    · next c hChar =>
        cases hStep
        obtain ⟨hBroken, cs, hText⟩ := h
        refine ⟨hBroken, ?_⟩
        simp only [hPhase]
        exact ⟨c :: cs, .cons (.letter hChar) hText⟩
    · cases hStep

private theorem closes_of_group {high? value? : Option Nat} {toCome : Nat}
    (hPhase : s.phase = .group high? value? toCome) (hStep : s.step taken byte = .goes t)
    (h : t.Closes rest) : s.Closes (byte :: rest) := by
  unfold step at hStep
  simp only [hPhase] at hStep
  split at hStep
  · next hLast =>
      obtain ⟨hBroken, n, hValue, hCode⟩ := closes_of_endGroup hStep h
      obtain ⟨value, rfl, d, hDigit, rfl⟩ := digit_of_group hValue
      refine ⟨hBroken, ?_⟩
      simp only [hPhase]
      refine ⟨value, _, [byte], rest, rfl, rfl, ?_, ?_, hCode⟩
      · rw [List.length_singleton]
        omega
      · simp only [hexFrom?, hDigit, Option.bind_some]
  · next hMore =>
      cases hStep
      obtain ⟨hBroken, w, n, digits, more, hValue, rfl, hLength, hDigits, hCode⟩ := h
      obtain ⟨value, rfl, d, hDigit, rfl⟩ := digit_of_group hValue
      refine ⟨hBroken, ?_⟩
      simp only [hPhase]
      refine ⟨value, n, byte :: digits, more, rfl, rfl, ?_, ?_, hCode⟩
      · rw [List.length_cons, hLength]
        omega
      · simp only [hexFrom?, hDigit, Option.bind_some, hDigits]

private theorem closes_of_surrogate {high : Nat} (hPhase : s.phase = .surrogate high)
    (hStep : s.step taken byte = .goes t) (h : t.Closes rest) : s.Closes (byte :: rest) := by
  unfold step at hStep
  simp only [hPhase] at hStep
  split at hStep
  · next hBackslash =>
      cases hStep
      refine ⟨h.1, ?_⟩
      simp only [hPhase, hBackslash]
      exact h.2
  · cases hStep

private theorem closes_of_surrogateEscape {high : Nat} (hPhase : s.phase = .surrogateEscape high)
    (hStep : s.step taken byte = .goes t) (h : t.Closes rest) : s.Closes (byte :: rest) := by
  unfold step at hStep
  simp only [hPhase] at hStep
  split at hStep
  · next hCode =>
      cases hStep
      obtain ⟨hBroken, value, n, digits, more, hValue, rfl, hLength, hDigits, hRange, cs, hText⟩ := h
      cases hValue
      refine ⟨hBroken, ?_⟩
      simp only [hPhase, hCode]
      exact ⟨n, digits, more, cs, rfl, ⟨hLength, hDigits⟩, hRange, hText⟩
  · cases hStep

/-- What follows the state behind a byte follows, behind the byte, the state in front of it. -/
theorem closes_of_goes (hStep : s.step taken byte = .goes t) (h : t.Closes rest) :
    s.Closes (byte :: rest) := by
  cases hPhase : s.phase with
  | plain => exact closes_of_plain hPhase hStep h
  | escape => exact closes_of_escape hPhase hStep h
  | group high? value? toCome => exact closes_of_group hPhase hStep h
  | surrogate high => exact closes_of_surrogate hPhase hStep h
  | surrogateEscape high => exact closes_of_surrogateEscape hPhase hStep h

private theorem endGroup_ne_ends {high? value? : Option Nat} {text : String} :
    s.endGroup taken high? value? ≠ .ends text := by
  unfold endGroup
  split
  · simp
  · split
    · simp
    · split <;> simp
  · split <;> simp

/-- Only the closing quote ends a string, and nothing follows in it. -/
theorem closes_of_ends {text : String} (hStep : s.step taken byte = .ends text) :
    byte = 34 ∧ s.Closes [] := by
  unfold step at hStep
  cases hPhase : s.phase with
  | plain =>
      simp only [hPhase] at hStep
      split at hStep
      · next hQuote =>
          unfold close at hStep
          split at hStep
          · cases hStep
          · next hBroken =>
              obtain ⟨hNone, hSettle⟩ := settle_eq_self hBroken
              rw [hSettle] at hBroken
              refine ⟨hQuote, hBroken, ?_⟩
              simp only [hPhase, hNone]
              exact ⟨[], .nil⟩
      · split at hStep
        · cases hStep
        · split at hStep <;> cases hStep
  | group high? value? toCome =>
      simp only [hPhase] at hStep
      split at hStep
      · exact absurd hStep endGroup_ne_ends
      · cases hStep
  | escape =>
      simp only [hPhase] at hStep
      split at hStep
      · cases hStep
      · split at hStep <;> cases hStep
  | surrogate high =>
      simp only [hPhase] at hStep
      split at hStep <;> cases hStep
  | surrogateEscape high =>
      simp only [hPhase] at hStep
      split at hStep <;> cases hStep

end StringState

end ControlClient.Json
