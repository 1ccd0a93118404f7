import ControlClient.Json.Printer
import ControlClient.Proofs.Json.Steps
import ControlClient.Proofs.Text.Utf8

/-!
# Strings

A character may be written in a string in several ways, and a text character by character. That is said here
as a relation between texts and bytes (`SpellsText`), and the reader takes bytes for every text that they
spell. What the reader knows inside a string depends on where a byte stands, because a sequence that is not
UTF-8 is reported by its place. Bytes that spell a text hold no such sequence, so the place does not matter in
the end; but it is part of the states in between. The lemmas therefore follow the reader from state to state
(`Leads`) and name only the states between two characters (`after`).

## Main results

* `leads_spelled`: the reader takes what spells a text for the text.
* `spells_quote`: a string that was written is spelled by what stands between the quotes.
-/

namespace ControlClient.Json

open Text.Utf8 (Encoded Finishes Unfinished encode encodeChar encodeChar_cases)

/-! ## How a text is spelled -/

/-- The number of hexadecimal digits behind others that say a number. -/
def hexFrom? (value : Nat) : List UInt8 → Option Nat
  | [] => some value
  | byte :: rest => (hexValue? byte).bind fun d => hexFrom? (value * 16 + d) rest

/-- Four hexadecimal digits that say a number. -/
def IsCode (n : Nat) (digits : List UInt8) : Prop := digits.length = 4 ∧ hexFrom? 0 digits = some n

/-- How a character is written in a string: as itself, by a letter behind a backslash, by its code, or by
the codes of two surrogates. -/
inductive SpellsChar : Char → List UInt8 → Prop where
  | itself {c : Char} (hQuote : c ≠ '"') (hBackslash : c ≠ '\\') (hHigh : 0x20 ≤ c.toNat) :
      SpellsChar c (encodeChar c)
  | letter {c : Char} {byte : UInt8} (hChar : escapedChar? byte = some c) : SpellsChar c [92, byte]
  | code {c : Char} {digits : List UInt8} (hCode : IsCode c.toNat digits) :
      SpellsChar c (92 :: 117 :: digits)
  | surrogates {c : Char} {high low : Nat} {digits others : List UInt8} (hHigh : IsCode high digits)
      (hLow : IsCode low others) (hFirst : 0xD800 ≤ high ∧ high ≤ 0xDBFF)
      (hSecond : 0xDC00 ≤ low ∧ low ≤ 0xDFFF)
      (hChar : c.toNat = 0x10000 + (high - 0xD800) * 0x400 + (low - 0xDC00)) :
      SpellsChar c (92 :: 117 :: (digits ++ 92 :: 117 :: others))

/-- How a text is written in a string: one character after another. -/
inductive SpellsText : List Char → List UInt8 → Prop where
  | nil : SpellsText [] []
  | cons {c : Char} {cs : List Char} {bytes more : List UInt8} (hChar : SpellsChar c bytes)
      (hRest : SpellsText cs more) : SpellsText (c :: cs) (bytes ++ more)

/-- How a string is written: its text in quotes. -/
def SpellsString (s : String) (bytes : List UInt8) : Prop :=
  ∃ inner, bytes = 34 :: (inner ++ [34]) ∧ SpellsText s.toList inner

namespace StringState

/-- The state after these characters, latest first, between two of them. -/
def after (cs : List Char) : StringState := ⟨cs, none, none, .plain⟩

variable {cs : List Char} {taken : Nat} {c : Char}

/-! ## A character as itself -/

private theorem step_text {s : StringState} {byte : UInt8} (hPhase : s.phase = .plain)
    (hQuote : byte ≠ 34) (hBackslash : byte ≠ 92) (hHigh : 0x20 ≤ byte.toNat) :
    s.step taken byte = .goes (s.textByte taken byte) := by
  unfold step
  rw [hPhase]
  simp only [hQuote, hBackslash, if_false]
  rw [if_neg (by omega)]

private theorem step_high {s : StringState} {byte : UInt8} (hPhase : s.phase = .plain)
    (hHigh : 0x80 ≤ byte.toNat) : s.step taken byte = .goes (s.textByte taken byte) := by
  apply step_text hPhase
  · rintro rfl
    exact absurd hHigh (by decide)
  · rintro rfl
    exact absurd hHigh (by decide)
  · omega

private theorem leads_finishes {u : Unfinished} {bytes : List UInt8} (h : Finishes u bytes c)
    (place : Nat) : Leads Goes ⟨cs, some (place, u), none, .plain⟩ taken bytes (after (c :: cs)) := by
  induction h generalizing taken with
  | last hHigh hStep =>
      refine .next (step_high rfl hHigh) ?_
      simp only [textByte, hStep]
      exact .done
  | more hHigh hStep _ ih =>
      refine .next (step_high rfl hHigh) ?_
      simp only [textByte, hStep]
      exact ih

private theorem leads_itself (hQuote : c ≠ '"') (hBackslash : c ≠ '\\') (hHigh : 0x20 ≤ c.toNat) :
    Leads Goes (after cs) taken (encodeChar c) (after (c :: cs)) := by
  have hEncoded := encodeChar_cases c
  generalize encodeChar c = bytes at hEncoded ⊢
  cases hEncoded with
  | @plain byte _ hChar hStep =>
      have hNe : ∀ d : Char, c ≠ d → byte.toNat ≠ d.toNat := by
        intro d hd hByte
        exact hd (Char.toNat_inj.1 (hChar.trans hByte))
      have hText : (after cs).step taken byte = .goes ((after cs).textByte taken byte) := by
        apply step_text rfl
        · rintro rfl
          exact hNe _ hQuote rfl
        · rintro rfl
          exact hNe _ hBackslash rfl
        · omega
      refine .next hText ?_
      simp only [textByte, after, firstByte, hStep]
      exact .done
  | sequence hHigh hStep hRest =>
      refine .next (step_high rfl hHigh) ?_
      simp only [textByte, after, firstByte, hStep]
      exact leads_finishes hRest taken

/-! ## A character by a letter or by codes -/

private theorem leads_letter {byte : UInt8} (hChar : escapedChar? byte = some c) :
    Leads Goes (after cs) taken [92, byte] (after (c :: cs)) := by
  have hLetter : byte ≠ 117 := by
    rintro rfl
    cases hChar
  have hEscape : (after cs).step taken 92 = .goes { after cs with phase := .escape } := rfl
  refine .next hEscape (.next ?_ .done)
  show step _ _ _ = _
  simp only [step, hLetter, if_false, hChar]
  rfl

/-- The digits leave the characters alone until the last one completes the group. -/
private theorem leads_group {high? : Option Nat} {value n : Nat} {digits : List UInt8} {t : StringState}
    (hDigits : hexFrom? value digits = some n) (hSome : digits ≠ [])
    (hEnd : ∀ taken phase, endGroup { after cs with phase } taken high? (some n) = .goes t) :
    Leads Goes { after cs with phase := .group high? (some value) digits.length } taken digits t := by
  induction digits generalizing value taken with
  | nil => exact absurd rfl hSome
  | cons byte rest ih =>
      obtain ⟨d, hDigit, hRest⟩ := Option.bind_eq_some_iff.1 hDigits
      cases rest with
      | nil =>
          cases hRest
          refine .next ?_ .done
          show step _ _ _ = _
          simp only [step, hDigit, Option.bind_some, Option.map_some, List.length_singleton, Nat.le_refl,
            if_true]
          exact hEnd taken _
      | cons other rest =>
          have hMore : ¬rest.length + 1 + 1 ≤ 1 := by omega
          refine .next ?_ (ih hRest (by simp))
          show step _ _ _ = _
          simp only [step, hDigit, Option.bind_some, Option.map_some, List.length_cons, hMore, if_false]
          rfl

private theorem leads_code {digits : List UInt8} (hCode : IsCode c.toNat digits) :
    Leads Goes (after cs) taken (92 :: 117 :: digits) (after (c :: cs)) := by
  obtain ⟨hLength, hDigits⟩ := hCode
  have hSome : digits ≠ [] := List.ne_nil_of_length_pos (by omega)
  have hValid : c.toNat < 0xD800 ∨ 0xDFFF < c.toNat ∧ c.toNat < 0x110000 := c.valid
  have hLow : ¬(0xDC00 ≤ c.toNat ∧ c.toNat ≤ 0xDFFF) := by omega
  have hHigh : ¬(0xD800 ≤ c.toNat ∧ c.toNat ≤ 0xDBFF) := by omega
  refine .next (t := { after cs with phase := .escape }) rfl ?_
  refine .next (t := { after cs with phase := .group none (some 0) 4 }) rfl ?_
  rw [← hLength]
  apply leads_group hDigits hSome
  intro taken phase
  simp only [endGroup, hLow, hHigh, if_false, Char.ofNat_toNat]
  rfl

private theorem leads_surrogates {high low : Nat} {digits others : List UInt8}
    (hHigh : IsCode high digits) (hLow : IsCode low others) (hFirst : 0xD800 ≤ high ∧ high ≤ 0xDBFF)
    (hSecond : 0xDC00 ≤ low ∧ low ≤ 0xDFFF)
    (hChar : c.toNat = 0x10000 + (high - 0xD800) * 0x400 + (low - 0xDC00)) :
    Leads Goes (after cs) taken (92 :: 117 :: (digits ++ 92 :: 117 :: others)) (after (c :: cs)) := by
  obtain ⟨hLength, hDigits⟩ := hHigh
  obtain ⟨hOtherLength, hOthers⟩ := hLow
  have hApart : ¬(0xDC00 ≤ high ∧ high ≤ 0xDFFF) := by omega
  refine .next (t := { after cs with phase := .escape }) rfl ?_
  refine .next (t := { after cs with phase := .group none (some 0) 4 }) rfl ?_
  have hSurrogate : Leads Goes { after cs with phase := .group none (some 0) 4 } (taken + 1 + 1) digits
      { after cs with phase := .surrogate high } := by
    rw [← hLength]
    apply leads_group hDigits (List.ne_nil_of_length_pos (by omega))
    intro taken phase
    simp only [endGroup, hApart, hFirst, if_false, and_self, if_true]
  apply hSurrogate.append
  refine .next (t := { after cs with phase := .surrogateEscape high }) rfl ?_
  refine .next (t := { after cs with phase := .group (some high) (some 0) 4 }) rfl ?_
  rw [← hOtherLength]
  apply leads_group hOthers (List.ne_nil_of_length_pos (by omega))
  intro taken phase
  simp only [endGroup, hSecond, and_self, if_true, ← hChar, Char.ofNat_toNat]
  rfl

/-! ## Whole strings -/

/-- A character in a string, however it is written, is read as itself. -/
theorem leads_char {bytes : List UInt8} (h : SpellsChar c bytes) :
    Leads Goes (after cs) taken bytes (after (c :: cs)) := by
  cases h with
  | itself hQuote hBackslash hHigh => exact leads_itself hQuote hBackslash hHigh
  | letter hChar => exact leads_letter hChar
  | code hCode => exact leads_code hCode
  | surrogates hHigh hLow hFirst hSecond hChar => exact leads_surrogates hHigh hLow hFirst hSecond hChar

/-- **What spells a text is read as the text.** -/
theorem leads_spelled {ds : List Char} {bytes : List UInt8} (h : SpellsText ds bytes) (cs : List Char)
    (taken : Nat) : Leads Goes (after cs) taken bytes (after (ds.reverse ++ cs)) := by
  induction h generalizing cs taken with
  | nil => exact .done
  | @cons c ds bytes more hChar _ ih =>
      rw [List.reverse_cons, List.append_assoc]
      exact (leads_char hChar).append (ih (c :: cs) _)

end StringState

/-! ## Strings that were written -/

private theorem hexValue?_hexDigit {n : Nat} (h : n < 16) :
    encodeChar (hexDigit n) = [UInt8.ofNat (hexDigit n).toNat] ∧
      hexValue? (UInt8.ofNat (hexDigit n).toNat) = some n := by
  have hAll : ∀ n < 16, encodeChar (hexDigit n) = [UInt8.ofNat (hexDigit n).toNat] ∧
      hexValue? (UInt8.ofNat (hexDigit n).toNat) = some n := by decide
  exact hAll n h

theorem spells_escapeChar (c : Char) : SpellsChar c (encode (escapeChar c)) := by
  unfold escapeChar
  by_cases hQuote : c = '"'
  · subst hQuote
    exact .letter rfl
  by_cases hBackslash : c = '\\'
  · subst hBackslash
    exact .letter rfl
  by_cases hBack : c = '\x08'
  · subst hBack
    exact .letter rfl
  by_cases hFeed : c = '\x0c'
  · subst hFeed
    exact .letter rfl
  by_cases hLine : c = '\n'
  · subst hLine
    exact .letter rfl
  by_cases hReturn : c = '\r'
  · subst hReturn
    exact .letter rfl
  by_cases hTab : c = '\t'
  · subst hTab
    exact .letter rfl
  simp only [hQuote, hBackslash, hBack, hFeed, hLine, hReturn, hTab, if_false]
  by_cases hControl : c.toNat < 0x20
  · obtain ⟨hHighByte, hHigh⟩ := hexValue?_hexDigit (show c.toNat / 16 < 16 by omega)
    obtain ⟨hLowByte, hLow⟩ := hexValue?_hexDigit (show c.toNat % 16 < 16 by omega)
    have hZero : hexValue? 48 = some 0 := rfl
    have hDigits : hexFrom? 0 [48, 48, UInt8.ofNat (hexDigit (c.toNat / 16)).toNat,
        UInt8.ofNat (hexDigit (c.toNat % 16)).toNat] = some c.toNat := by
      simp only [hexFrom?, hZero, hHigh, hLow, Option.bind_some]
      congr 1
      omega
    rw [if_pos hControl]
    simp only [encode, List.flatMap_cons, List.flatMap_nil, hHighByte, hLowByte]
    exact .code ⟨rfl, hDigits⟩
  · rw [if_neg hControl]
    simp only [encode, List.flatMap_cons, List.flatMap_nil, List.append_nil]
    exact .itself hQuote hBackslash (by omega)

theorem spells_escaped (cs : List Char) : SpellsText cs (encode (cs.flatMap escapeChar)) := by
  induction cs with
  | nil => exact .nil
  | cons c rest ih =>
      rw [List.flatMap_cons, Text.Utf8.encode_append]
      exact .cons (spells_escapeChar c) ih

/-- **A string that was written spells itself.** -/
theorem spells_quote (s : String) : SpellsString s (encode (quote s)) := by
  refine ⟨encode (s.toList.flatMap escapeChar), ?_, spells_escaped s.toList⟩
  show 34 :: encode (s.toList.flatMap escapeChar ++ ['"']) = _
  rw [Text.Utf8.encode_append]
  rfl

end ControlClient.Json
