import ControlClient.Proofs.Text.Utf8

/-!
# UTF-8 writes what it reads

Bytes that are read as text are the bytes of that text: of the forms that a number could take, the reader
admits the shortest only. What is known of a character between two bytes is a number, to which each byte
adds six bits; so the bytes are recovered from the number in the end by division, and the bounds of the
first two bytes say how many there are.

## Main results

* `encodeChar_of_ends`, `encodeChar_of_finishes`: the bytes of a character that was read.
* `bytes_of_text?`, `encode_of_leading`: the bytes of a text that was read.
-/

namespace ControlClient.Text.Utf8

variable {value owed low high : Nat} {bytes : List UInt8} {b : UInt8} {c : Char} {u : Unfinished}

/-! ## One character -/

private theorem ofNat_toNat_byte (b : UInt8) {n : Nat} (h : b.toNat = n) : UInt8.ofNat n = b := by
  rw [← h]
  exact UInt8.ofNat_toNat

/-- A byte that is taken behind others is in the range that is wanted. -/
private theorem byte_of_next (h : (⟨value, owed, low, high⟩ : Unfinished).next b ≠ .refuses)
    (hLow : 0x80 ≤ low) (hHigh : high ≤ 0xBF) :
    ∃ n < 64, low ≤ 0x80 + n ∧ 0x80 + n ≤ high ∧ b = UInt8.ofNat (0x80 + n) := by
  by_cases hRange : low ≤ b.toNat ∧ b.toNat ≤ high
  · exact ⟨b.toNat - 0x80, by omega, by omega, by omega, (ofNat_toNat_byte b (by omega)).symm⟩
  · exact absurd (if_neg hRange) h

private theorem finishes_last (h : Finishes ⟨value, 0, low, high⟩ bytes c) (hLow : 0x80 ≤ low)
    (hHigh : high ≤ 0xBF) :
    ∃ n < 64, low ≤ 0x80 + n ∧ 0x80 + n ≤ high ∧ bytes = [UInt8.ofNat (0x80 + n)] ∧
      c = Char.ofNat (value * 64 + n) := by
  cases h with
  | last _ hStep =>
      obtain ⟨n, hn, hMin, hMax, rfl⟩ := byte_of_next (by rw [hStep]; simp) hLow hHigh
      rw [next_last hn hMin hMax] at hStep
      exact ⟨n, hn, hMin, hMax, rfl, (Step.ends.inj hStep).symm⟩
  | more _ hStep _ =>
      obtain ⟨n, hn, hMin, hMax, rfl⟩ := byte_of_next (by rw [hStep]; simp) hLow hHigh
      rw [next_last hn hMin hMax] at hStep
      cases hStep

private theorem finishes_more (h : Finishes ⟨value, owed + 1, low, high⟩ bytes c) (hLow : 0x80 ≤ low)
    (hHigh : high ≤ 0xBF) :
    ∃ n < 64, low ≤ 0x80 + n ∧ 0x80 + n ≤ high ∧ ∃ rest, bytes = UInt8.ofNat (0x80 + n) :: rest ∧
      Finishes ⟨value * 64 + n, owed, 0x80, 0xBF⟩ rest c := by
  cases h with
  | last _ hStep =>
      obtain ⟨n, hn, hMin, hMax, rfl⟩ := byte_of_next (by rw [hStep]; simp) hLow hHigh
      rw [next_more hn hMin hMax] at hStep
      cases hStep
  | more _ hStep hRest =>
      obtain ⟨n, hn, hMin, hMax, rfl⟩ := byte_of_next (by rw [hStep]; simp) hLow hHigh
      rw [next_more hn hMin hMax] at hStep
      rw [← Step.leaves.inj hStep] at hRest
      exact ⟨n, hn, hMin, hMax, _, rfl, hRest⟩

/-- How many bytes are owed after a first byte, and within which bounds the next one lies. -/
private theorem first_cases (h : first b = .leaves u) :
    (∃ m, 2 ≤ m ∧ m < 32 ∧ b = UInt8.ofNat (0xC0 + m) ∧ u = ⟨m, 0, 0x80, 0xBF⟩) ∨
      (∃ m < 16, b = UInt8.ofNat (0xE0 + m) ∧
        u = ⟨m, 1, if m = 0 then 0xA0 else 0x80, if m = 13 then 0x9F else 0xBF⟩) ∨
      ∃ m < 5, b = UInt8.ofNat (0xF0 + m) ∧
        u = ⟨m, 2, if m = 0 then 0x90 else 0x80, if m = 4 then 0x8F else 0xBF⟩ := by
  have hByte : ∀ n, b.toNat = n → b = UInt8.ofNat n := fun n hn => (ofNat_toNat_byte b hn).symm
  unfold first at h
  dsimp only at h
  split at h
  · cases h
  split at h
  · cases h
  split at h
  · exact .inl ⟨b.toNat - 0xC0, by omega, by omega, hByte _ (by omega), (Step.leaves.inj h).symm⟩
  split at h
  · exact .inr (.inl ⟨0, by omega, hByte _ (by omega), (Step.leaves.inj h).symm⟩)
  split at h
  · exact .inr (.inl ⟨13, by omega, hByte _ (by omega), (Step.leaves.inj h).symm⟩)
  split at h
  · refine .inr (.inl ⟨b.toNat - 0xE0, by omega, hByte _ (by omega), ?_⟩)
    rw [if_neg (by omega), if_neg (by omega)]
    exact (Step.leaves.inj h).symm
  split at h
  · exact .inr (.inr ⟨0, by omega, hByte _ (by omega), (Step.leaves.inj h).symm⟩)
  split at h
  · refine .inr (.inr ⟨b.toNat - 0xF0, by omega, hByte _ (by omega), ?_⟩)
    rw [if_neg (by omega), if_neg (by omega)]
    exact (Step.leaves.inj h).symm
  split at h
  · exact .inr (.inr ⟨4, by omega, hByte _ (by omega), (Step.leaves.inj h).symm⟩)
  · cases h

theorem toNat_ofNat_of_valid {n : Nat} (h : n < 0xD800 ∨ 0xDFFF < n ∧ n < 0x110000) :
    (Char.ofNat n).toNat = n := by
  have hValid : n.isValidChar := h
  rw [Char.ofNat, dif_pos hValid]
  rfl

/-- A byte that is a character is its number. -/
theorem toNat_of_ends (h : first b = .ends c) : b.toNat < 0x80 ∧ c.toNat = b.toNat := by
  have hLow : b.toNat < 0x80 := by
    apply Decidable.byContradiction
    intro hHigh
    simp only [first, if_neg hHigh] at h
    grind
  have hChar : first b = .ends (Char.ofNat b.toNat) := if_pos hLow
  rw [h] at hChar
  rw [Step.ends.inj hChar]
  exact ⟨hLow, toNat_ofNat_of_valid (by omega)⟩

/-- A byte that is a character is the only one of it. -/
theorem encodeChar_of_ends (h : first b = .ends c) : encodeChar c = [b] := by
  obtain ⟨hLow, hChar⟩ := toNat_of_ends h
  simp only [encodeChar, hChar, hLow, if_true]
  rw [UInt8.ofNat_toNat]

/-- **Several bytes that are a character are those of it.** -/
theorem encodeChar_of_finishes (hFirst : first b = .leaves u) (h : Finishes u bytes c) :
    encodeChar c = b :: bytes := by
  rcases first_cases hFirst with ⟨m, hMin, hMax, rfl, rfl⟩ | ⟨m, hm, rfl, rfl⟩ | ⟨m, hm, rfl, rfl⟩
  · obtain ⟨n, hn, -, -, rfl, rfl⟩ := finishes_last h (by omega) (by omega)
    have hNat : (Char.ofNat (m * 64 + n)).toNat = m * 64 + n := toNat_ofNat_of_valid (by omega)
    simp only [encodeChar, hNat]
    rw [if_neg (by omega), if_pos (by omega), show (m * 64 + n) / 64 = m by omega,
      show (m * 64 + n) % 64 = n by omega]
  · obtain ⟨n, hn, hLow, hHigh, rest, rfl, hRest⟩ :=
      finishes_more h (by split <;> omega) (by split <;> omega)
    obtain ⟨k, hk, -, -, rfl, rfl⟩ := finishes_last hRest (by omega) (by omega)
    have hShort : 0x800 ≤ (m * 64 + n) * 64 + k := by split at hLow <;> omega
    have hNat : (Char.ofNat ((m * 64 + n) * 64 + k)).toNat = (m * 64 + n) * 64 + k :=
      toNat_ofNat_of_valid (by split at hHigh <;> omega)
    simp only [encodeChar, hNat]
    rw [if_neg (by omega), if_neg (by omega), if_pos (by omega),
      show ((m * 64 + n) * 64 + k) / 4096 = m by omega,
      show ((m * 64 + n) * 64 + k) / 64 % 64 = n by omega,
      show ((m * 64 + n) * 64 + k) % 64 = k by omega]
  · obtain ⟨n, hn, hLow, hHigh, rest, rfl, hRest⟩ :=
      finishes_more h (by split <;> omega) (by split <;> omega)
    obtain ⟨k, hk, -, -, last, rfl, hLast⟩ := finishes_more hRest (by omega) (by omega)
    obtain ⟨j, hj, -, -, rfl, rfl⟩ := finishes_last hLast (by omega) (by omega)
    have hShort : 0x10000 ≤ ((m * 64 + n) * 64 + k) * 64 + j := by split at hLow <;> omega
    have hNat : (Char.ofNat (((m * 64 + n) * 64 + k) * 64 + j)).toNat =
        ((m * 64 + n) * 64 + k) * 64 + j := toNat_ofNat_of_valid (by split at hHigh <;> omega)
    simp only [encodeChar, hNat]
    rw [if_neg (by omega), if_neg (by omega), if_neg (by omega),
      show (((m * 64 + n) * 64 + k) * 64 + j) / 262144 = m by omega,
      show (((m * 64 + n) * 64 + k) * 64 + j) / 4096 % 64 = n by omega,
      show (((m * 64 + n) * 64 + k) * 64 + j) / 64 % 64 = k by omega,
      show (((m * 64 + n) * 64 + k) * 64 + j) % 64 = j by omega]

/-! ## Texts -/

/-- Bytes behind the first ones are high. -/
theorem high_of_next {s : Step} (h : u.next b = s) (hSome : s ≠ .refuses) (hLow : 0x80 ≤ u.low) :
    0x80 ≤ b.toNat := by
  subst h
  apply Decidable.byContradiction
  intro hByte
  exact hSome (if_neg fun hRange => hByte (Nat.le_trans hLow hRange.1))

theorem low_of_next {v : Unfinished} (h : u.next b = .leaves v) : 0x80 ≤ v.low := by
  unfold Unfinished.next at h
  dsimp only at h
  split at h
  · split at h
    · cases h
    · obtain rfl := Step.leaves.inj h
      exact Nat.le_refl _
  · cases h

theorem low_of_first (h : first b = .leaves u) : 0x80 ≤ u.low := by
  rcases first_cases h with ⟨m, -, -, -, rfl⟩ | ⟨m, -, -, rfl⟩ | ⟨m, -, -, rfl⟩
  · exact Nat.le_refl _
  · show 0x80 ≤ if m = 0 then 0xA0 else 0x80
    split <;> omega
  · show 0x80 ≤ if m = 0 then 0x90 else 0x80
    split <;> omega

/-- What the strict reader reads is written with the same bytes; an unfinished character is finished by
the first of those that follow. -/
private theorem encode_of_decodeFrom {cs : List Char} :
    (decodeFrom none bytes = some cs → encode cs = bytes) ∧
      ∀ u : Unfinished, 0x80 ≤ u.low → decodeFrom (some u) bytes = some cs →
        ∃ c others more rest, cs = c :: others ∧ bytes = more ++ rest ∧ Finishes u more c ∧
          encode others = rest := by
  induction bytes generalizing cs with
  | nil =>
      refine ⟨fun h => ?_, fun u _ h => ?_⟩
      · cases h
        rfl
      · cases h
  | cons b bytes ih =>
      constructor
      · intro h
        rw [decodeFrom, step] at h
        cases hStep : first b with
        | ends c =>
            rw [hStep] at h
            obtain ⟨others, hOthers, rfl⟩ := Option.map_eq_some_iff.1 h
            have hRest := ih.1 hOthers
            rw [encode] at hRest ⊢
            rw [List.flatMap_cons, encodeChar_of_ends hStep, hRest]
            rfl
        | leaves u =>
            rw [hStep] at h
            obtain ⟨c, others, more, rest, rfl, rfl, hFinishes, hRest⟩ := ih.2 u (low_of_first hStep) h
            rw [encode] at hRest ⊢
            rw [List.flatMap_cons, encodeChar_of_finishes hStep hFinishes, hRest]
            rfl
        | refuses =>
            rw [hStep] at h
            cases h
      · intro u hLow h
        rw [decodeFrom, step] at h
        cases hStep : u.next b with
        | ends c =>
            rw [hStep] at h
            obtain ⟨others, hOthers, rfl⟩ := Option.map_eq_some_iff.1 h
            have hHigh := high_of_next hStep (by simp) hLow
            exact ⟨c, others, [b], bytes, rfl, rfl, .last hHigh hStep, ih.1 hOthers⟩
        | leaves v =>
            rw [hStep] at h
            obtain ⟨c, others, more, rest, rfl, rfl, hFinishes, hRest⟩ := ih.2 v (low_of_next hStep) h
            have hHigh := high_of_next hStep (by simp) hLow
            exact ⟨c, others, b :: more, rest, rfl, rfl, .more hHigh hStep hFinishes, hRest⟩
        | refuses =>
            rw [hStep] at h
            cases h

theorem encode_of_decode? {cs : List Char} (h : decode? bytes = some cs) : encode cs = bytes :=
  encode_of_decodeFrom.1 h

/-- **Bytes that are a text are those of the text.** -/
theorem bytes_of_text? {s : String} (h : text? bytes = some s) : Text.Utf8.bytes s = bytes := by
  obtain ⟨cs, hDecode, rfl⟩ := Option.map_eq_some_iff.1 h
  rw [Text.Utf8.bytes, String.toList_ofList]
  exact encode_of_decode? hDecode

/-- Bytes of which no character is left over are read strictly. -/
private theorem decodeFrom_of_leadingFrom {cs : List Char} {before : Option Unfinished}
    {start : List UInt8} (hStart : before = none → start = bytes) (hSome : before ≠ none → start ≠ [])
    (h : leadingFrom start before bytes = (cs, [])) : decodeFrom before bytes = some cs := by
  induction bytes generalizing cs before start with
  | nil =>
      cases h
      cases before with
      | none => rfl
      | some u => exact absurd rfl (hSome (by simp))
  | cons b bytes ih =>
      have hFilled : start ≠ [] := by
        cases before with
        | none =>
            rw [hStart rfl]
            simp
        | some u => exact hSome (by simp)
      rw [leadingFrom] at h
      rw [decodeFrom]
      cases hStep : step before b with
      | ends c =>
          rw [hStep] at h
          cases hRest : leadingFrom bytes none bytes with
          | mk others left =>
              simp only [hRest, Prod.mk.injEq] at h
              obtain ⟨rfl, rfl⟩ := h
              simp only [ih (fun _ => rfl) (by simp) hRest, Option.map_some]
      | leaves u =>
          rw [hStep] at h
          exact ih (by simp) (fun _ => hFilled) h
      | refuses =>
          rw [hStep] at h
          exact absurd (congrArg Prod.snd h) hFilled

/-- **Bytes of which no character is left over are those of the characters at their start.** -/
theorem encode_of_leading {cs : List Char} (h : leading bytes = (cs, [])) : encode cs = bytes :=
  encode_of_decode? (decodeFrom_of_leadingFrom (fun _ => rfl) (by simp) h)

end ControlClient.Text.Utf8
