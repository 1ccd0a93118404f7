import ControlClient.Text.Utf8

/-!
# UTF-8 reads back what it writes

The bytes of a character, given to the reader one by one, end in that character. The fact is stated
about the single steps, not about a whole text, because every reader of the library that meets UTF-8
takes the same steps: the strict one, the lossy one, and the one inside a JSON string.

## Main results

* `encodeChar_cases`: a character is one byte below 128, or several bytes from 128 on that finish it.
* `decode?_encode`, `decodeLossy_encode`: a text reads back.
-/

namespace ControlClient.Text.Utf8

/-! ## ASCII -/

/-- What holds of all ASCII characters can be checked for one after the other. -/
theorem forall_ascii {P : Char → Prop} (h : ∀ n < 0x80, P (Char.ofNat n)) {c : Char}
    (hAscii : c.toNat < 0x80) : P c := by
  have hOne := h c.toNat hAscii
  rwa [Char.ofNat_toNat] at hOne

theorem toNat_lt_of_isDigit {c : Char} (h : c.isDigit = true) : c.toNat < 0x80 := by
  have hHigh : c.toNat ≤ 57 := (Char.isDigit_iff_toNat.1 h).2
  omega

/-! ## One character -/

/-- Bytes that finish a character. -/
inductive Finishes : Unfinished → List UInt8 → Char → Prop where
  /-- The last byte. -/
  | last {u : Unfinished} {b : UInt8} {c : Char} (hHigh : 0x80 ≤ b.toNat)
      (hStep : u.next b = .ends c) : Finishes u [b] c
  /-- A byte with others to come. -/
  | more {u v : Unfinished} {b : UInt8} {bytes : List UInt8} {c : Char} (hHigh : 0x80 ≤ b.toNat)
      (hStep : u.next b = .leaves v) (hRest : Finishes v bytes c) : Finishes u (b :: bytes) c

/-- Whether the bytes of a character are one plain byte or a sequence. -/
inductive Encoded (c : Char) : List UInt8 → Prop where
  | plain {b : UInt8} (hLow : b.toNat < 0x80) (hChar : c.toNat = b.toNat)
      (hStep : first b = .ends c) : Encoded c [b]
  | sequence {u : Unfinished} {b : UInt8} {bytes : List UInt8} (hHigh : 0x80 ≤ b.toNat)
      (hStep : first b = .leaves u) (hRest : Finishes u bytes c) : Encoded c (b :: bytes)

private theorem toNat_byte {n : Nat} (h : n < 256) : (UInt8.ofNat n).toNat = n := by
  rw [UInt8.toNat_ofNat']
  exact Nat.mod_eq_of_lt h

section Next

variable {value owed low high n : Nat} (hn : n < 64) (hLow : low ≤ 0x80 + n) (hHigh : 0x80 + n ≤ high)
include hn hLow hHigh

/-- A byte in the range that is wanted ends a character if none is owed after it. -/
theorem next_last :
    (⟨value, 0, low, high⟩ : Unfinished).next (UInt8.ofNat (0x80 + n)) =
      .ends (Char.ofNat (value * 64 + n)) := by
  have hByte : (UInt8.ofNat (0x80 + n)).toNat = 0x80 + n := toNat_byte (by omega)
  simp only [Unfinished.next, hByte, hLow, hHigh, and_self, if_true, Nat.add_sub_cancel_left]

/-- A byte in the range that is wanted leaves a character unfinished if others are owed after it. -/
theorem next_more :
    (⟨value, owed + 1, low, high⟩ : Unfinished).next (UInt8.ofNat (0x80 + n)) =
      .leaves ⟨value * 64 + n, owed, 0x80, 0xBF⟩ := by
  have hByte : (UInt8.ofNat (0x80 + n)).toNat = 0x80 + n := toNat_byte (by omega)
  simp only [Unfinished.next, hByte, hLow, hHigh, and_self, if_true, Nat.add_sub_cancel_left]

/-- One byte that ends a character after `value`. -/
private theorem finishes_one {c : Char} (hc : value * 64 + n = c.toNat) :
    Finishes ⟨value, 0, low, high⟩ [UInt8.ofNat (0x80 + n)] c :=
  .last (by rw [toNat_byte (by omega)]; omega)
    (by rw [next_last hn hLow hHigh, hc, Char.ofNat_toNat])

end Next

/-- Two bytes that end a character after `value`. -/
private theorem finishes_two {value low high n m : Nat} {c : Char} (hn : n < 64) (hm : m < 64)
    (hLow : low ≤ 0x80 + n) (hHigh : 0x80 + n ≤ high) (hc : (value * 64 + n) * 64 + m = c.toNat) :
    Finishes ⟨value, 1, low, high⟩ [UInt8.ofNat (0x80 + n), UInt8.ofNat (0x80 + m)] c :=
  .more (by rw [toNat_byte (by omega)]; omega) (next_more hn hLow hHigh)
    (finishes_one hm (by omega) (by omega) hc)

/-- Three bytes that end a character after `value`. -/
private theorem finishes_three {value low high n m k : Nat} {c : Char} (hn : n < 64) (hm : m < 64)
    (hk : k < 64) (hLow : low ≤ 0x80 + n) (hHigh : 0x80 + n ≤ high)
    (hc : ((value * 64 + n) * 64 + m) * 64 + k = c.toNat) :
    Finishes ⟨value, 2, low, high⟩
      [UInt8.ofNat (0x80 + n), UInt8.ofNat (0x80 + m), UInt8.ofNat (0x80 + k)] c :=
  .more (by rw [toNat_byte (by omega)]; omega) (next_more hn hLow hHigh)
    (finishes_two hm hk (by omega) (by omega) hc)

private theorem encoded_two {c : Char} (hLow : 0x80 ≤ c.toNat) (hHigh : c.toNat < 0x800) :
    Encoded c [UInt8.ofNat (0xC0 + c.toNat / 64), UInt8.ofNat (0x80 + c.toNat % 64)] := by
  have hByte := toNat_byte (show 0xC0 + c.toNat / 64 < 256 by omega)
  have hFirst : first (UInt8.ofNat (0xC0 + c.toNat / 64)) =
      .leaves ⟨c.toNat / 64, 0, 0x80, 0xBF⟩ := by
    simp only [first, hByte]
    grind
  exact .sequence (by omega) hFirst (finishes_one (by omega) (by omega) (by omega) (by omega))

/-- After `E0` overlong forms are ruled out, after `ED` surrogates. -/
private theorem encoded_three {c : Char} (hLow : 0x800 ≤ c.toNat) (hHigh : c.toNat < 0x10000)
    (hValid : c.toNat < 0xD800 ∨ 0xDFFF < c.toNat) :
    Encoded c [UInt8.ofNat (0xE0 + c.toNat / 4096), UInt8.ofNat (0x80 + c.toNat / 64 % 64),
      UInt8.ofNat (0x80 + c.toNat % 64)] := by
  have hByte := toNat_byte (show 0xE0 + c.toNat / 4096 < 256 by omega)
  have hFirst : first (UInt8.ofNat (0xE0 + c.toNat / 4096)) =
      .leaves ⟨c.toNat / 4096, 1, if c.toNat / 4096 = 0 then 0xA0 else 0x80,
        if c.toNat / 4096 = 13 then 0x9F else 0xBF⟩ := by
    simp only [first, hByte]
    grind
  exact .sequence (by omega) hFirst
    (finishes_two (by omega) (by omega) (by split <;> omega) (by split <;> omega) (by omega))

/-- After `F0` overlong forms are ruled out, after `F4` code points beyond U+10FFFF. -/
private theorem encoded_four {c : Char} (hLow : 0x10000 ≤ c.toNat) (hHigh : c.toNat < 0x110000) :
    Encoded c [UInt8.ofNat (0xF0 + c.toNat / 262144), UInt8.ofNat (0x80 + c.toNat / 4096 % 64),
      UInt8.ofNat (0x80 + c.toNat / 64 % 64), UInt8.ofNat (0x80 + c.toNat % 64)] := by
  have hByte := toNat_byte (show 0xF0 + c.toNat / 262144 < 256 by omega)
  have hFirst : first (UInt8.ofNat (0xF0 + c.toNat / 262144)) =
      .leaves ⟨c.toNat / 262144, 2, if c.toNat / 262144 = 0 then 0x90 else 0x80,
        if c.toNat / 262144 = 4 then 0x8F else 0xBF⟩ := by
    simp only [first, hByte]
    grind
  exact .sequence (by omega) hFirst
    (finishes_three (by omega) (by omega) (by omega) (by split <;> omega) (by split <;> omega)
      (by omega))

/-- The bytes of a character, step by step. -/
theorem encodeChar_cases (c : Char) : Encoded c (encodeChar c) := by
  have hValid : c.toNat < 0xD800 ∨ 0xDFFF < c.toNat ∧ c.toNat < 0x110000 := c.valid
  unfold encodeChar
  dsimp only
  split
  · next hOne =>
      have hByte := toNat_byte (show c.toNat < 256 by omega)
      refine .plain (by omega) hByte.symm ?_
      simp only [first, hByte, hOne, if_true, Char.ofNat_toNat]
  split
  · exact encoded_two (by omega) (by omega)
  split
  · exact encoded_three (by omega) (by omega) (by omega)
  · exact encoded_four (by omega) (by omega)

/-! ## Texts -/

theorem encode_append (cs ds : List Char) : encode (cs ++ ds) = encode cs ++ encode ds :=
  List.flatMap_append

private theorem decodeFrom_finishes {u : Unfinished} {bytes : List UInt8} {c : Char}
    (h : Finishes u bytes c) (rest : List UInt8) :
    decodeFrom (some u) (bytes ++ rest) = (decodeFrom none rest).map (c :: ·) := by
  induction h with
  | last _ hStep => simp [decodeFrom, step, hStep]
  | more _ hStep _ ih => simpa [decodeFrom, step, hStep] using ih

/-- The strict reader takes the bytes of a character for that character. -/
theorem decodeFrom_encodeChar (c : Char) (rest : List UInt8) :
    decodeFrom none (encodeChar c ++ rest) = (decodeFrom none rest).map (c :: ·) := by
  have hEncoded := encodeChar_cases c
  generalize encodeChar c = bytes at hEncoded ⊢
  cases hEncoded with
  | plain _ _ hStep => simp [decodeFrom, step, hStep]
  | sequence _ hStep hRest =>
      simpa [decodeFrom, step, hStep] using decodeFrom_finishes hRest rest

/-- **A text reads back.** -/
theorem decode?_encode (cs : List Char) : decode? (encode cs) = some cs := by
  unfold decode?
  induction cs with
  | nil => rfl
  | cons c cs ih =>
      rw [encode, List.flatMap_cons, decodeFrom_encodeChar]
      rw [encode] at ih
      rw [ih, Option.map_some]

/-- The bytes of a text are that text. -/
theorem text?_bytes (s : String) : text? (bytes s) = some s := by
  rw [text?, bytes, decode?_encode, Option.map_some, String.ofList_toList]

private theorem decodeLossyFrom_finishes {u : Unfinished} {bytes : List UInt8} {c : Char}
    (h : Finishes u bytes c) (rest : List UInt8) :
    decodeLossyFrom (some u) (bytes ++ rest) = c :: decodeLossyFrom none rest := by
  induction h with
  | last _ hStep => simp [decodeLossyFrom, step, hStep]
  | more _ hStep _ ih => simpa [decodeLossyFrom, step, hStep] using ih

/-- **A text reads back** also where bytes that are not UTF-8 would be replaced. -/
theorem decodeLossy_encode (cs : List Char) : decodeLossy (encode cs) = cs := by
  unfold decodeLossy
  induction cs with
  | nil => rfl
  | cons c cs ih =>
      rw [encode] at ih ⊢
      rw [List.flatMap_cons]
      have hEncoded := encodeChar_cases c
      generalize encodeChar c = bytes at hEncoded ⊢
      cases hEncoded with
      | plain _ _ hStep => simp [decodeLossyFrom, step, hStep, ih]
      | sequence _ hStep hRest =>
          have hFinish := decodeLossyFrom_finishes hRest (cs.flatMap encodeChar)
          simpa [decodeLossyFrom, step, hStep, ih] using hFinish

private theorem leadingFrom_finishes {u : Unfinished} {bytes : List UInt8} {c : Char}
    (h : Finishes u bytes c) (start rest : List UInt8) :
    leadingFrom start (some u) (bytes ++ rest) = (c :: (leading rest).1, (leading rest).2) := by
  induction h with
  | last _ hStep => simp [leadingFrom, leading, step, hStep]
  | more _ hStep _ ih => simpa [leadingFrom, step, hStep] using ih

/-- **A text stands at the start of its bytes**, and nothing is left of them. -/
theorem leading_encode (cs : List Char) : leading (encode cs) = (cs, []) := by
  induction cs with
  | nil => rfl
  | cons c cs ih =>
      rw [encode] at ih ⊢
      rw [List.flatMap_cons]
      have hEncoded := encodeChar_cases c
      generalize encodeChar c = bytes at hEncoded ⊢
      cases hEncoded with
      | plain _ _ hStep =>
          rw [leading] at ih ⊢
          simp [leadingFrom, step, hStep, ih]
      | sequence _ hStep hRest =>
          have hFinish := leadingFrom_finishes hRest
          rw [leading]
          simp [leadingFrom, step, hStep, hFinish, ih]

/-- A plain byte at the start of a text is its first character. -/
theorem toNat_of_head?_encode {c : Char} {cs : List Char} {b : UInt8}
    (hHead : (encode (c :: cs)).head? = some b) (hPlain : b.toNat < 0x80) : c.toNat = b.toNat := by
  rw [encode, List.flatMap_cons] at hHead
  have hEncoded := encodeChar_cases c
  generalize encodeChar c = bytes at hEncoded hHead
  cases hEncoded with
  | plain _ hChar _ =>
      cases hHead
      exact hChar
  | sequence hHigh _ _ =>
      cases hHead
      omega

end ControlClient.Text.Utf8
