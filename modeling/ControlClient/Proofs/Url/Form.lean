import ControlClient.Proofs.Text.Split
import ControlClient.Proofs.Text.Utf8
import ControlClient.Proofs.Url.Percent
import ControlClient.Url.Basic

/-!
# Pairs of a query read back

Pairs that are put at the end of a query are found there again, whatever stands in front of them. The
characters of an encoded side are the plain ones, the plus sign, the percent sign and hexadecimal
digits; neither separator is among them, so a query is cut where it was put together.

## Main results

* `decodeSide_encodeSide`: a key or a value reads back.
* `decode_appendAll`: pairs at the end of a query read back.
-/

namespace ControlClient.Url

open Text (splitAll splitAll_of_not_mem splitAll_append_piece)

/-! ## Percent codes -/

theorem percentDecode_cons {c : Char} (h : c ≠ '%') (rest : List Char) :
    percentDecode (c :: rest) = Text.Utf8.encodeChar c ++ percentDecode rest := by
  rw [percentDecode]
  rintro _ _ _ ⟨rfl, -⟩
  exact absurd rfl h

private theorem hexDigitValue?_upperHexDigit {n : Nat} (h : n < 16) :
    hexDigitValue? (upperHexDigit n) = some n := by
  have hAll : ∀ n < 16, hexDigitValue? (upperHexDigit n) = some n := by decide
  exact hAll n h

theorem percentDecode_percentByte (byte : UInt8) (rest : List Char) :
    percentDecode (percentByte byte ++ rest) = byte :: percentDecode rest := by
  have hByte : byte.toNat < 256 := byte.toNat_lt
  have hPair : hexPair? (upperHexDigit (byte.toNat / 16)) (upperHexDigit (byte.toNat % 16)) =
      some byte := by
    have hSame : byte.toNat / 16 * 16 + byte.toNat % 16 = byte.toNat := by omega
    rw [hexPair?, hexDigitValue?_upperHexDigit (by omega), hexDigitValue?_upperHexDigit (by omega)]
    show some (UInt8.ofNat (byte.toNat / 16 * 16 + byte.toNat % 16)) = _
    rw [hSame, UInt8.ofNat_toNat]
  show percentDecode ('%' :: _ :: _ :: rest) = _
  rw [percentDecode, hPair]

theorem percentDecode_percentBytes (bytes : List UInt8) (rest : List Char) :
    percentDecode (bytes.flatMap percentByte ++ rest) = bytes ++ percentDecode rest := by
  induction bytes with
  | nil => rfl
  | cons byte more ih =>
      rw [List.flatMap_cons, List.append_assoc, percentDecode_percentByte, ih]
      rfl

namespace Form

/-! ## One side of a pair -/

/-- The characters of an encoded side. -/
def isEncoded (c : Char) : Bool := isPlain c || c == '+' || c == '%'

theorem isEncoded_of_mem_percentChar {c d : Char} (h : d ∈ percentChar c) :
    isEncoded d = true ∧ d ≠ '+' := by
  obtain ⟨byte, -, hCode⟩ := List.mem_flatMap.1 h
  have hByte : byte.toNat < 256 := byte.toNat_lt
  have hDigit : ∀ n < 16, isEncoded (upperHexDigit n) = true ∧ upperHexDigit n ≠ '+' := by decide
  simp only [percentByte, List.mem_cons, List.not_mem_nil, or_false] at hCode
  rcases hCode with rfl | rfl | rfl
  · decide
  · exact hDigit _ (by omega)
  · exact hDigit _ (by omega)

theorem isEncoded_of_mem_encodeSide {s : String} {d : Char} (h : d ∈ encodeSide s) :
    isEncoded d = true := by
  obtain ⟨c, -, hChar⟩ := List.mem_flatMap.1 h
  unfold encodeChar at hChar
  by_cases hPlain : isPlain c = true
  · rw [if_pos hPlain] at hChar
    rw [List.mem_singleton.1 hChar, isEncoded, hPlain]
    rfl
  · rw [if_neg hPlain] at hChar
    by_cases hSpace : c = ' '
    · rw [if_pos hSpace] at hChar
      rw [List.mem_singleton.1 hChar]
      decide
    · rw [if_neg hSpace] at hChar
      exact (isEncoded_of_mem_percentChar hChar).1

/-- Neither separator stands in an encoded side. -/
theorem not_mem_encodeSide (s : String) : '&' ∉ encodeSide s ∧ '=' ∉ encodeSide s := by
  constructor
  · intro h
    exact absurd (isEncoded_of_mem_encodeSide h) (by decide)
  · intro h
    exact absurd (isEncoded_of_mem_encodeSide h) (by decide)

private theorem percentDecode_encodeChar (c : Char) (rest : List Char) :
    percentDecode ((encodeChar c).map (fun c => if c = '+' then ' ' else c) ++ rest) =
      Text.Utf8.encodeChar c ++ percentDecode rest := by
  unfold encodeChar
  by_cases hPlain : isPlain c = true
  · have hPlus : c ≠ '+' := by
      rintro rfl
      exact absurd hPlain (by decide)
    have hPercent : c ≠ '%' := by
      rintro rfl
      exact absurd hPlain (by decide)
    rw [if_pos hPlain, List.map_singleton, if_neg hPlus]
    exact percentDecode_cons hPercent rest
  · rw [if_neg hPlain]
    by_cases hSpace : c = ' '
    · rw [if_pos hSpace, hSpace]
      exact percentDecode_cons (by decide) rest
    · have hSame : (percentChar c).map (fun c => if c = '+' then ' ' else c) = percentChar c := by
        apply (List.map_congr_left _).trans (List.map_id (percentChar c))
        intro d hd
        exact if_neg (isEncoded_of_mem_percentChar hd).2
      rw [if_neg hSpace, hSame]
      exact percentDecode_percentBytes _ rest

/-- **A key or a value reads back.** -/
theorem decodeSide_encodeSide (s : String) : decodeSide (encodeSide s) = s := by
  have hBytes : ∀ cs : List Char, percentDecode ((cs.flatMap encodeChar).map
      (fun c => if c = '+' then ' ' else c)) = Text.Utf8.encode cs := by
    intro cs
    induction cs with
    | nil => rw [List.flatMap_nil, List.map_nil, percentDecode]; rfl
    | cons c rest ih =>
        rw [List.flatMap_cons, List.map_append, percentDecode_encodeChar, ih]
        rfl
  rw [decodeSide, encodeSide, hBytes, Text.Utf8.lossyText, Text.Utf8.decodeLossy_encode,
    String.ofList_toList]

/-! ## Pairs -/

theorem decodePair_encodePair (pair : String × String) : decodePair (encodePair pair) = pair := by
  have hKey : ∀ c ∈ encodeSide pair.1, (c != '=') = true := by
    intro c hc
    rw [bne_iff_ne]
    rintro rfl
    exact (not_mem_encodeSide pair.1).2 hc
  rw [decodePair, encodePair, List.takeWhile_append_of_pos hKey, List.dropWhile_append_of_pos hKey]
  simp [decodeSide_encodeSide]

private theorem encodePair_spec (pair : String × String) :
    '&' ∉ encodePair pair ∧ (encodePair pair).isEmpty = false := by
  constructor
  · rw [encodePair, List.mem_append, List.mem_cons, not_or, not_or]
    exact ⟨(not_mem_encodeSide _).1, by decide, (not_mem_encodeSide _).1⟩
  · simp [encodePair]

/-- A pair at the end of a query is read behind the others. -/
theorem decode_append (query : List Char) (pair : String × String) :
    decode (append query pair) = decode query ++ [pair] := by
  obtain ⟨hInside, hFilled⟩ := encodePair_spec pair
  unfold append decode
  cases query with
  | nil => simp [splitAll, splitAll_of_not_mem hInside, hFilled, decodePair_encodePair]
  | cons c rest =>
      rw [if_neg (by simp), splitAll_append_piece hInside, List.filter_append, List.map_append]
      simp [hFilled, decodePair_encodePair]

/-- **Pairs at the end of a query read back**, in order, behind those that stand in front of them. -/
theorem decode_appendAll (query : List Char) (pairs : List (String × String)) :
    decode (appendAll query pairs) = decode query ++ pairs := by
  unfold appendAll
  induction pairs generalizing query with
  | nil => simp
  | cons pair rest ih =>
      rw [List.foldl_cons, ih, decode_append]
      simp

end Form

/-- The pairs of a URL are those that it had and those that were put at its end. -/
theorem pairs_appendPairs (u : Url) (pairs : List (String × String)) :
    (u.appendPairs pairs).pairs = u.pairs ++ pairs := by
  unfold appendPairs
  cases pairs with
  | nil => simp
  | cons pair rest =>
      have hQuery : Form.decode (u.query?.getD "").toList = u.pairs := by
        unfold Url.pairs
        cases u.query? with
        | none => rfl
        | some query => rfl
      show Form.decode (String.ofList _).toList = _
      rw [String.toList_ofList, Form.decode_appendAll, hQuery]

end ControlClient.Url
