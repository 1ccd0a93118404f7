import ControlClient.Url.Percent

/-!
# Percent codes

A component of a URL is written with the characters that may stand in it and with percent codes, whose
own characters may stand in every component. Writing it a second time therefore changes nothing: no
percent sign is written as a code.

## Main results

* `mem_percentEncode`: what is written stood there or belongs to a code.
* `allowed_of_mem_percentEncode`: what is written may stand.
* `percentEncode_of_forall`: what may stand is written as it is.
-/

namespace ControlClient.Url

/-- The characters of percent codes may stand. -/
structure AllowsCodes (allowed : Char → Bool) : Prop where
  sign : allowed '%' = true
  digit : ∀ n < 16, allowed (upperHexDigit n) = true

theorem allowsCodes_path : AllowsCodes allowedInPath := ⟨by decide, by decide⟩

theorem allowsCodes_credentials : AllowsCodes allowedInCredentials := ⟨by decide, by decide⟩

theorem allowsCodes_specialQuery : AllowsCodes allowedInSpecialQuery := ⟨by decide, by decide⟩

theorem allowsCodes_fragment : AllowsCodes allowedInFragment := ⟨by decide, by decide⟩

/-- What is written for a component stood in it or belongs to a percent code. -/
theorem mem_percentEncode {allowed : Char → Bool} {cs : List Char} {c : Char}
    (h : c ∈ percentEncode allowed cs) :
    (c ∈ cs ∧ allowed c = true) ∨ c = '%' ∨ ∃ n < 16, c = upperHexDigit n := by
  obtain ⟨d, hd, hIn⟩ := List.mem_flatMap.1 h
  by_cases hAllowed : allowed d = true
  · rw [if_pos hAllowed, List.mem_singleton] at hIn
    rw [hIn]
    exact .inl ⟨hd, hAllowed⟩
  · rw [if_neg hAllowed] at hIn
    obtain ⟨byte, -, hCode⟩ := List.mem_flatMap.1 hIn
    have hByte : byte.toNat < 256 := byte.toNat_lt
    simp only [percentByte, List.mem_cons, List.not_mem_nil, or_false] at hCode
    rcases hCode with rfl | rfl | rfl
    · exact .inr (.inl rfl)
    · exact .inr (.inr ⟨_, by omega, rfl⟩)
    · exact .inr (.inr ⟨_, by omega, rfl⟩)

/-- What is written for a component may stand in it. -/
theorem allowed_of_mem_percentEncode {allowed : Char → Bool} (h : AllowsCodes allowed)
    {cs : List Char} {c : Char} (hc : c ∈ percentEncode allowed cs) : allowed c = true := by
  rcases mem_percentEncode hc with ⟨-, hAllowed⟩ | rfl | ⟨n, hn, rfl⟩
  · exact hAllowed
  · exact h.sign
  · exact h.digit n hn

/-- A sign that belongs to no percent code is written only where it stood and may stand. -/
theorem not_mem_percentEncode {allowed : Char → Bool} {cs : List Char} {sign : Char}
    (hPercent : sign ≠ '%') (hDigit : ∀ n < 16, sign ≠ upperHexDigit n)
    (h : sign ∉ cs ∨ allowed sign = false) : sign ∉ percentEncode allowed cs := by
  intro hIn
  rcases mem_percentEncode hIn with ⟨hStood, hAllowed⟩ | hEq | ⟨n, hn, hEq⟩
  · rcases h with hAbsent | hForbidden
    · exact hAbsent hStood
    · rw [hAllowed] at hForbidden
      cases hForbidden
  · exact hPercent hEq
  · exact hDigit n hn hEq

/-- What may stand in a component is written as it is. -/
theorem percentEncode_of_forall {allowed : Char → Bool} {cs : List Char}
    (h : ∀ c ∈ cs, allowed c = true) : percentEncode allowed cs = cs := by
  induction cs with
  | nil => rfl
  | cons c rest ih =>
      have hHead : percentEncode allowed (c :: rest) =
          (if allowed c then [c] else percentChar c) ++ percentEncode allowed rest := rfl
      rw [hHead, if_pos (h c (by simp)), ih fun d hd => h d (List.mem_cons_of_mem _ hd)]
      rfl

/-- A text without percent signs is decoded to its own bytes. -/
theorem percentDecode_of_not_mem {cs : List Char} (h : '%' ∉ cs) :
    percentDecode cs = Text.Utf8.encode cs := by
  induction cs with
  | nil => rw [percentDecode]; rfl
  | cons c rest ih =>
      rw [List.mem_cons, not_or] at h
      have hStep : percentDecode (c :: rest) = Text.Utf8.encodeChar c ++ percentDecode rest := by
        rw [percentDecode]
        rintro _ _ _ ⟨rfl, -⟩
        exact absurd rfl h.1
      rw [hStep, ih h.2]
      rfl

/-! ## Visible characters -/

/-- Visible ASCII characters. -/
def isVisible (c : Char) : Bool := 0x20 < c.toNat && c.toNat < 0x7F

private theorem isVisible_of_printable {c : Char} (h : isPrintableAscii c = true) (hSpace : c ≠ ' ') :
    isVisible c = true := by
  simp only [isPrintableAscii, isVisible, Bool.and_eq_true, decide_eq_true_eq] at h ⊢
  have hCode : c.toNat ≠ 0x20 := fun hEq => hSpace (Char.ext (UInt32.toNat_inj.1 hEq))
  omega

theorem isVisible_of_fragment {c : Char} (h : allowedInFragment c = true) : isVisible c = true := by
  rw [allowedInFragment, Bool.and_eq_true] at h
  refine isVisible_of_printable h.1 ?_
  rintro rfl
  exact absurd h.2 (by decide)

theorem isVisible_of_path {c : Char} (h : allowedInPath c = true) : isVisible c = true := by
  rw [allowedInPath, Bool.and_eq_true] at h
  exact isVisible_of_fragment h.1

theorem isVisible_of_credentials {c : Char} (h : allowedInCredentials c = true) :
    isVisible c = true := by
  rw [allowedInCredentials, Bool.and_eq_true] at h
  exact isVisible_of_path h.1

theorem isVisible_of_specialQuery {c : Char} (h : allowedInSpecialQuery c = true) :
    isVisible c = true := by
  rw [allowedInSpecialQuery, allowedInQuery, Bool.and_eq_true, Bool.and_eq_true] at h
  refine isVisible_of_printable h.1.1 ?_
  rintro rfl
  exact absurd h.1.2 (by decide)

end ControlClient.Url
