import ControlClient.Text.Ranges

/-!
# Blank characters

The characters with the Unicode property `White_Space`, and what trimming means: dropping them at
one end or at both. The property has twenty-five members; the zero-width characters U+200B and
U+FEFF are not among them.

## Main results

* `trimEnd_append_blank`: blanks at the end of a text do not change what is left of it.
* `trim_eq_self`: a text that neither starts nor ends with a blank is kept whole.
-/

namespace ControlClient.Text

/-- The code points with the property `White_Space`, as closed ranges in increasing order. -/
def blankRanges : Ranges :=
  [(0x09, 0x0D), (0x20, 0x20), (0x85, 0x85), (0xA0, 0xA0), (0x1680, 0x1680), (0x2000, 0x200A),
    (0x2028, 0x2029), (0x202F, 0x202F), (0x205F, 0x205F), (0x3000, 0x3000)]

/-- Whether a character is blank: a member of `blankRanges`. -/
def isBlank (c : Char) : Bool := blankRanges.contains c

/-! ## Trimming -/

/-- Drop the blanks at the start. -/
def trimStart (cs : List Char) : List Char := cs.dropWhile isBlank

/-- Drop the blanks at the end. -/
def trimEnd (cs : List Char) : List Char := (cs.reverse.dropWhile isBlank).reverse

/-- Drop the blanks at both ends. -/
def trim (cs : List Char) : List Char := trimEnd (trimStart cs)

theorem trimEnd_append_blank {cs : List Char} {c : Char} (hc : isBlank c = true) :
    trimEnd (cs ++ [c]) = trimEnd cs := by
  simp [trimEnd, hc]

theorem trimEnd_append_inked {cs : List Char} {c : Char} (hc : isBlank c = false) :
    trimEnd (cs ++ [c]) = cs ++ [c] := by
  simp [trimEnd, hc]

theorem trimStart_cons_inked {cs : List Char} {c : Char} (hc : isBlank c = false) :
    trimStart (c :: cs) = c :: cs := by
  simp [trimStart, hc]

/-- A text whose first and last characters are not blank is its own trimmed form. -/
theorem trim_eq_self {cs : List Char} (hFirst : ∀ c ∈ cs.head?, isBlank c = false)
    (hLast : ∀ c ∈ cs.getLast?, isBlank c = false) : trim cs = cs := by
  cases cs with
  | nil => rfl
  | cons c rest =>
      have hc : isBlank c = false := hFirst c (by simp)
      rw [trim, trimStart_cons_inked hc]
      rcases List.eq_nil_or_concat (c :: rest) with hNil | ⟨front, last, hEq⟩
      · simp at hNil
      · rw [List.concat_eq_append] at hEq
        rw [hEq]
        refine trimEnd_append_inked (hLast last ?_)
        rw [hEq]
        simp

end ControlClient.Text
