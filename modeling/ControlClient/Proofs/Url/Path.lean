import ControlClient.Proofs.Text.Split
import ControlClient.Proofs.Text.Utf8
import ControlClient.Proofs.Url.Percent
import ControlClient.Url.Read

/-!
# Paths read back

The segments of a path that was read stand for themselves: none of them is a dot segment, and encoding a
segment makes no dot segment of it, because the only percent code that counts as a dot is the one of the
dot, which may stand uncoded. So a path that was read is walked along without a turn, and so is one with
more such segments behind it.

## Main results

* `isSettledSegment_of_pathOf`: what is read of a path is settled.
* `pathOf_written`: settled segments are read as they stand.
-/

namespace ControlClient.Url

open Text (joinWith splitAll)

/-- A segment of a path in its final form. -/
structure IsSettledSegment (segment : List Char) : Prop where
  allowed : ∀ c ∈ segment, allowedInPath c = true
  slash : '/' ∉ segment
  backslash : '\\' ∉ segment
  singleDot : isSingleDot segment = false
  doubleDot : isDoubleDot segment = false

instance : DecidablePred IsSettledSegment := fun segment =>
  decidable_of_iff (segment.all (fun c => allowedInPath c && c != '/' && c != '\\') = true ∧
      isSingleDot segment = false ∧ isDoubleDot segment = false) <| by
    simp only [List.all_eq_true, Bool.and_eq_true, bne_iff_ne]
    constructor
    · rintro ⟨hAll, hSingle, hDouble⟩
      exact ⟨fun c hc => (hAll c hc).1.1, fun hIn => (hAll _ hIn).1.2 rfl,
        fun hIn => (hAll _ hIn).2 rfl, hSingle, hDouble⟩
    · rintro ⟨hAllowed, hSlash, hBackslash, hSingle, hDouble⟩
      exact ⟨fun c hc => ⟨⟨hAllowed c hc, fun hEq => hSlash (hEq ▸ hc)⟩,
        fun hEq => hBackslash (hEq ▸ hc)⟩, hSingle, hDouble⟩

/-! ## Walking -/

/-- Segments that stand for themselves are walked along. -/
theorem walk_of_forall {keepsDrive : Bool} {standing segments : List (List Char)}
    (h : ∀ segment ∈ segments, isSingleDot segment = false ∧ isDoubleDot segment = false) :
    walk keepsDrive standing segments = standing ++ segments := by
  induction segments generalizing standing with
  | nil => rw [walk, List.append_nil]
  | cons segment rest ih =>
      obtain ⟨hSingle, hDouble⟩ := h segment (by simp)
      have hRest : walk keepsDrive (standing ++ [segment]) rest = standing ++ [segment] ++ rest :=
        ih fun other hOther => h other (List.mem_cons_of_mem _ hOther)
      cases rest with
      | nil => rw [walk, if_neg (by simp [hDouble]), if_neg (by simp [hSingle])]
      | cons next rest =>
          rw [walk, if_neg (by simp [hDouble]), if_neg (by simp [hSingle]), hRest, List.append_assoc]
          · rfl
          · simp

private theorem mem_of_mem_leave {keepsDrive : Bool} {parts : List (List Char)} {part : List Char}
    (h : part ∈ leave keepsDrive parts) : part ∈ parts := by
  unfold leave at h
  split at h
  · split at h
    · exact h
    · cases h
  · exact List.dropLast_subset _ h

/-- A walk ends with what stood there, with empty segments and with segments that stand for
themselves. -/
theorem forall_walk {P : List Char → Prop} {keepsDrive : Bool} {standing segments : List (List Char)}
    (hEmpty : P []) (hStanding : ∀ part ∈ standing, P part)
    (hSegments : ∀ segment ∈ segments, isSingleDot segment = false → isDoubleDot segment = false →
      P segment) :
    ∀ part ∈ walk keepsDrive standing segments, P part := by
  induction segments generalizing standing with
  | nil => exact hStanding
  | cons segment rest ih =>
      have hRest := fun other hOther => hSegments other (List.mem_cons_of_mem segment hOther)
      have hLeft : ∀ part ∈ leave keepsDrive standing, P part :=
        fun part hPart => hStanding part (mem_of_mem_leave hPart)
      have hOne : ∀ {parts : List (List Char)} {last : List Char}, (∀ part ∈ parts, P part) → P last →
          ∀ part ∈ parts ++ [last], P part := by
        intro parts last hParts hLast part hPart
        rcases List.mem_append.1 hPart with hOld | hNew
        · exact hParts part hOld
        · rwa [List.mem_singleton.1 hNew]
      cases rest with
      | nil =>
          rw [walk]
          split
          · exact hOne hLeft hEmpty
          next hDouble =>
          split
          · exact hOne hStanding hEmpty
          · next hSingle =>
              exact hOne hStanding (hSegments segment (by simp) (by simpa using hSingle)
                (by simpa using hDouble))
      | cons next rest =>
          rw [walk]
          · split
            · exact ih hLeft hRest
            next hDouble =>
            split
            · exact ih hStanding hRest
            · next hSingle =>
                exact ih (hOne hStanding (hSegments segment (by simp) (by simpa using hSingle)
                  (by simpa using hDouble))) hRest
          · simp

/-! ## Dots -/

/-- The segments that stand for a segment or its parent, in lower case. -/
private def dots : List (List Char) :=
  [['.'], ['%', '2', 'e'], ['.', '.'], ['%', '2', 'e', '.'], ['.', '%', '2', 'e'],
    ['%', '2', 'e', '%', '2', 'e']]

private theorem mem_dots {segment : List Char}
    (h : isSingleDot segment = true ∨ isDoubleDot segment = true) :
    segment.map Char.toLower ∈ dots := by
  simp only [isSingleDot, isDoubleDot, List.contains_eq_mem, decide_eq_true_eq, List.mem_cons,
    List.not_mem_nil, or_false] at h
  simp only [dots, List.mem_cons, List.not_mem_nil, or_false]
  tauto

/-- The only percent code in such a segment is the one of the dot. -/
private theorem code_of_dots : ∀ word ∈ dots, ∀ high < 16, ∀ low < 16,
    ['%', (upperHexDigit high).toLower, (upperHexDigit low).toLower] <:+: word →
      high = 2 ∧ low = 14 := by
  decide +kernel

/-- The percent code of a character starts with the one of a dot only if it is a dot. -/
private theorem percentChar_eq_cons (c : Char) : ∃ high < 16, ∃ low < 16, ∃ more,
    percentChar c = '%' :: upperHexDigit high :: upperHexDigit low :: more ∧
      (high = 2 ∧ low = 14 → c = '.') := by
  have hBytes := Text.Utf8.encodeChar_cases c
  unfold percentChar
  generalize Text.Utf8.encodeChar c = bytes at hBytes ⊢
  cases hBytes with
  | @plain b hLow hChar hStep =>
      refine ⟨b.toNat / 16, by omega, b.toNat % 16, by omega, [], rfl, ?_⟩
      intro hDot
      apply Char.ext
      apply UInt32.toNat_inj.1
      show c.toNat = 46
      omega
  | @sequence u b bytes hHigh hStep hRest =>
      have hByte : b.toNat < 256 := b.toNat_lt
      refine ⟨b.toNat / 16, by omega, b.toNat % 16, by omega, bytes.flatMap percentByte, rfl, ?_⟩
      intro hDot
      omega

/-- Encoding makes no dot segment. -/
theorem not_dots_percentEncode {segment : List Char} (hSingle : isSingleDot segment = false)
    (hDouble : isDoubleDot segment = false) :
    isSingleDot (percentEncode allowedInPath segment) = false ∧
      isDoubleDot (percentEncode allowedInPath segment) = false := by
  by_cases hAllowed : ∀ c ∈ segment, allowedInPath c = true
  · rw [percentEncode_of_forall hAllowed]
    exact ⟨hSingle, hDouble⟩
  · rw [not_forall] at hAllowed
    obtain ⟨c, hc⟩ := hAllowed
    rw [Classical.not_imp] at hc
    obtain ⟨front, back, rfl⟩ := List.append_of_mem hc.1
    obtain ⟨high, hHigh, low, hLow, more, hCode, hDot⟩ := percentChar_eq_cons c
    have hNot : (percentEncode allowedInPath (front ++ c :: back)).map Char.toLower ∉ dots := by
      intro hIn
      have hInfix : ['%', (upperHexDigit high).toLower, (upperHexDigit low).toLower] <:+:
          (percentEncode allowedInPath (front ++ c :: back)).map Char.toLower := by
        refine ⟨(percentEncode allowedInPath front).map Char.toLower,
          (more ++ percentEncode allowedInPath back).map Char.toLower, ?_⟩
        simp [percentEncode, hc.2, hCode]
      have hIsDot := hDot (code_of_dots _ hIn high hHigh low hLow hInfix)
      rw [hIsDot] at hc
      exact hc.2 (by decide)
    constructor
    · rw [Bool.eq_false_iff]
      exact fun hIs => hNot (mem_dots (.inl hIs))
    · rw [Bool.eq_false_iff]
      exact fun hIs => hNot (mem_dots (.inr hIs))

/-! ## Paths -/

/-- What is written of segments. -/
theorem written_segments {parts : List String} (h : parts ≠ []) :
    (Path.segments parts).written = '/' :: joinWith '/' (parts.map String.toList) := by
  induction parts with
  | nil => exact absurd rfl h
  | cons part rest ih =>
      cases rest with
      | nil => simp [Path.written, joinWith]
      | cons next rest =>
          have hRest := ih (by simp)
          rw [Path.written] at hRest ⊢
          rw [List.flatMap_cons, hRest]
          rfl

/-- **What is read of a path is settled.** -/
theorem isSettledSegment_of_pathOf {cs : List Char} {parts : List String}
    (h : pathOf true cs = .segments parts) : ∀ part ∈ parts, IsSettledSegment part.toList := by
  cases h
  intro part hPart
  simp only [List.map_map, List.mem_map] at hPart
  obtain ⟨segment, hSegment, rfl⟩ := hPart
  have hRaw : '/' ∉ segment ∧ '\\' ∉ segment ∧ isSingleDot segment = false ∧
      isDoubleDot segment = false := by
    revert segment
    apply forall_walk
    · decide
    · simp
    · intro segment hIn hSingle hDouble
      refine ⟨Text.not_mem_of_mem_splitAll hIn, ?_, hSingle, hDouble⟩
      intro hBackslash
      obtain ⟨c, -, hc⟩ := List.mem_map.1 (Text.mem_of_mem_splitAll hIn hBackslash)
      by_cases hEq : c = '\\'
      · rw [if_pos hEq] at hc
        exact absurd hc (by decide)
      · rw [if_neg hEq] at hc
        exact hEq hc
  obtain ⟨hSlash, hBackslash, hSingle, hDouble⟩ := hRaw
  obtain ⟨hSingle, hDouble⟩ := not_dots_percentEncode hSingle hDouble
  rw [Function.comp, String.toList_ofList]
  refine ⟨fun c hc => allowed_of_mem_percentEncode allowsCodes_path hc, ?_, ?_, hSingle, hDouble⟩
  · exact not_mem_percentEncode (by decide) (by decide) (.inl hSlash)
  · exact not_mem_percentEncode (by decide) (by decide) (.inl hBackslash)

/-- **Settled segments are read as they stand.** -/
theorem pathOf_written {parts : List String} (hRooted : parts ≠ [])
    (h : ∀ part ∈ parts, IsSettledSegment part.toList) {more : List Char}
    (hMore : (Path.segments parts).written = '/' :: more) : pathOf true more = .segments parts := by
  rw [written_segments hRooted] at hMore
  obtain ⟨-, rfl⟩ := List.cons.inj hMore
  have hSegments : ∀ segment ∈ parts.map String.toList, IsSettledSegment segment := by
    intro segment hSegment
    obtain ⟨part, hPart, rfl⟩ := List.mem_map.1 hSegment
    exact h part hPart
  have hPlain : (joinWith '/' (parts.map String.toList)).map
      (fun c => if c = '\\' then '/' else c) = joinWith '/' (parts.map String.toList) := by
    apply (List.map_congr_left _).trans (List.map_id _)
    intro c hc
    rcases Text.mem_joinWith hc with rfl | ⟨segment, hSegment, hIn⟩
    · decide
    · apply if_neg
      rintro rfl
      exact (hSegments segment hSegment).backslash hIn
  have hRaw : rawSegments true (joinWith '/' (parts.map String.toList)) = parts.map String.toList := by
    rw [rawSegments, if_pos rfl, hPlain]
    exact Text.splitAll_joinWith (by simpa using hRooted) fun segment hSegment =>
      (hSegments segment hSegment).slash
  have hWalk : walk false [] (parts.map String.toList) = [] ++ parts.map String.toList :=
    walk_of_forall fun segment hSegment =>
      ⟨(hSegments segment hSegment).singleDot, (hSegments segment hSegment).doubleDot⟩
  have hEncoded : (parts.map String.toList).map (percentEncode allowedInPath) =
      parts.map String.toList := by
    apply (List.map_congr_left _).trans (List.map_id _)
    intro segment hSegment
    exact percentEncode_of_forall (hSegments segment hSegment).allowed
  rw [pathOf, hRaw, hWalk, List.nil_append, hEncoded, List.map_map]
  congr 1
  apply (List.map_congr_left _).trans (List.map_id _)
  intro part _
  exact String.ofList_toList

end ControlClient.Url
