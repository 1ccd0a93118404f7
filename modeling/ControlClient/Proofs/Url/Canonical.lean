import ControlClient.Proofs.Url.Path
import ControlClient.Proofs.Url.Reread

/-!
# URLs in their final form

What is read of a text is in its final form: its authority is settled, the segments of its path stand for
themselves, and nothing in it has to be encoded. Such a URL is what its own text is read as, whether it
was read or put together. Again only the schemes with which requests are made are treated.

## Main results

* `isCanonical_readChars`: what was read is in its final form.
* `readChars_written`: a URL in its final form reads back.
-/

namespace ControlClient.Url

/-! ## Optional parts -/

private theorem visible_optionalPart {sign : Char} (hSign : isVisible sign = true)
    {text? : Option String} (h : ∀ text ∈ text?, ∀ c ∈ text.toList, isVisible c = true) :
    ∀ c ∈ optionalPart sign text?, isVisible c = true := by
  intro c hc
  cases text? with
  | none => cases hc
  | some text =>
      rcases List.mem_cons.1 hc with rfl | hIn
      · exact hSign
      · exact h text rfl c hIn

private theorem cutAt_optionalPart {sign : Char} {front : List Char} (h : sign ∉ front)
    (text? : Option String) :
    cutAt sign (front ++ optionalPart sign text?) = (front, text?.map String.toList) := by
  cases text? with
  | none => rw [optionalPart, List.append_nil, cutAt_of_not_mem h]; rfl
  | some text => exact cutAt_append_cons h _

private theorem encode_of_forall {allowed : Char → Bool} {text? : Option String}
    (h : ∀ text ∈ text?, ∀ c ∈ text.toList, allowed c = true) :
    (text?.map String.toList).map (fun cs => String.ofList (percentEncode allowed cs)) = text? := by
  cases text? with
  | none => rfl
  | some text =>
      rw [Option.map_some, Option.map_some, percentEncode_of_forall (h text rfl), String.ofList_toList]

/-! ## Behind the authority -/

variable [DomainMapping] {u : Url} {a : Authority} {parts : List String}

/-- The part of a URL behind its authority. -/
def tailText (u : Url) : List Char :=
  u.path.written ++ optionalPart '?' u.query? ++ optionalPart '#' u.fragment?

namespace IsSettled

theorem written_eq (h : u.IsSettled a parts) : u.written = originText u.scheme a ++ u.tailText := by
  simp [written, tailText, originText, h.authority]

/-- A path stands behind the authority. -/
theorem tailText_eq_cons (h : u.IsSettled a parts) : ∃ more, u.tailText = '/' :: more := by
  obtain ⟨part, rest, hParts⟩ := List.exists_cons_of_ne_nil h.rooted
  rw [tailText, h.path, hParts]
  exact ⟨_, rfl⟩

theorem visible_tailText (h : u.IsSettled a parts) : ∀ c ∈ u.tailText, isVisible c = true := by
  intro c hc
  rw [tailText, List.mem_append, List.mem_append] at hc
  rcases hc with (hPath | hQuery) | hFragment
  · rw [h.path, Path.written, List.mem_flatMap] at hPath
    obtain ⟨part, hPart, hIn⟩ := hPath
    rcases List.mem_cons.1 hIn with rfl | hIn
    · decide
    · exact isVisible_of_path (h.parts part hPart c hIn)
  · exact visible_optionalPart (by decide)
      (fun q hq c hc => isVisible_of_specialQuery (h.query q hq c hc)) c hQuery
  · exact visible_optionalPart (by decide)
      (fun f hf c hc => isVisible_of_fragment (h.fragment f hf c hc)) c hFragment

/-- The text in front of a path does not end in a slash. -/
theorem slash_not_at_end (h : u.IsSettled a parts) :
    ∀ c ∈ (originText u.scheme a).getLast?, c ≠ '/' := by
  have hText : originText u.scheme a = (u.scheme.toList ++ [':', '/', '/']) ++ a.written := by
    simp [originText]
  intro c hc
  rw [hText, List.getLast?_append_of_ne_nil _ (authority_ne_nil h.settled)] at hc
  rintro rfl
  exact absurd (plain_of_mem_authority h.settled (List.mem_of_getLast? hc)) (by decide)

end IsSettled

/-! ## The final form -/

/-- A URL of a web scheme in its final form, with segments that stand for themselves. -/
structure IsCanonical (u : Url) (a : Authority) (names : List String) : Prop
    extends u.IsSettled a names where
  canonical : ∀ name ∈ names, IsSettledSegment name.toList

/-- What was read is canonical. -/
theorem isCanonical_readChars {input : List Char} {u : Url} (h : readChars input = .ok u)
    (hWeb : IsWeb u.scheme) : ∃ a parts, u.IsCanonical a parts := by
  obtain ⟨a, parts, hSettled⟩ := isSettled_readChars h hWeb
  obtain ⟨_, cs, -, -, hPath, -⟩ := readChars_parts h hWeb
  rw [hSettled.path] at hPath
  exact ⟨a, parts, hSettled, isSettledSegment_of_pathOf hPath.symm⟩

namespace IsCanonical

/-- What introduces the parts behind a path does not stand in it. -/
theorem not_mem_path (h : u.IsCanonical a parts) {sign : Char} (hSign : allowedInPath sign = false)
    (hSlash : sign ≠ '/') : sign ∉ u.path.written := by
  intro hIn
  rw [h.path] at hIn
  obtain ⟨part, hPart, hc⟩ := List.mem_flatMap.1 hIn
  rcases List.mem_cons.1 hc with hEq | hc
  · exact hSlash hEq
  · rw [h.parts part hPart sign hc] at hSign
    cases hSign

/-- **A URL in its final form reads back.** -/
theorem readChars_written (h : u.IsCanonical a parts) : readChars u.written = .ok u := by
  obtain ⟨more, hMore⟩ : ∃ more, u.path.written = '/' :: more := by
    rw [h.path, written_segments h.rooted]
    exact ⟨_, rfl⟩
  have hPath : pathOf true more = u.path := by
    rw [h.path] at hMore ⊢
    exact pathOf_written h.rooted h.canonical hMore
  have hTail : u.tailText =
      '/' :: (more ++ optionalPart '?' u.query? ++ optionalPart '#' u.fragment?) := by
    rw [tailText, hMore]
    rfl
  have hQuestion : '?' ∉ more := by
    have hNot : '?' ∉ u.path.written := h.not_mem_path (by decide) (by decide)
    rw [hMore, List.mem_cons, not_or] at hNot
    exact hNot.2
  have hNumber : '#' ∉ more ++ optionalPart '?' u.query? := by
    have hNot : '#' ∉ u.path.written := h.not_mem_path (by decide) (by decide)
    rw [hMore, List.mem_cons, not_or] at hNot
    rw [List.mem_append, not_or]
    refine ⟨hNot.2, ?_⟩
    cases hQuery : u.query? with
    | none => simp [optionalPart]
    | some query =>
        rw [optionalPart, List.mem_cons, not_or]
        exact ⟨by decide, fun hIn => absurd (h.query query hQuery '#' hIn) (by decide)⟩
  have hVisible : ∀ c ∈ more ++ optionalPart '?' u.query? ++ optionalPart '#' u.fragment?,
      isVisible c = true := by
    intro c hc
    apply h.visible_tailText
    rw [hTail]
    exact List.mem_cons_of_mem _ hc
  have hRead := readChars_origin h.web h.settled hVisible
  rw [cutAt_optionalPart hNumber, cutAt_optionalPart hQuestion, encode_of_forall h.query,
    encode_of_forall h.fragment, hPath, ← h.authority] at hRead
  rw [h.written_eq, hTail, hRead]

end IsCanonical

end ControlClient.Url
