import ControlClient.Proofs.Url.Reread
import ControlClient.Proofs.Url.Scheme

/-!
# URLs without a query

A text has a query if a question mark stands in front of the first number sign. Reading makes no such
question mark: what is dropped around and within the text is no number sign, and the parts of a URL in
front of its query hold no question mark, in any scheme, since they are encoded or checked. So a URL
without a query is written as one, and what is written is read as one again.

## Main results

* `query?_of_isQueryless`: a text without a query is read as a URL without a query.
* `isQueryless_written`: a URL that was read without a query is written without one.
-/

namespace ControlClient.Url

/-! ## Texts -/

/-- No question mark stands in front of the first number sign. -/
def IsQueryless (cs : List Char) : Prop := '?' ∉ cs.takeWhile (· != '#')

namespace IsQueryless

variable {cs ds : List Char}

theorem of_not_mem (h : '?' ∉ cs) : IsQueryless cs := fun hIn => h (List.takeWhile_subset _ hIn)

theorem append (h : IsQueryless cs) (hMore : IsQueryless ds) : IsQueryless (cs ++ ds) := by
  unfold IsQueryless at h hMore ⊢
  rw [List.takeWhile_append]
  split
  · next hWhole =>
      rw [(List.takeWhile_prefix _).eq_of_length hWhole] at h
      rw [List.mem_append, not_or]
      exact ⟨h, hMore⟩
  · exact h

theorem of_isPrefix (h : IsQueryless ds) (hPrefix : cs <+: ds) : IsQueryless cs := by
  obtain ⟨more, rfl⟩ := hPrefix
  unfold IsQueryless at h ⊢
  rw [List.takeWhile_append] at h
  split at h
  · exact fun hIn => h (List.mem_append_left _ (List.takeWhile_subset _ hIn))
  · exact h

/-- What holds no number sign may be dropped in front. -/
theorem of_append (hFront : '#' ∉ ds) (h : IsQueryless (ds ++ cs)) : IsQueryless cs := by
  have hPass : ∀ c ∈ ds, (c != '#') = true := by
    intro c hc
    simpa using fun hEq : c = '#' => hFront (hEq ▸ hc)
  unfold IsQueryless at h ⊢
  rw [List.takeWhile_append_of_pos hPass, List.mem_append, not_or] at h
  exact h.2

/-- What is filtered out is no number sign. -/
theorem filter (h : IsQueryless cs) {keep : Char → Bool} (hKeep : keep '#' = true) :
    IsQueryless (cs.filter keep) := by
  unfold IsQueryless at h ⊢
  induction cs with
  | nil => exact h
  | cons c rest ih =>
      by_cases hSign : c = '#'
      · rw [hSign, List.filter_cons_of_pos hKeep]
        simp
      · rw [List.takeWhile_cons_of_pos (by simpa using hSign), List.mem_cons, not_or] at h
        have hRest := ih h.2
        rw [List.filter_cons]
        split
        · rw [List.takeWhile_cons_of_pos (by simpa using hSign), List.mem_cons, not_or]
          exact ⟨h.1, hRest⟩
        · exact hRest

/-- Reading drops nothing that puts a question mark in front of the first number sign. -/
theorem clean (h : IsQueryless cs) : IsQueryless (clean cs) := by
  unfold Url.clean
  apply IsQueryless.filter _ (by decide)
  have hStart : IsQueryless (cs.dropWhile fun c => decide (c.toNat ≤ 0x20)) := by
    have hEdge : '#' ∉ cs.takeWhile fun c => decide (c.toNat ≤ 0x20) := fun hIn =>
      absurd (List.mem_takeWhile_imp hIn) (by decide)
    refine of_append hEdge ?_
    rwa [List.takeWhile_append_dropWhile]
  refine hStart.of_isPrefix ?_
  rw [← List.reverse_suffix, List.reverse_reverse]
  exact List.dropWhile_suffix _

end IsQueryless

/-! ## Reading -/

theorem cutAt_fst (sign : Char) (cs : List Char) : (cutAt sign cs).1 = cs.takeWhile (· != sign) := by
  unfold cutAt
  split
  · next hNone => rw [List.takeWhile_eq_self_iff.2 (List.dropWhile_eq_nil_iff.1 hNone)]
  · rfl

/-- **A text without a query is read as a URL without a query.** -/
theorem query?_of_isQueryless [DomainMapping] {input : List Char} {u : Url} (h : readChars input = .ok u)
    (hInput : IsQueryless input) : u.query? = none := by
  unfold readChars at h
  split at h
  · cases h
  next scheme rest hScheme =>
  simp only [bind_eq_ok_iff] at h
  obtain ⟨_, -, hUrl⟩ := h
  cases hUrl
  obtain ⟨name, hName, -, hText⟩ := splitScheme?_eq_some_iff.1 hScheme
  have hRest : IsQueryless rest := by
    have hFront : '#' ∉ name ++ [':'] := by
      rw [List.mem_append, not_or]
      exact ⟨fun hIn => absurd (hName.chars _ hIn) (by decide), by decide⟩
    refine IsQueryless.of_append hFront ?_
    rw [List.append_assoc, List.singleton_append, ← hText]
    exact hInput.clean
  have hNone : '?' ∉ (cutAt '#' rest).1 := by
    rw [cutAt_fst]
    exact hRest
  dsimp only
  rw [cutAt_of_not_mem hNone]
  rfl

/-! ## Writing -/

private theorem question_not_mem_encoded {allowed : Char → Bool} {cs : List Char}
    (h : '?' ∉ cs ∨ allowed '?' = false) : '?' ∉ percentEncode allowed cs :=
  not_mem_percentEncode (by decide) (by decide) h

private theorem question_not_mem_segments {parts : List String}
    (h : ∀ part ∈ parts, '?' ∉ part.toList) : '?' ∉ (Path.segments parts).written := by
  intro hIn
  obtain ⟨part, hPart, hc⟩ := List.mem_flatMap.1 hIn
  rcases List.mem_cons.1 hc with hSlash | hc
  · exact absurd hSlash (by decide)
  · exact h part hPart hc

private theorem question_not_mem_pathOf (backslash : Bool) (cs : List Char) :
    '?' ∉ (pathOf backslash cs).written := by
  refine question_not_mem_segments fun part hPart => ?_
  simp only [List.map_map, List.mem_map] at hPart
  obtain ⟨segment, -, rfl⟩ := hPart
  rw [Function.comp, String.toList_ofList]
  exact question_not_mem_encoded (.inr (by decide))

private theorem question_not_mem_pathAfterAuthority (special : Bool) (cs : List Char) :
    '?' ∉ (pathAfterAuthority special cs).written := by
  unfold pathAfterAuthority
  split
  · exact question_not_mem_pathOf _ _
  · split <;> exact question_not_mem_pathOf _ _
  · split
    · exact question_not_mem_pathOf _ _
    · exact question_not_mem_segments (by simp)
  · exact question_not_mem_pathOf _ _

private theorem question_not_mem_filePath (cs : List Char) :
    '?' ∉ (Path.segments ((filePath cs).map String.ofList)).written := by
  refine question_not_mem_segments fun part hPart => ?_
  obtain ⟨segment, hSegment, rfl⟩ := List.mem_map.1 hPart
  rw [String.toList_ofList]
  unfold filePath at hSegment
  dsimp only at hSegment
  generalize walk true [] _ = walked at hSegment
  split at hSegment
  · rw [List.mem_singleton.1 hSegment]
    simp
  · obtain ⟨raw, -, rfl⟩ := List.mem_map.1 (List.dropWhile_subset _ hSegment)
    exact question_not_mem_encoded (.inr (by decide))

/-- A host that was read holds no question mark. -/
private theorem question_not_mem_host [DomainMapping] {cs : List Char} {host : Host}
    (h : domainHost cs = .ok host ∨ namedHost cs = .ok host) : '?' ∉ host.written := by
  have hSettled : host.IsSettled → '?' ∉ host.written := fun hHost hIn =>
    absurd (plain_of_mem_written hHost hIn) (by decide)
  rcases h with hDomain | hNamed
  · exact hSettled (isSettled_domainHost hDomain)
  · unfold namedHost at hNamed
    split at hNamed
    · exact hSettled (isSettled_bracketed hNamed)
    · split at hNamed
      · cases hNamed
      · next hForbidden =>
          cases hNamed
          rw [Host.written, String.toList_ofList]
          refine question_not_mem_encoded (.inl fun hIn => hForbidden ?_)
          exact List.any_eq_true.2 ⟨_, hIn, by decide⟩

private theorem question_not_mem_authority {a : Authority} (username password : List Char)
    (hName : a.username = String.ofList (percentEncode allowedInCredentials username))
    (hPassword : a.password = String.ofList (percentEncode allowedInCredentials password))
    (hHost : '?' ∉ a.host.written) : '?' ∉ a.written := by
  have hEncoded : ∀ cs, '?' ∉ (String.ofList (percentEncode allowedInCredentials cs)).toList := by
    intro cs
    rw [String.toList_ofList]
    exact question_not_mem_encoded (.inr (by decide))
  have hCredentials : '?' ∉ a.credentials := by
    unfold Authority.credentials
    split
    · simp
    · rw [hName, hPassword]
      simp only [List.mem_append, not_or]
      refine ⟨⟨hEncoded _, ?_⟩, by decide⟩
      split
      · simp
      · rw [List.mem_cons, not_or]
        exact ⟨by decide, hEncoded _⟩
  have hPort : '?' ∉ a.portText := by
    unfold Authority.portText
    split
    · rw [List.mem_cons, not_or]
      exact ⟨by decide, fun hIn => absurd (Text.isDigit_of_mem_digits hIn) (by decide)⟩
    · simp
  simp only [Authority.written, List.mem_append, not_or]
  exact ⟨⟨hCredentials, hHost⟩, hPort⟩

private theorem question_not_mem_readAuthority [DomainMapping] {scheme : String} {cs left : List Char}
    {somethingFollows : Bool} {a : Authority}
    (h : readAuthority scheme cs somethingFollows = .ok (a, left)) : '?' ∉ a.written := by
  by_cases hSpecial : isSpecial scheme = true
  · exact fun hIn =>
      absurd (plain_of_mem_authority (isSettled_readAuthority hSpecial h) hIn) (by decide)
  · rw [Bool.not_eq_true] at hSpecial
    simp only [readAuthority, hSpecial, Bool.false_and, Bool.false_eq_true, if_false,
      guard_eq_ok_iff, bind_eq_ok_iff] at h
    obtain ⟨-, host, hHost, -, hEnd⟩ := h
    have hNoSign := question_not_mem_host (.inr hHost)
    split at hEnd
    · simp only [bind_eq_ok_iff, guard_eq_ok_iff] at hEnd
      obtain ⟨_, -, -, hEnd⟩ := hEnd
      cases hEnd
      exact question_not_mem_authority _ _ rfl rfl hNoSign
    · simp only [bind_eq_ok_iff, guard_eq_ok_iff] at hEnd
      obtain ⟨_, -, -, hEnd⟩ := hEnd
      cases hEnd
      exact question_not_mem_authority _ _ rfl rfl hNoSign

/-- Host and path of a local file. -/
private theorem readFile_spec [DomainMapping] {cs : List Char} {host : Host} {path : List (List Char)}
    (h : readFile cs = .ok (host, path)) : '?' ∉ host.written ∧ ∃ rest, path = filePath rest := by
  have hNone : '?' ∉ (Host.name "").written := by decide
  unfold readFile at h
  dsimp only at h
  split at h
  · split at h
    · split at h
      · cases h
        exact ⟨hNone, _, rfl⟩
      · have hKept : ∀ (read : Host) (isLocal : Bool), '?' ∉ read.written →
            '?' ∉ (if isLocal then Host.name "" else read).written := by
          intro read isLocal hRead
          cases isLocal
          · exact hRead
          · exact hNone
        split at h
        · simp only [bind_eq_ok_iff] at h
          obtain ⟨read, hRead, hEnd⟩ := h
          cases hRead
          cases hEnd
          exact ⟨hKept _ _ hNone, _, rfl⟩
        · simp only [bind_eq_ok_iff] at h
          obtain ⟨read, hRead, hEnd⟩ := h
          cases hEnd
          exact ⟨hKept _ _ (question_not_mem_host (.inl hRead)), _, rfl⟩
    · split at h
      · cases h
        exact ⟨hNone, _, rfl⟩
      · cases h
        exact ⟨hNone, _, rfl⟩
  · cases h
    exact ⟨hNone, _, rfl⟩
  · cases h
    exact ⟨hNone, _, rfl⟩

/-- Authority and path hold no question mark if the text that they are read from holds none. -/
private theorem readHierarchy_spec [DomainMapping] {scheme : String} {cs : List Char}
    {somethingFollows : Bool} {authority? : Option Authority} {path : Path}
    (h : readHierarchy scheme cs somethingFollows = .ok (authority?, path)) (hText : '?' ∉ cs) :
    (∀ a ∈ authority?, '?' ∉ a.written) ∧ '?' ∉ path.written := by
  unfold readHierarchy at h
  split at h
  · simp only [bind_eq_ok_iff] at h
    obtain ⟨⟨host, parts⟩, hFile, hEnd⟩ := h
    cases hEnd
    obtain ⟨hHost, rest, rfl⟩ := readFile_spec hFile
    refine ⟨?_, question_not_mem_filePath rest⟩
    intro a ha
    cases Option.mem_some_iff.1 ha
    exact question_not_mem_authority [] [] rfl rfl hHost
  split at h
  · simp only [bind_eq_ok_iff] at h
    obtain ⟨⟨a, left⟩, hAuthority, hEnd⟩ := h
    cases hEnd
    refine ⟨?_, question_not_mem_pathAfterAuthority _ _⟩
    intro a ha
    cases Option.mem_some_iff.1 ha
    exact question_not_mem_readAuthority hAuthority
  split at h
  · simp only [bind_eq_ok_iff] at h
    obtain ⟨⟨a, left⟩, hAuthority, hEnd⟩ := h
    cases hEnd
    refine ⟨?_, question_not_mem_pathAfterAuthority _ _⟩
    intro a ha
    cases Option.mem_some_iff.1 ha
    exact question_not_mem_readAuthority hAuthority
  · cases h
    exact ⟨by simp, question_not_mem_pathOf _ _⟩
  · cases h
    rw [Path.written, String.toList_ofList]
    exact ⟨by simp, question_not_mem_encoded (.inl hText)⟩

/-- Folding a scheme makes no question mark. -/
private theorem toLower_ne_question {c : Char} (h : isSchemeChar c = true) : c.toLower ≠ '?' := by
  intro hEq
  unfold Char.toLower at hEq
  split at hEq
  · next hUpper =>
      have hVal : (c.val.toNat + 32) % 2 ^ 32 = 63 := congrArg (fun d => d.val.toNat) hEq
      have hLow : 65 ≤ c.val.toNat := UInt32.le_iff_toNat_le.1 hUpper.1
      have hHigh : c.val.toNat ≤ 90 := UInt32.le_iff_toNat_le.1 hUpper.2
      omega
  · rw [hEq] at h
    exact absurd h (by decide)

/-- **A URL that was read without a query is written without one.** -/
theorem isQueryless_written [DomainMapping] {input : List Char} {u : Url} (h : readChars input = .ok u)
    (hQuery : u.query? = none) : IsQueryless u.written := by
  unfold readChars at h
  split at h
  · cases h
  next scheme rest hScheme =>
  simp only [bind_eq_ok_iff] at h
  obtain ⟨⟨authority?, path⟩, hHierarchy, hUrl⟩ := h
  cases hUrl
  obtain ⟨name, hName, rfl, -⟩ := splitScheme?_eq_some_iff.1 hScheme
  rw [Option.map_eq_none_iff] at hQuery
  have hText : '?' ∉ (cutAt '?' (cutAt '#' rest).1).1 := by
    rw [cutAt_fst]
    intro hIn
    exact absurd (List.mem_takeWhile_imp hIn) (by decide)
  obtain ⟨hAuthority, hPath⟩ := readHierarchy_spec hHierarchy hText
  have hSchemeName : '?' ∉ (String.ofList (name.map Char.toLower)).toList := by
    rw [String.toList_ofList]
    intro hIn
    obtain ⟨c, hc, hEq⟩ := List.mem_map.1 hIn
    exact toLower_ne_question (hName.chars c hc) hEq
  rw [Url.written]
  dsimp only
  rw [hQuery]
  refine .append (.of_not_mem hSchemeName) ?_
  show IsQueryless ((':' :: (_ ++ _ ++ [])) ++ optionalPart '#' _)
  refine .append (.of_not_mem ?_) ?_
  · simp only [List.append_nil, List.mem_cons, List.mem_append, not_or]
    refine ⟨by decide, ?_, hPath⟩
    cases authority? with
    | none => dsimp only; split <;> decide
    | some a =>
        simp only [List.mem_cons, not_or]
        exact ⟨by decide, by decide, hAuthority a rfl⟩
  · cases (cutAt '#' rest).2 with
    | none => exact .of_not_mem (by simp [optionalPart])
    | some fragment => simp [IsQueryless, optionalPart]

end ControlClient.Url
