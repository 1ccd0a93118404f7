import ControlClient.Proofs.Text.Utf8
import ControlClient.Url.Read
import Mathlib.Data.List.Basic
import Mathlib.Data.List.TakeWhile

/-!
# Schemes

The scheme of a URL is what stands in front of the first colon, and it holds nothing that is dropped around
or within a text. So two texts with the same scheme in front are read under the same scheme, whatever
stands behind it and whichever scheme it is.

## Main results

* `splitScheme?_eq_some_iff`: when a text has a scheme.
* `clean_append`, `clean_concat`: what is dropped of a text is not at its start and not at its end.
* `scheme_readChars_append`: what is put behind a scheme does not change it.
-/

namespace ControlClient.Url

/-! ## Names of schemes -/

/-- A name that a scheme may have, in any case. -/
structure IsSchemeName (name : List Char) : Prop where
  head : ∃ c ∈ name.head?, c.isAlpha = true
  chars : ∀ c ∈ name, isSchemeChar c = true

/-- Characters of schemes are visible ASCII characters other than the colon, which folding keeps. -/
private theorem schemeChar_spec {c : Char} (h : isSchemeChar c = true) :
    0x20 < c.toNat ∧ c ≠ ':' ∧ isSchemeChar c.toLower = true ∧ c.toLower.toLower = c.toLower ∧
      (c.isAlpha = true → c.toLower.isAlpha = true) := by
  have hAscii : c.toNat < 0x80 := by
    simp only [isSchemeChar, Bool.or_eq_true, decide_eq_true_eq] at h
    rcases h with ((hLetter | rfl) | rfl) | rfl
    · delta Char.isAlphanum Char.isAlpha Char.isUpper Char.isLower Char.isDigit at hLetter
      simp only [Bool.or_eq_true, Bool.and_eq_true, decide_eq_true_eq, ge_iff_le,
        UInt32.le_iff_toNat_le] at hLetter
      have hVal : c.toNat = c.val.toNat := rfl
      have hUpper : 'Z'.val.toNat = 90 := rfl
      have hLower : 'z'.val.toNat = 122 := rfl
      have hDigit : '9'.val.toNat = 57 := rfl
      omega
    · decide
    · decide
    · decide
  exact Text.Utf8.forall_ascii (P := fun c => isSchemeChar c = true → 0x20 < c.toNat ∧ c ≠ ':' ∧
    isSchemeChar c.toLower = true ∧ c.toLower.toLower = c.toLower ∧
      (c.isAlpha = true → c.toLower.isAlpha = true)) (by decide) hAscii h

namespace IsSchemeName

variable {name : List Char}

theorem inked (h : IsSchemeName name) : ∀ c ∈ name, 0x20 < c.toNat :=
  fun c hc => (schemeChar_spec (h.chars c hc)).1

/-- A name in lower case is a name. -/
theorem lower (h : IsSchemeName name) : IsSchemeName (name.map Char.toLower) := by
  obtain ⟨c, hc, hAlpha⟩ := h.head
  have hMem : c ∈ name := List.mem_of_mem_head? hc
  refine ⟨⟨c.toLower, ?_, (schemeChar_spec (h.chars c hMem)).2.2.2.2 hAlpha⟩, ?_⟩
  · rw [List.head?_map, Option.mem_def.1 hc]
    rfl
  · intro d hd
    obtain ⟨e, he, rfl⟩ := List.mem_map.1 hd
    exact (schemeChar_spec (h.chars e he)).2.2.1

/-- A name in lower case stays as it is. -/
theorem lower_lower (h : IsSchemeName name) :
    (name.map Char.toLower).map Char.toLower = name.map Char.toLower := by
  rw [List.map_map]
  exact List.map_congr_left fun c hc => (schemeChar_spec (h.chars c hc)).2.2.2.1

end IsSchemeName

/-- **A text has a scheme** if it starts with a name and a colon. -/
theorem splitScheme?_eq_some_iff {cs rest : List Char} {scheme : String} :
    splitScheme? cs = some (scheme, rest) ↔
      ∃ name, IsSchemeName name ∧ scheme = String.ofList (name.map Char.toLower) ∧
        cs = name ++ ':' :: rest := by
  constructor
  · intro h
    unfold splitScheme? at h
    split at h
    · next c name rest' hName hRest =>
        split at h
        · next hAlpha =>
            cases h
            refine ⟨c :: name, ⟨⟨c, rfl, hAlpha⟩, ?_⟩, rfl, ?_⟩
            · rw [← hName]
              exact fun d hd => List.mem_takeWhile_imp hd
            · rw [← hName, ← hRest, List.takeWhile_append_dropWhile]
        · cases h
    · cases h
  · rintro ⟨name, hName, rfl, rfl⟩
    obtain ⟨c, hc, hAlpha⟩ := hName.head
    obtain ⟨more, rfl⟩ := List.head?_eq_some_iff.1 (Option.mem_def.1 hc)
    have hColon : isSchemeChar ':' = false := by decide
    have hTake : ((c :: more) ++ ':' :: rest).takeWhile isSchemeChar = c :: more := by
      rw [List.takeWhile_append_of_pos hName.chars]
      simp [hColon]
    have hDrop : ((c :: more) ++ ':' :: rest).dropWhile isSchemeChar = ':' :: rest := by
      rw [List.dropWhile_append_of_pos hName.chars]
      simp [hColon]
    simp only [splitScheme?, hTake, hDrop, hAlpha, if_true]

/-! ## What is dropped of a text -/

private theorem kept_of_inked {cs : List Char} (h : ∀ c ∈ cs, 0x20 < c.toNat) :
    cs.filter (fun c => c != '\t' && c != '\n' && c != '\r') = cs := by
  refine List.filter_eq_self.2 fun c hc => ?_
  have hInked := h c hc
  simp only [Bool.and_eq_true, bne_iff_ne]
  refine ⟨⟨?_, ?_⟩, ?_⟩ <;> rintro rfl <;> exact absurd hInked (by decide)

/-- Nothing is dropped of what stands in front and is neither a control character nor a space. -/
theorem clean_append {front : List Char} (h : ∀ c ∈ front, 0x20 < c.toNat) (rest : List Char) :
    ∃ kept, clean (front ++ rest) = front ++ kept := by
  have hEdge : ∀ {c : Char} {cs : List Char}, 0x20 < c.toNat →
      (c :: cs).dropWhile (fun c => decide (c.toNat ≤ 0x20)) = c :: cs := by
    intro c cs hc
    exact List.dropWhile_cons_of_neg (by simpa using hc)
  cases hFront : front with
  | nil => exact ⟨_, rfl⟩
  | cons first others =>
      have hStart : (front ++ rest).dropWhile (fun c => decide (c.toNat ≤ 0x20)) = front ++ rest := by
        rw [hFront, List.cons_append]
        exact hEdge (h first (by simp [hFront]))
      have hReverse : front.reverse.dropWhile (fun c => decide (c.toNat ≤ 0x20)) = front.reverse := by
        cases hLast : front.reverse with
        | nil => rfl
        | cons last before =>
            have hMem : last ∈ front := List.mem_reverse.1 (by rw [hLast]; exact List.mem_cons_self)
            exact hEdge (h last hMem)
      have hEnd : ∃ kept, ((front ++ rest).reverse.dropWhile
          fun c => decide (c.toNat ≤ 0x20)).reverse = front ++ kept := by
        rw [List.reverse_append, List.dropWhile_append]
        split
        · exact ⟨[], by rw [hReverse, List.reverse_reverse, List.append_nil]⟩
        · exact ⟨_, by rw [List.reverse_append, List.reverse_reverse]⟩
      obtain ⟨kept, hKept⟩ := hEnd
      rw [← hFront, clean, hStart, hKept, List.filter_append, kept_of_inked h]
      exact ⟨_, rfl⟩

/-- Nothing is dropped at the end behind what is neither a control character nor a space. -/
theorem clean_concat {cs : List Char} {last c : Char} (hLast : cs.getLast? = some last)
    (hInked : 0x20 < last.toNat) (hc : 0x20 < c.toNat) : clean (cs ++ [c]) = clean cs ++ [c] := by
  have hNot : ∀ {d : Char}, 0x20 < d.toNat → decide (d.toNat ≤ 0x20) = false := by
    intro d hd
    simpa using hd
  have hSuffix := List.dropWhile_suffix (l := cs) fun c => decide (c.toNat ≤ 0x20)
  have hSome : cs.dropWhile (fun c => decide (c.toNat ≤ 0x20)) ≠ [] := by
    intro hNil
    have hAll := List.dropWhile_eq_nil_iff.1 hNil last (List.mem_of_getLast? hLast)
    rw [hNot hInked] at hAll
    cases hAll
  have hStart : (cs ++ [c]).dropWhile (fun c => decide (c.toNat ≤ 0x20)) =
      cs.dropWhile (fun c => decide (c.toNat ≤ 0x20)) ++ [c] := by
    rw [List.dropWhile_append, if_neg (by simpa using hSome)]
  unfold clean
  dsimp only
  rw [hStart]
  generalize cs.dropWhile (fun c => decide (c.toNat ≤ 0x20)) = kept at hSuffix hSome
  have hKept : kept.reverse.dropWhile (fun c => decide (c.toNat ≤ 0x20)) = kept.reverse := by
    obtain ⟨dropped, hCs⟩ := hSuffix
    rw [← hCs, List.getLast?_append_of_ne_nil _ hSome, ← List.head?_reverse] at hLast
    obtain ⟨before, hReverse⟩ := List.head?_eq_some_iff.1 hLast
    rw [hReverse, List.dropWhile_cons_of_neg (by simp [hNot hInked])]
  have hOne : [c].filter (fun c => c != '\t' && c != '\n' && c != '\r') = [c] :=
    kept_of_inked (by simpa using hc)
  rw [List.reverse_append, List.reverse_singleton, List.singleton_append,
    List.dropWhile_cons_of_neg (by simp [hNot hc]), hKept, List.reverse_cons, List.filter_append, hOne]

/-! ## Schemes of URLs -/

variable [DomainMapping]

theorem splitScheme?_of_readChars {input : List Char} {u : Url} (h : readChars input = .ok u) :
    ∃ rest, splitScheme? (clean input) = some (u.scheme, rest) := by
  unfold readChars at h
  split at h
  · cases h
  · next scheme rest hScheme =>
      cases hHierarchy : readHierarchy scheme (cutAt '?' (cutAt '#' rest).1).1
          ((cutAt '?' (cutAt '#' rest).1).2.isSome || (cutAt '#' rest).2.isSome) with
      | error fault =>
          simp only [hHierarchy] at h
          cases h
      | ok hierarchy =>
          simp only [hHierarchy] at h
          cases h
          exact ⟨rest, hScheme⟩

/-- **What is put behind a scheme does not change it.** -/
theorem scheme_readChars_append {input more : List Char} {u v : Url} (h : readChars input = .ok u)
    (hMore : readChars (u.scheme.toList ++ ':' :: more) = .ok v) : v.scheme = u.scheme := by
  obtain ⟨rest, hScheme⟩ := splitScheme?_of_readChars h
  obtain ⟨name, hName, hLower, -⟩ := splitScheme?_eq_some_iff.1 hScheme
  obtain ⟨rest', hScheme'⟩ := splitScheme?_of_readChars hMore
  have hText : u.scheme.toList = name.map Char.toLower := by rw [hLower, String.toList_ofList]
  have hInked : ∀ c ∈ u.scheme.toList ++ [':'], 0x20 < c.toNat := by
    intro c hc
    rw [hText, List.mem_append, List.mem_singleton] at hc
    rcases hc with hIn | rfl
    · exact hName.lower.inked c hIn
    · decide
  obtain ⟨kept, hKept⟩ := clean_append hInked more
  rw [List.append_assoc, List.append_assoc, List.singleton_append, List.singleton_append] at hKept
  have hSame : splitScheme? (u.scheme.toList ++ ':' :: kept) = some (u.scheme, kept) :=
    splitScheme?_eq_some_iff.2
      ⟨_, hText ▸ hName.lower, by rw [hText, hName.lower_lower, ← hText, String.ofList_toList], rfl⟩
  rw [hKept, hSame] at hScheme'
  exact (Prod.mk.inj (Option.some.inj hScheme')).1.symm

end ControlClient.Url
