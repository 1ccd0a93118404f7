import ControlClient.Proofs.Url.Reread
import ControlClient.Proofs.Url.Scheme

/-!
# A slash at the end of an address

A URL of a web scheme that ends in its path may be written with another slash at its end. Nothing in front
of the path is read differently then, and the path is the same or has one more slash at its end: a dot
segment at the end of a path stands for a place, which it leaves or stays at with or without a slash behind
it.

## Main results

* `walk_concat_empty`: one more empty segment on a walk.
* `readHierarchy_concat_slash`: one more slash behind authority and path.
* `readChars_concat_slash`, `readChars_append_slashes`: one more slash, and any number of them, behind a
  whole text.
-/

namespace ControlClient.Url

/-! ## Paths -/

private theorem walk_empty (keepsDrive : Bool) (standing : List (List Char)) :
    walk keepsDrive standing [[]] = standing ++ [[]] := rfl

/-- **One more empty segment** is where a walk ends anyway behind a dot segment, and one more step
otherwise. -/
theorem walk_concat_empty (keepsDrive : Bool) (standing : List (List Char))
    {segments : List (List Char)} (h : segments ≠ []) :
    walk keepsDrive standing (segments ++ [[]]) = walk keepsDrive standing segments ∨
      walk keepsDrive standing (segments ++ [[]]) = walk keepsDrive standing segments ++ [[]] := by
  induction segments generalizing standing with
  | nil => exact absurd rfl h
  | cons segment rest ih =>
      cases rest with
      | nil =>
          have hTwo : [segment] ++ [[]] = [segment, ([] : List Char)] := rfl
          rw [hTwo, walk, walk]
          · split
            · exact .inl (walk_empty _ _)
            · split
              · exact .inl (walk_empty _ _)
              · exact .inr (walk_empty _ _)
          · simp
      | cons next rest =>
          rw [List.cons_append, walk, walk]
          · split
            · exact ih _ (by simp)
            · split
              · exact ih _ (by simp)
              · exact ih _ (by simp)
          · simp
          · simp

/-- A path is another one with slashes at its end, or the same. -/
def ExtendsBySlashes (longer shorter : Path) : Prop :=
  ∃ n, longer.written = shorter.written ++ List.replicate n '/'

private theorem pathOf_concat_slash (cs : List Char) :
    ExtendsBySlashes (pathOf true (cs ++ ['/'])) (pathOf true cs) := by
  have hRaw : rawSegments true (cs ++ ['/']) = rawSegments true cs ++ [[]] := by
    simp only [rawSegments, if_true, List.map_append]
    exact Text.splitAll_append_piece (by simp) _
  have hWalk := walk_concat_empty false []
    (Text.splitAll_ne_nil '/' (cs.map fun c => if c = '\\' then '/' else c))
  unfold ExtendsBySlashes pathOf
  rw [hRaw, rawSegments, if_pos rfl]
  rcases hWalk with hSame | hMore
  · exact ⟨0, by rw [hSame, List.replicate_zero, List.append_nil]⟩
  · exact ⟨1, by simp [hMore, Path.written, percentEncode]⟩

private theorem pathAfterAuthority_concat_slash (cs : List Char) :
    ExtendsBySlashes (pathAfterAuthority true (cs ++ ['/'])) (pathAfterAuthority true cs) := by
  cases cs with
  | nil => exact ⟨0, rfl⟩
  | cons c rest =>
      by_cases hSlash : c = '/'
      · subst hSlash
        exact pathOf_concat_slash rest
      · by_cases hBackslash : c = '\\'
        · subst hBackslash
          exact pathOf_concat_slash rest
        · have hPlain : ∀ more, pathAfterAuthority true (c :: more) = pathOf true (c :: more) := by
            intro more
            simp [pathAfterAuthority, hSlash, hBackslash]
          rw [List.cons_append, hPlain, hPlain]
          exact pathOf_concat_slash (c :: rest)

/-! ## Authority and path -/

/-- Whether anything follows an authority does not matter to one that was read. -/
private theorem readAuthority_follows [DomainMapping] {scheme : String}
    (hSpecial : isSpecial scheme = true) {cs left : List Char} {a : Authority} {somethingFollows : Bool}
    (h : readAuthority scheme cs somethingFollows = .ok (a, left)) (follows : Bool) :
    readAuthority scheme cs follows = .ok (a, left) := by
  simp only [readAuthority, hSpecial, guard_eq_ok_iff] at h ⊢
  obtain ⟨-, hHost, hRest⟩ := h
  refine ⟨?_, hHost, hRest⟩
  intro hLone
  simp only [Bool.and_eq_true, List.isEmpty_iff] at hLone
  rw [hLone.1.2] at hHost
  exact hHost rfl

private theorem takeWhile_concat {p : Char → Bool} {c : Char} (hc : p c = false) (cs : List Char) :
    (cs ++ [c]).takeWhile p = cs.takeWhile p := by
  rw [List.takeWhile_append]
  split
  · next hAll =>
      rw [List.takeWhile_cons_of_neg (by simp [hc]), List.append_nil,
        (List.takeWhile_prefix p).eq_of_length hAll]
  · rfl

private theorem dropWhile_concat {p : Char → Bool} {c : Char} {cs : List Char}
    (h : p c = false ∨ cs.dropWhile p ≠ []) : (cs ++ [c]).dropWhile p = cs.dropWhile p ++ [c] := by
  rw [List.dropWhile_append]
  split
  · next hNone =>
      rw [List.isEmpty_iff] at hNone
      have hc : p c = false := h.resolve_right fun hSome => hSome hNone
      rw [hNone, List.dropWhile_cons_of_neg (by simp [hc]), List.nil_append]
  · rfl

/-- **One more slash behind authority and path** is one more slash behind the path. -/
theorem readHierarchy_concat_slash [DomainMapping] {scheme : String} (hWeb : IsWeb scheme)
    {cs : List Char} {authority? : Option Authority} {path : Path} {somethingFollows : Bool}
    (h : readHierarchy scheme cs somethingFollows = .ok (authority?, path)) :
    ∃ longer, readHierarchy scheme (cs ++ ['/']) somethingFollows = .ok (authority?, longer) ∧
      ExtendsBySlashes longer path := by
  simp only [readHierarchy, if_neg hWeb.ne_file, hWeb.isSpecial, if_true, bind_eq_ok_iff] at h ⊢
  obtain ⟨⟨a, left⟩, hAuthority, hEnd⟩ := h
  cases hEnd
  have hSome : cs.dropWhile (fun c => decide (c = '/') || decide (c = '\\')) ≠ [] := by
    intro hNone
    rw [hNone] at hAuthority
    simp [readAuthority, hWeb.isSpecial, splitCredentials, splitHost, throw, throwThe,
      MonadExceptOf.throw, bind, Except.bind] at hAuthority
  rw [dropWhile_concat (.inr hSome), takeWhile_concat (by decide), dropWhile_concat (.inl (by decide))]
  refine ⟨_, ⟨(a, left), readAuthority_follows hWeb.isSpecial hAuthority _, rfl⟩, ?_⟩
  rw [← List.append_assoc]
  exact pathAfterAuthority_concat_slash _

/-! ## Whole URLs -/

private theorem not_mem_of_cutAt {sign : Char} {cs : List Char} (h : (cutAt sign cs).2 = none) :
    sign ∉ cs := by
  unfold cutAt at h
  split at h
  · next hNone =>
      intro hIn
      simpa using List.dropWhile_eq_nil_iff.1 hNone sign hIn
  · cases h

private theorem cutAt_concat_slash {sign : Char} (hSign : sign ≠ '/') {cs : List Char}
    (h : (cutAt sign cs).2 = none) : cutAt sign (cs ++ ['/']) = (cs ++ ['/'], none) := by
  apply cutAt_of_not_mem
  rw [List.mem_append, List.mem_singleton, not_or]
  exact ⟨not_mem_of_cutAt h, hSign⟩

/-- **One more slash behind a text** that ends in its path and in no character that is dropped: only the
path may be read differently, with one more slash at its end. -/
theorem readChars_concat_slash [DomainMapping] {cs : List Char} {u : Url} (h : readChars cs = .ok u)
    (hWeb : IsWeb u.scheme) (hQuery : u.query? = none) (hFragment : u.fragment? = none)
    (hEnd : ∀ c ∈ cs.getLast?, 0x20 < c.toNat) :
    ∃ path, readChars (cs ++ ['/']) = .ok { u with path } ∧ ExtendsBySlashes path u.path := by
  obtain ⟨last, hLast⟩ : ∃ last, cs.getLast? = some last := by
    cases hNone : cs.getLast? with
    | none =>
        rw [List.getLast?_eq_none_iff.1 hNone] at h
        cases h
    | some last => exact ⟨last, rfl⟩
  have hClean := clean_concat (c := '/') hLast (hEnd last hLast) (by decide)
  unfold readChars at h
  split at h
  · cases h
  next scheme rest hScheme =>
  simp only [bind_eq_ok_iff] at h
  obtain ⟨⟨authority?, path⟩, hHierarchy, hUrl⟩ := h
  cases hUrl
  obtain ⟨name, hName, hLower, hText⟩ := splitScheme?_eq_some_iff.1 hScheme
  have hLonger : splitScheme? (clean (cs ++ ['/'])) = some (scheme, rest ++ ['/']) := by
    rw [hClean, hText]
    exact splitScheme?_eq_some_iff.2 ⟨name, hName, hLower, by simp⟩
  rw [Option.map_eq_none_iff] at hQuery hFragment
  have hBefore : (cutAt '#' rest).1 = rest := by
    rw [cutAt_of_not_mem (not_mem_of_cutAt hFragment)]
  rw [hBefore] at hQuery hHierarchy
  have hPlain : (cutAt '?' rest).1 = rest := by
    rw [cutAt_of_not_mem (not_mem_of_cutAt hQuery)]
  rw [hPlain, hQuery, hFragment] at hHierarchy
  obtain ⟨longer, hRead, hSlashes⟩ := readHierarchy_concat_slash hWeb hHierarchy
  refine ⟨longer, ?_, hSlashes⟩
  simp only [readChars, hLonger, cutAt_concat_slash (show '#' ≠ '/' by decide) hFragment,
    cutAt_concat_slash (show '?' ≠ '/' by decide) hQuery, hRead, hBefore, hFragment, hQuery]
  rfl

/-- **Any number of slashes** behind such a text make no other difference. -/
theorem readChars_append_slashes [DomainMapping] {cs : List Char} {u : Url} (h : readChars cs = .ok u)
    (hWeb : IsWeb u.scheme) (hQuery : u.query? = none) (hFragment : u.fragment? = none)
    (hEnd : ∀ c ∈ cs.getLast?, 0x20 < c.toNat) (n : Nat) :
    ∃ path, readChars (cs ++ List.replicate n '/') = .ok { u with path } ∧
      ExtendsBySlashes path u.path := by
  induction n with
  | zero => exact ⟨u.path, by rw [List.replicate_zero, List.append_nil, h], 0, by simp⟩
  | succ n ih =>
      obtain ⟨path, hRead, k, hPath⟩ := ih
      have hLast : ∀ c ∈ (cs ++ List.replicate n '/').getLast?, 0x20 < c.toNat := by
        cases n with
        | zero => simpa using hEnd
        | succ n =>
            intro c hc
            rw [List.replicate_succ', ← List.append_assoc, List.getLast?_concat] at hc
            rw [← Option.mem_some_iff.1 hc]
            decide
      obtain ⟨longer, hLonger, j, hMore⟩ :=
        readChars_concat_slash hRead hWeb hQuery hFragment hLast
      refine ⟨longer, ?_, k + j, ?_⟩
      · rw [List.replicate_succ', ← List.append_assoc, hLonger]
      · rw [hMore, hPath, List.append_assoc, List.replicate_append_replicate]

end ControlClient.Url
