import ControlClient.Proofs.Except
import ControlClient.Proofs.Url.Host
import ControlClient.Url.Read

/-!
# Reading a URL that was written

A base URL is written and read again with the path of an endpoint behind it. What the first reading
yields is in its final form, so the second one finds the same scheme and the same authority, whatever
path follows: an authority is settled (`Authority.IsSettled`) when it was read, and a settled one reads
back. Only the two schemes with which requests are made are treated, both of them special.

## Main results

* `readAuthority_written`: a settled authority reads back.
* `readChars_origin`: scheme and authority read back, and a path follows.
* `isSettled_read`: what was read is settled.
-/

namespace ControlClient.Url

/-! ## Cutting at a sign -/

/-- What holds no sign goes in front of the cut. -/
theorem cutAt_append {sign : Char} {front : List Char} (h : sign ∉ front) (cs : List Char) :
    cutAt sign (front ++ cs) = (front ++ (cutAt sign cs).1, (cutAt sign cs).2) := by
  have hFront : ∀ c ∈ front, (c != sign) = true := by
    rintro c hc
    simpa using fun hEq : c = sign => h (hEq ▸ hc)
  simp only [cutAt, List.dropWhile_append_of_pos hFront, List.takeWhile_append_of_pos hFront]
  cases cs.dropWhile (· != sign) <;> rfl

theorem cutAt_of_not_mem {sign : Char} {cs : List Char} (h : sign ∉ cs) :
    cutAt sign cs = (cs, none) := by
  simpa [cutAt] using cutAt_append h []

theorem cutAt_append_cons {sign : Char} {front : List Char} (h : sign ∉ front) (cs : List Char) :
    cutAt sign (front ++ sign :: cs) = (front, some cs) := by
  rw [cutAt_append h]
  simp [cutAt]

/-! ## Hosts in front of ports -/

/-- Outside brackets a cut is made at the first colon. -/
private theorem splitHost_append {front : List Char} (h : ∀ c ∈ front, c ≠ ':' ∧ c ≠ '[')
    (rest : List Char) :
    splitHost false (front ++ rest) = (front ++ (splitHost false rest).1, (splitHost false rest).2) := by
  induction front with
  | nil => rfl
  | cons c front ih =>
      obtain ⟨hColon, hOpen⟩ := h c (by simp)
      have hRest := ih fun d hd => h d (List.mem_cons_of_mem _ hd)
      simp [splitHost, hColon, hOpen, hRest]

/-- Inside brackets no cut is made. -/
private theorem splitHost_inside {inner : List Char} (h : ']' ∉ inner) (rest : List Char) :
    splitHost true (inner ++ ']' :: rest) =
      (inner ++ ']' :: (splitHost false rest).1, (splitHost false rest).2) := by
  induction inner with
  | nil => simp [splitHost]
  | cons c inner ih =>
      rw [List.mem_cons, not_or] at h
      have hClose : c ≠ ']' := Ne.symm h.1
      simp [splitHost, hClose, ih h.2]

/-- A host ends where its port starts. -/
private theorem splitHost_written [DomainMapping] {host : Host} (h : host.IsSettled) {rest : List Char}
    (hRest : splitHost false rest = ([], rest)) :
    splitHost false (host.written ++ rest) = (host.written, rest) := by
  have hOutside : (∀ c ∈ host.written, c ≠ ':' ∧ c ≠ '[') →
      splitHost false (host.written ++ rest) = (host.written, rest) := by
    intro hPlain
    rw [splitHost_append hPlain, hRest, List.append_nil]
  cases h with
  | name hDomain _ _ =>
      refine hOutside fun c hc => ?_
      rw [Host.written, String.toList_ofList] at hc
      have hAllowed := hDomain.allowed c hc
      constructor <;> rintro rfl <;> exact absurd hAllowed (by decide)
  | ipv4 _ =>
      refine hOutside fun c hc => ?_
      rcases mem_ipv4Text hc with hDigit | rfl
      · constructor <;> rintro rfl <;> exact absurd hDigit (by decide)
      · decide
  | @ipv6 groups _ =>
      have hInner : ']' ∉ ipv6Text groups := by
        intro hIn
        rcases mem_ipv6Text hIn with ⟨d, hd, hEq⟩ | hEq
        · have hAll : ∀ e < 16, ']' ≠ Nat.digitChar e := by decide
          exact hAll d hd hEq
        · exact absurd hEq (by decide)
      have hWritten : (Host.ipv6 groups).written ++ rest =
          '[' :: (ipv6Text groups ++ ']' :: rest) := by
        simp [Host.written]
      rw [hWritten]
      have hOpen : splitHost false ('[' :: (ipv6Text groups ++ ']' :: rest)) =
          ('[' :: (splitHost true (ipv6Text groups ++ ']' :: rest)).1,
            (splitHost true (ipv6Text groups ++ ']' :: rest)).2) := by
        simp [splitHost]
      rw [hOpen, splitHost_inside hInner, hRest]
      rfl

/-! ## Authorities -/

/-- An authority that is in its final form under a scheme. -/
structure Authority.IsSettled [DomainMapping] (scheme : String) (a : Authority) : Prop where
  username : ∀ c ∈ a.username.toList, allowedInCredentials c = true
  password : ∀ c ∈ a.password.toList, allowedInCredentials c = true
  host : a.host.IsSettled
  port : ∀ port ∈ a.port?, port ≤ 65535 ∧ some port ≠ defaultPort? scheme

private theorem splitCredentials_of_not_mem {cs : List Char} (h : '@' ∉ cs) :
    splitCredentials cs = (none, cs) := by
  have hNone : cs.reverse.dropWhile (· != '@') = [] := by
    refine List.dropWhile_eq_nil_iff.2 fun c hc => ?_
    simpa using fun hEq : c = '@' => h (hEq ▸ List.mem_reverse.1 hc)
  simp only [splitCredentials, hNone]

private theorem splitCredentials_append (front : List Char) {cs : List Char} (h : '@' ∉ cs) :
    splitCredentials (front ++ '@' :: cs) = (some front, cs) := by
  have hPlain : ∀ c ∈ cs.reverse, (c != '@') = true := by
    intro c hc
    simpa using fun hEq : c = '@' => h (hEq ▸ List.mem_reverse.1 hc)
  have hReverse : (front ++ '@' :: cs).reverse = cs.reverse ++ '@' :: front.reverse := by simp
  have hDrop : (front ++ '@' :: cs).reverse.dropWhile (· != '@') = '@' :: front.reverse := by
    rw [hReverse, List.dropWhile_append_of_pos hPlain]
    simp
  have hTake : (front ++ '@' :: cs).reverse.takeWhile (· != '@') = cs.reverse := by
    rw [hReverse, List.takeWhile_append_of_pos hPlain]
    simp
  simp only [splitCredentials, hDrop, hTake, List.reverse_reverse]

/-- A port reads back. -/
private theorem readPort_digits {default? : Option Nat} {port : Nat} (hPort : port ≤ 65535)
    (hDefault : some port ≠ default?) :
    readPort default? (Text.digits port) = .ok (some port, []) := by
  have hDigits : ∀ c ∈ Text.digits port, c.isDigit = true := fun c => Text.isDigit_of_mem_digits
  have hTake := List.takeWhile_eq_self_iff.2 hDigits
  have hDrop := List.dropWhile_eq_nil_iff.2 hDigits
  have hIsEmpty : (Text.digits port).isEmpty = false := by simpa using Text.digits_ne_nil port
  have hFar : ¬65535 < port := by omega
  simp [readPort, hTake, hDrop, Text.ofDigits_digits, hIsEmpty, hFar, hDefault]

variable {scheme : String} {a : Authority}

private theorem at_not_mem_hostAndPort [DomainMapping] (h : a.IsSettled scheme) :
    '@' ∉ a.host.written ++ a.portText := by
  rw [List.mem_append]
  rintro (hHost | hPort)
  · exact absurd (plain_of_mem_written h.host hHost) (by decide)
  · unfold Authority.portText at hPort
    split at hPort
    · rcases List.mem_cons.1 hPort with hColon | hDigit
      · exact absurd hColon (by decide)
      · exact absurd (Text.isDigit_of_mem_digits hDigit) (by decide)
    · cases hPort

/-- User name and password read back. -/
private theorem splitCredentials_written [DomainMapping] (h : a.IsSettled scheme) :
    ∃ credentials? password?,
      splitCredentials a.written = (credentials?, a.host.written ++ a.portText) ∧
      credentials? ≠ some [] ∧
      cutAt ':' (credentials?.getD []) = (a.username.toList, password?) ∧
      password?.getD [] = a.password.toList := by
  have hUser : ':' ∉ a.username.toList := fun hIn => absurd (h.username ':' hIn) (by decide)
  have hTail := at_not_mem_hostAndPort h
  by_cases hNone : a.username = "" ∧ a.password = ""
  · have hWritten : a.written = a.host.written ++ a.portText := by
      simp [Authority.written, Authority.credentials, hNone]
    refine ⟨none, none, ?_, by simp, ?_, ?_⟩
    · rw [hWritten, splitCredentials_of_not_mem hTail]
    · simp [cutAt, hNone.1]
    · simp [hNone.2]
  by_cases hPassword : a.password = ""
  · have hName : a.username ≠ "" := fun hEq => hNone ⟨hEq, hPassword⟩
    have hWritten : a.written = a.username.toList ++ '@' :: (a.host.written ++ a.portText) := by
      simp [Authority.written, Authority.credentials, hName, hPassword]
    refine ⟨some a.username.toList, none, ?_, ?_, ?_, ?_⟩
    · rw [hWritten, splitCredentials_append _ hTail]
    · simpa using hName
    · exact cutAt_of_not_mem hUser
    · simp [hPassword]
  · have hWritten : a.written =
        (a.username.toList ++ ':' :: a.password.toList) ++ '@' :: (a.host.written ++ a.portText) := by
      simp [Authority.written, Authority.credentials, hPassword]
    refine ⟨some (a.username.toList ++ ':' :: a.password.toList), some a.password.toList,
      ?_, by simp, ?_, rfl⟩
    · rw [hWritten, splitCredentials_append _ hTail]
    · exact cutAt_append_cons hUser _

private theorem splitHost_portText (a : Authority) :
    splitHost false a.portText = ([], a.portText) := by
  unfold Authority.portText
  split <;> simp [splitHost]

/-- **A settled authority reads back.** -/
theorem readAuthority_written [DomainMapping] (hSpecial : isSpecial scheme = true)
    (h : a.IsSettled scheme) (somethingFollows : Bool) :
    readAuthority scheme a.written somethingFollows = .ok (a, []) := by
  obtain ⟨credentials?, password?, hSplit, hSome, hCut, hPassword⟩ := splitCredentials_written h
  have hHostText := splitHost_written h.host (splitHost_portText a)
  have hIsEmpty : a.host.written.isEmpty = false := by simpa using written_ne_nil h.host
  have hName : a.host ≠ .name "" := by
    intro hEq
    exact written_ne_nil h.host (by rw [hEq]; rfl)
  have hUserText := percentEncode_of_forall h.username
  have hPasswordText := percentEncode_of_forall h.password
  simp only [readAuthority, hSpecial, hSplit, hSome, hCut, hPassword, hHostText, hIsEmpty,
    domainHost_written h.host, hUserText, hPasswordText, decide_false, Bool.false_and,
    Bool.and_false, Bool.false_eq_true, if_false, if_true, String.ofList_toList]
  cases hPort : a.port? with
  | none =>
      have hText : a.portText = [] := by rw [Authority.portText, hPort]
      simp only [hText, bind, Except.bind, pure, Except.pure, hName, decide_false, Bool.false_and,
        Bool.false_eq_true, if_false, ← hPort]
  | some port =>
      have hText : a.portText = ':' :: Text.digits port := by rw [Authority.portText, hPort]
      obtain ⟨hRange, hDefault⟩ := h.port port hPort
      simp only [hText, bind, Except.bind, pure, Except.pure, hName, decide_false, Bool.false_and,
        Bool.false_eq_true, if_false, readPort_digits hRange hDefault, ← hPort]

/-! ## What is read is settled -/

private theorem readPort_spec {default? port? : Option Nat} {cs rest : List Char}
    (h : readPort default? cs = .ok (port?, rest)) :
    ∀ port ∈ port?, port ≤ 65535 ∧ some port ≠ default? := by
  unfold readPort at h
  dsimp only at h
  split at h
  · cases h
  next hRange =>
  split at h
  · cases h
  split at h
  · cases h
    simp
  · next hKept =>
      cases h
      simp only [Bool.or_eq_true, decide_eq_true_eq, not_or] at hKept
      rintro port hEq
      cases Option.mem_some_iff.1 hEq
      exact ⟨by omega, hKept.2⟩

private theorem allowed_encoded (text : List Char) :
    ∀ c ∈ (String.ofList (percentEncode allowedInCredentials text)).toList,
      allowedInCredentials c = true := by
  intro c hc
  rw [String.toList_ofList] at hc
  exact allowed_of_mem_percentEncode allowsCodes_credentials hc

/-- An authority that was read is settled. -/
theorem isSettled_readAuthority [DomainMapping] (hSpecial : isSpecial scheme = true)
    {cs left : List Char} {somethingFollows : Bool}
    (h : readAuthority scheme cs somethingFollows = .ok (a, left)) :
    a.IsSettled scheme := by
  simp only [readAuthority, hSpecial, guard_eq_ok_iff, bind_eq_ok_iff, if_true] at h
  obtain ⟨-, -, host, hHost, -, hPortAndRest⟩ := h
  have hHostSettled := isSettled_domainHost hHost
  split at hPortAndRest
  · simp only [bind_eq_ok_iff, guard_eq_ok_iff] at hPortAndRest
    obtain ⟨⟨port?, rest⟩, hPort, -, hEnd⟩ := hPortAndRest
    cases hEnd
    exact ⟨allowed_encoded _, allowed_encoded _, hHostSettled, readPort_spec hPort⟩
  · simp only [bind_eq_ok_iff, guard_eq_ok_iff] at hPortAndRest
    obtain ⟨⟨port?, rest⟩, hPort, -, hEnd⟩ := hPortAndRest
    cases hPort
    cases hEnd
    exact ⟨allowed_encoded _, allowed_encoded _, hHostSettled, by simp⟩

/-! ## Characters of authorities -/

/-- What may stand in a settled authority. -/
def isPlainInAuthority (c : Char) : Bool := isVisible c && !(['#', '/', '?', '\\'].contains c)

private theorem plain_of_credentials {c : Char} (h : allowedInCredentials c = true) :
    isPlainInAuthority c = true := by
  have hVisible := isVisible_of_credentials h
  rw [isVisible, Bool.and_eq_true, decide_eq_true_eq, decide_eq_true_eq] at hVisible
  exact Text.Utf8.forall_ascii (P := fun c => allowedInCredentials c = true →
    isPlainInAuthority c = true) (by decide) (by omega) h

private theorem plain_of_host {c : Char} (h : isPlainInHost c = true) :
    isPlainInAuthority c = true := by
  have hVisible := h
  rw [isPlainInHost, Bool.and_eq_true, Bool.and_eq_true, decide_eq_true_eq,
    decide_eq_true_eq] at hVisible
  exact Text.Utf8.forall_ascii (P := fun c => isPlainInHost c = true →
    isPlainInAuthority c = true) (by decide) (by omega) h

/-- An authority holds no delimiter of the parts around it. -/
theorem plain_of_mem_authority [DomainMapping] (h : a.IsSettled scheme) {c : Char} (hc : c ∈ a.written) :
    isPlainInAuthority c = true := by
  rw [Authority.written, List.mem_append, List.mem_append] at hc
  rcases hc with (hCredentials | hHost) | hPort
  · unfold Authority.credentials at hCredentials
    split at hCredentials
    · cases hCredentials
    rw [List.mem_append, List.mem_append, List.mem_singleton] at hCredentials
    rcases hCredentials with (hName | hPassword) | rfl
    · exact plain_of_credentials (h.username c hName)
    · split at hPassword
      · cases hPassword
      rcases List.mem_cons.1 hPassword with rfl | hIn
      · decide
      · exact plain_of_credentials (h.password c hIn)
    · decide
  · exact plain_of_host (plain_of_mem_written h.host hHost)
  · unfold Authority.portText at hPort
    split at hPort
    · rcases List.mem_cons.1 hPort with rfl | hDigit
      · decide
      · have hIsDigit := Text.isDigit_of_mem_digits hDigit
        exact Text.Utf8.forall_ascii (P := fun c => c.isDigit = true →
          isPlainInAuthority c = true) (by decide) (Text.Utf8.toNat_lt_of_isDigit hIsDigit) hIsDigit
    · cases hPort

theorem authority_ne_nil [DomainMapping] (h : a.IsSettled scheme) : a.written ≠ [] := by
  have hHost := written_ne_nil h.host
  simp [Authority.written, hHost]

/-! ## Whole URLs -/

/-- Nothing is dropped from visible characters. -/
theorem clean_of_visible {cs : List Char} (h : ∀ c ∈ cs, isVisible c = true) : clean cs = cs := by
  have hEdge : ∀ c ∈ cs, ¬c.toNat ≤ 0x20 := by
    intro c hc
    have hVisible := h c hc
    rw [isVisible, Bool.and_eq_true, decide_eq_true_eq] at hVisible
    omega
  have hKeep : ∀ ds : List Char, (∀ c ∈ ds, ¬c.toNat ≤ 0x20) →
      ds.dropWhile (fun c => decide (c.toNat ≤ 0x20)) = ds := by
    intro ds hds
    cases ds with
    | nil => rfl
    | cons d rest => rw [List.dropWhile_cons_of_neg (by simpa using hds d (by simp))]
  have hFilter : ∀ c ∈ cs, (c != '\t' && c != '\n' && c != '\r') = true := by
    intro c hc
    simp only [Bool.and_eq_true, bne_iff_ne]
    refine ⟨⟨?_, ?_⟩, ?_⟩ <;> rintro rfl <;> exact hEdge _ hc (by decide)
  simp only [clean, hKeep cs hEdge, hKeep cs.reverse (by simpa using hEdge), List.reverse_reverse]
  exact List.filter_eq_self.2 hFilter

/-- The schemes with which requests are made. -/
def IsWeb (scheme : String) : Prop := scheme = "http" ∨ scheme = "https"

theorem IsWeb.isSpecial (h : IsWeb scheme) : isSpecial scheme = true := by
  rcases h with rfl | rfl <;> decide

theorem IsWeb.ne_file (h : IsWeb scheme) : scheme ≠ "file" := by
  rcases h with rfl | rfl <;> decide

private theorem splitScheme?_web (h : IsWeb scheme) (rest : List Char) :
    splitScheme? (scheme.toList ++ ':' :: rest) = some (scheme, rest) := by
  rcases h with rfl | rfl
  · rfl
  · rfl

private theorem hierarchy_front_plain [DomainMapping] (h : a.IsSettled scheme) (sign : Char)
    (hSign : isPlainInAuthority sign = false) (hSlash : sign ≠ '/') :
    sign ∉ '/' :: '/' :: (a.written ++ ['/']) := by
  simp only [List.mem_cons, List.mem_append, List.not_mem_nil, or_false, not_or]
  refine ⟨hSlash, hSlash, fun hIn => ?_, hSlash⟩
  rw [plain_of_mem_authority h hIn] at hSign
  cases hSign

/-- Authority and path of what starts with a settled authority. -/
private theorem readHierarchy_origin [DomainMapping] (hScheme : IsWeb scheme) (h : a.IsSettled scheme)
    (more : List Char) (somethingFollows : Bool) :
    readHierarchy scheme ('/' :: '/' :: (a.written ++ '/' :: more)) somethingFollows =
      .ok (some a, pathOf true more) := by
  have hPlain : ∀ c ∈ a.written, (!(decide (c = '/') || decide (c = '\\'))) = true := by
    intro c hc
    have hc := plain_of_mem_authority h hc
    simp only [Bool.not_eq_true', Bool.or_eq_false_iff, decide_eq_false_iff_not]
    constructor <;> rintro rfl <;> exact absurd hc (by decide)
  have hStart : ('/' :: '/' :: (a.written ++ '/' :: more)).dropWhile
      (fun c => decide (c = '/') || decide (c = '\\')) = a.written ++ '/' :: more := by
    obtain ⟨c, rest, hWritten⟩ := List.exists_cons_of_ne_nil (authority_ne_nil h)
    have hc := hPlain c (by simp [hWritten])
    rw [Bool.not_eq_true'] at hc
    simp [hWritten, hc]
  have hTake : (a.written ++ '/' :: more).takeWhile
      (fun c => !(decide (c = '/') || decide (c = '\\'))) = a.written := by
    rw [List.takeWhile_append_of_pos hPlain]
    simp
  have hDrop : (a.written ++ '/' :: more).dropWhile
      (fun c => !(decide (c = '/') || decide (c = '\\'))) = '/' :: more := by
    rw [List.dropWhile_append_of_pos hPlain]
    simp
  simp only [readHierarchy, if_neg hScheme.ne_file, hScheme.isSpecial, if_true, hStart, hTake,
    hDrop, readAuthority_written hScheme.isSpecial h, bind, Except.bind, pure, Except.pure,
    pathAfterAuthority, List.nil_append]

/-- The characters in front of a path. -/
def originText (scheme : String) (a : Authority) : List Char :=
  scheme.toList ++ ':' :: '/' :: '/' :: a.written

private theorem visible_of_scheme (hScheme : IsWeb scheme) :
    ∀ c ∈ scheme.toList, isVisible c = true := by
  have hAll : scheme.toList.all isVisible = true := by
    rcases hScheme with rfl | rfl <;> decide
  exact List.all_eq_true.1 hAll

theorem visible_of_mem_originText [DomainMapping] (hScheme : IsWeb scheme) (h : a.IsSettled scheme) :
    ∀ c ∈ originText scheme a, isVisible c = true := by
  intro c hc
  simp only [originText, List.mem_append, List.mem_cons] at hc
  rcases hc with hName | rfl | rfl | rfl | hAuthority
  · exact visible_of_scheme hScheme c hName
  · decide
  · decide
  · decide
  · have hPlain := plain_of_mem_authority h hAuthority
    rw [isPlainInAuthority, Bool.and_eq_true] at hPlain
    exact hPlain.1

/-- **Scheme and authority read back**, and what stands behind them is path, query and fragment. -/
theorem readChars_origin [DomainMapping] (hScheme : IsWeb scheme) (h : a.IsSettled scheme)
    {more : List Char} (hMore : ∀ c ∈ more, isVisible c = true) :
    readChars (originText scheme a ++ '/' :: more) = .ok {
      scheme, authority? := some a
      path := pathOf true (cutAt '?' (cutAt '#' more).1).1
      query? := (cutAt '?' (cutAt '#' more).1).2.map fun cs =>
        String.ofList (percentEncode allowedInSpecialQuery cs)
      fragment? := (cutAt '#' more).2.map fun cs =>
        String.ofList (percentEncode allowedInFragment cs) } := by
  have hVisible : ∀ c ∈ originText scheme a ++ '/' :: more, isVisible c = true := by
    intro c hc
    rw [List.mem_append, List.mem_cons] at hc
    rcases hc with hOrigin | rfl | hIn
    · exact visible_of_mem_originText hScheme h c hOrigin
    · decide
    · exact hMore c hIn
  have hText : originText scheme a ++ '/' :: more =
      scheme.toList ++ ':' :: ('/' :: '/' :: (a.written ++ ['/']) ++ more) := by
    simp [originText]
  have hFragment := cutAt_append (hierarchy_front_plain h '#' (by decide) (by decide)) more
  have hQuery := cutAt_append (hierarchy_front_plain h '?' (by decide) (by decide))
    (cutAt '#' more).1
  have hFront : ∀ path : List Char,
      '/' :: '/' :: (a.written ++ ['/']) ++ path = '/' :: '/' :: (a.written ++ '/' :: path) := by
    simp
  rw [readChars, clean_of_visible hVisible, hText, splitScheme?_web hScheme]
  simp only [hFragment, hQuery]
  rw [hFront, readHierarchy_origin hScheme h]
  simp only [bind, Except.bind, pure, Except.pure, hScheme.isSpecial, if_true]

/-! ## What is read is settled as a whole -/

/-- A URL of a web scheme in its final form, with its authority and the segments of its path. -/
structure IsSettled [DomainMapping] (u : Url) (a : Authority) (parts : List String) : Prop where
  web : IsWeb u.scheme
  authority : u.authority? = some a
  settled : a.IsSettled u.scheme
  path : u.path = .segments parts
  rooted : parts ≠ []
  parts : ∀ part ∈ parts, ∀ c ∈ part.toList, allowedInPath c = true
  query : ∀ query ∈ u.query?, ∀ c ∈ query.toList, allowedInSpecialQuery c = true
  fragment : ∀ fragment ∈ u.fragment?, ∀ c ∈ fragment.toList, allowedInFragment c = true

private theorem walk_ne_nil (keepsDrive : Bool) (standing segments : List (List Char))
    (h : segments ≠ []) : walk keepsDrive standing segments ≠ [] := by
  induction segments generalizing standing with
  | nil => exact absurd rfl h
  | cons segment rest ih =>
      cases rest with
      | nil =>
          unfold walk
          split
          · simp
          · split <;> simp
      | cons next rest =>
          unfold walk
          split
          · exact ih _ (by simp)
          · split
            · exact ih _ (by simp)
            · exact ih _ (by simp)

/-- A path in a special scheme has a segment, and what its segments hold may stand in a path. -/
private theorem pathOf_spec (cs : List Char) :
    ∃ parts, pathOf true cs = .segments parts ∧ parts ≠ [] ∧
      ∀ part ∈ parts, ∀ c ∈ part.toList, allowedInPath c = true := by
  refine ⟨_, rfl, ?_, ?_⟩
  · have hRaw : rawSegments true cs ≠ [] := Text.splitAll_ne_nil _ _
    simpa using walk_ne_nil false [] _ hRaw
  · intro part hPart c hc
    simp only [List.map_map, List.mem_map] at hPart
    obtain ⟨segment, -, rfl⟩ := hPart
    rw [Function.comp, String.toList_ofList] at hc
    exact allowed_of_mem_percentEncode allowsCodes_path hc

private theorem pathAfterAuthority_eq (cs : List Char) :
    ∃ rest, pathAfterAuthority true cs = pathOf true rest := by
  unfold pathAfterAuthority
  split
  · exact ⟨_, rfl⟩
  · exact ⟨_, rfl⟩
  · exact ⟨_, rfl⟩
  · exact ⟨_, rfl⟩

/-- The parts of a URL of a web scheme that was read. -/
theorem readChars_parts [DomainMapping] {input : List Char} {u : Url} (h : readChars input = .ok u)
    (hWeb : IsWeb u.scheme) :
    ∃ a cs, u.authority? = some a ∧ a.IsSettled u.scheme ∧ u.path = pathOf true cs ∧
      (∀ query ∈ u.query?, ∀ c ∈ query.toList, allowedInSpecialQuery c = true) ∧
      ∀ fragment ∈ u.fragment?, ∀ c ∈ fragment.toList, allowedInFragment c = true := by
  unfold readChars at h
  split at h
  · cases h
  next scheme rest hScheme =>
  simp only [bind_eq_ok_iff] at h
  obtain ⟨⟨authority?, path⟩, hHierarchy, hUrl⟩ := h
  cases hUrl
  have hWeb : IsWeb scheme := hWeb
  simp only [readHierarchy, if_neg hWeb.ne_file, hWeb.isSpecial, if_true, bind_eq_ok_iff] at hHierarchy
  obtain ⟨⟨a, left⟩, hAuthority, hEnd⟩ := hHierarchy
  cases hEnd
  obtain ⟨cs, hPath⟩ := pathAfterAuthority_eq
    (left ++ (((cutAt '?' (cutAt '#' rest).1).1.dropWhile fun c =>
      decide (c = '/') || decide (c = '\\')).dropWhile fun c =>
        !(decide (c = '/') || decide (c = '\\'))))
  refine ⟨a, cs, rfl, isSettled_readAuthority hWeb.isSpecial hAuthority, hPath, ?_, ?_⟩
  · intro query hQuery c hc
    rw [Option.mem_def, Option.map_eq_some_iff] at hQuery
    obtain ⟨cs, -, rfl⟩ := hQuery
    rw [if_pos hWeb.isSpecial, String.toList_ofList] at hc
    exact allowed_of_mem_percentEncode allowsCodes_specialQuery hc
  · intro fragment hFragment c hc
    rw [Option.mem_def, Option.map_eq_some_iff] at hFragment
    obtain ⟨cs, -, rfl⟩ := hFragment
    rw [String.toList_ofList] at hc
    exact allowed_of_mem_percentEncode allowsCodes_fragment hc

/-- **What was read is settled.** -/
theorem isSettled_readChars [DomainMapping] {input : List Char} {u : Url} (h : readChars input = .ok u)
    (hWeb : IsWeb u.scheme) : ∃ a parts, u.IsSettled a parts := by
  obtain ⟨a, cs, hAuthority, hSettled, hPath, hQuery, hFragment⟩ := readChars_parts h hWeb
  obtain ⟨parts, hParts, hRooted, hAllowed⟩ := pathOf_spec cs
  exact ⟨a, parts, hWeb, hAuthority, hSettled, hPath.trans hParts, hRooted, hAllowed, hQuery,
    hFragment⟩

end ControlClient.Url
