import ControlClient.Proofs.Text.Utf8
import ControlClient.Proofs.Url.Address
import ControlClient.Proofs.Url.Percent
import ControlClient.Url.Host

/-!
# Hosts read back

The host of a special scheme is brought into a form in which it is compared, and is written in that
form. Reading it again therefore has nothing left to do: a domain is in ASCII and in lower case already,
what a mapping of domains yields is mapped to itself, and addresses are in their only form.

## Main results

* `domainToAscii?_idempotent`: a domain in ASCII is its own form in ASCII.
* `domainHost_written`: a host reads back.
* `plain_of_mem_written`: a host holds no delimiter of the parts around it.
-/

namespace ControlClient.Url

/-! ## Characters -/

/-- What may stand in the host of a special scheme. -/
def isPlainInHost (c : Char) : Bool :=
  0x20 < c.toNat && c.toNat < 0x7F && !(['#', '%', '/', '?', '@', '\\'].contains c)

private theorem isPlainInHost_of_allowed {c : Char} (hAscii : c.toNat < 0x80)
    (h : isForbiddenInDomain c = false) : isPlainInHost c = true := by
  simp only [isForbiddenInDomain, Bool.or_eq_false_iff, decide_eq_false_iff_not,
    List.contains_eq_mem, List.mem_cons, not_or] at h
  simp only [isPlainInHost, Bool.and_eq_true, decide_eq_true_eq, Bool.not_eq_true',
    List.contains_eq_mem, List.mem_cons, decide_eq_false_iff_not, not_or]
  have hCode := h.1.2
  refine ⟨⟨by omega, by omega⟩, ?_⟩
  tauto

/-- Digits and dots may stand in a domain and are not folded. -/
private theorem digit_or_dot_plain {c : Char} (h : c.isDigit = true ∨ c = '.') :
    c.toNat < 0x80 ∧ c ≠ 'x' ∧ isForbiddenInDomain c = false ∧ c.toLower = c := by
  rcases h with hDigit | rfl
  · exact Text.Utf8.forall_ascii (P := fun c => c.isDigit = true →
        c.toNat < 0x80 ∧ c ≠ 'x' ∧ isForbiddenInDomain c = false ∧ c.toLower = c)
      (by decide) (Text.Utf8.toNat_lt_of_isDigit hDigit) hDigit
  · decide

private theorem ipv4Text_ne_nil (address : Nat) : ipv4Text address ≠ [] := by
  simp [ipv4Text]

theorem isAscii_iff {cs : List Char} : isAscii cs = true ↔ ∀ c ∈ cs, c.toNat < 0x80 := by
  simp [isAscii]

/-- Folding letters twice is folding them once. -/
private theorem map_toLower_twice (cs : List Char) :
    (cs.map Char.toLower).map Char.toLower = cs.map Char.toLower := by
  simp [Function.comp_def, Char.toLower_toLower_eq_toLower]

/-- Folding the letters of a plain domain leaves it plain. -/
private theorem isPlainDomain_lower {cs : List Char} (h : isPlainDomain cs = true) :
    isPlainDomain (cs.map Char.toLower) = true := by
  simp only [isPlainDomain, Bool.and_eq_true, isAscii_iff, map_toLower_twice] at h ⊢
  refine ⟨fun c hc => ?_, h.2⟩
  obtain ⟨source, hSource, rfl⟩ := List.mem_map.1 hc
  exact Text.Utf8.forall_ascii (P := fun c => c.toLower.toNat < 0x80) (by decide) (h.1 source hSource)

/-! ## Domains -/

variable [DomainMapping]

/-- A domain in ASCII. -/
structure IsSettledDomain (domain : List Char) : Prop where
  ascii : ∀ c ∈ domain, c.toNat < 0x80
  allowed : ∀ c ∈ domain, isForbiddenInDomain c = false
  settled : domainToAscii? domain = some domain

/-- Letters folded already, a plain domain is its own form in ASCII. -/
private theorem isSettledDomain_of_plain {domain : List Char} (hPlain : isPlainDomain domain = true)
    (hLower : domain.map Char.toLower = domain)
    (hAllowed : ∀ c ∈ domain, isForbiddenInDomain c = false) : IsSettledDomain domain := by
  refine ⟨isAscii_iff.1 (Bool.and_eq_true _ _ ▸ hPlain).1, hAllowed, ?_⟩
  simpa [domainToAscii?, hPlain, hLower] using hAllowed

/-- **A domain in ASCII is its own form in ASCII.** -/
theorem domainToAscii?_idempotent {cs domain : List Char} (h : domainToAscii? cs = some domain) :
    IsSettledDomain domain := by
  obtain ⟨hDomain, hNone⟩ := Option.filter_eq_some_iff.1 h
  have hAllowed : ∀ c ∈ domain, isForbiddenInDomain c = false := by simpa using hNone
  split at hDomain
  · next hPlain =>
      cases hDomain
      exact isSettledDomain_of_plain (isPlainDomain_lower hPlain) (map_toLower_twice cs) hAllowed
  · have hLower := DomainMapping.lower_of_toAscii? hDomain
    have hAscii := isAscii_iff.1 (DomainMapping.isAscii_of_toAscii? hDomain)
    -- Folded already or mapped to itself, the domain stays what it is either way.
    refine ⟨hAscii, hAllowed, ?_⟩
    by_cases hPlain : isPlainDomain domain = true
    · exact (isSettledDomain_of_plain hPlain hLower hAllowed).settled
    · simpa [domainToAscii?, hPlain, DomainMapping.toAscii?_idempotent hDomain] using hAllowed

/-! ## Hosts -/

/-- A host of a special scheme in the form in which it is compared. -/
inductive Host.IsSettled : Host → Prop where
  | name {domain : List Char} (hDomain : IsSettledDomain domain) (hNe : domain ≠ [])
      (hNumber : endsInNumber domain = false) : IsSettled (.name (String.ofList domain))
  | ipv4 {address : Nat} (hAddress : address < 2 ^ 32) : IsSettled (.ipv4 address)
  | ipv6 {groups : List Nat} (hGroups : IsGroups groups) : IsSettled (.ipv6 groups)

theorem isSettled_bracketed {cs : List Char} {host : Host} (h : bracketed cs = .ok host) :
    host.IsSettled := by
  unfold bracketed at h
  split at h
  · split at h
    · next groups hGroups =>
        cases h
        exact .ipv6 (ipv6?_groups hGroups)
    · cases h
  · cases h

/-- A host that was read is settled. -/
theorem isSettled_domainHost {cs : List Char} {host : Host} (h : domainHost cs = .ok host) :
    host.IsSettled := by
  unfold domainHost at h
  split at h
  · exact isSettled_bracketed h
  split at h
  · cases h
  next domain hDomain =>
  split at h
  · cases h
  next hNe =>
  split at h
  · split at h
    · next address hAddress =>
        cases h
        exact .ipv4 (ipv4?_lt hAddress)
    · cases h
  · next hNumber =>
      cases h
      exact .name (domainToAscii?_idempotent hDomain) (by simpa using hNe) (by simpa using hNumber)

/-- A domain is read as it stands. -/
private theorem domainHost_of_settled {domain : List Char} (h : IsSettledDomain domain)
    (hNe : domain ≠ []) :
    (endsInNumber domain = false → domainHost domain = .ok (.name (String.ofList domain))) ∧
      ∀ address, endsInNumber domain = true → ipv4? domain = some address →
        domainHost domain = .ok (.ipv4 address) := by
  have hBracket : domain.head? ≠ some '[' := by
    intro hHead
    exact absurd (h.allowed '[' (List.mem_of_head? hHead)) (by decide)
  have hPercent : '%' ∉ domain := fun hIn => absurd (h.allowed '%' hIn) (by decide)
  have hIsEmpty : domain.isEmpty = false := by simpa using hNe
  constructor
  · intro hName
    simp only [domainHost, if_neg hBracket, percentDecode_of_not_mem hPercent,
      Text.Utf8.decodeLossy_encode, h.settled, hIsEmpty, hName, Bool.false_eq_true, if_false]
  · intro address hNumber hAddress
    simp only [domainHost, if_neg hBracket, percentDecode_of_not_mem hPercent,
      Text.Utf8.decodeLossy_encode, h.settled, hIsEmpty, hNumber, hAddress, Bool.false_eq_true,
      if_false, if_true]

/-- A short address is a domain. -/
private theorem isSettledDomain_ipv4Text (address : Nat) : IsSettledDomain (ipv4Text address) := by
  have hEach := fun c (hc : c ∈ ipv4Text address) => digit_or_dot_plain (mem_ipv4Text hc)
  have hLower : (ipv4Text address).map Char.toLower = ipv4Text address :=
    (List.map_congr_left fun c hc => (hEach c hc).2.2.2).trans (List.map_id' _)
  refine isSettledDomain_of_plain ?_ hLower fun c hc => (hEach c hc).2.2.1
  simp only [isPlainDomain, hLower, Bool.and_eq_true, isAscii_iff, Bool.not_eq_true',
    List.any_eq_false]
  refine ⟨fun c hc => (hEach c hc).1, fun label hLabel hEncoded => ?_⟩
  have hIn : 'x' ∈ label.take 4 := by
    rw [beq_iff_eq.1 hEncoded]
    decide
  exact (hEach 'x' (Text.mem_of_mem_splitAll hLabel (List.mem_of_mem_take hIn))).2.1 rfl

/-- **A host reads back.** -/
theorem domainHost_written {host : Host} (h : host.IsSettled) :
    domainHost host.written = .ok host := by
  cases h with
  | name hDomain hNe hNumber =>
      rw [Host.written, String.toList_ofList]
      exact (domainHost_of_settled hDomain hNe).1 hNumber
  | @ipv4 address hAddress =>
      exact (domainHost_of_settled (isSettledDomain_ipv4Text address) (ipv4Text_ne_nil address)).2
        address (endsInNumber_ipv4Text address) (ipv4?_ipv4Text hAddress)
  | @ipv6 groups hGroups =>
      have hInner : ((('[' :: ipv6Text groups ++ [']']).drop 1).dropLast) = ipv6Text groups := by
        simp
      have hHead : ('[' :: ipv6Text groups ++ [']']).head? = some '[' := rfl
      have hLast : ('[' :: ipv6Text groups ++ [']']).getLast? = some ']' := List.getLast?_concat
      rw [Host.written, domainHost, if_pos hHead, bracketed, if_pos hLast, hInner,
        ipv6?_ipv6Text hGroups]

/-! ## Characters of hosts -/

/-- A host holds no delimiter of the parts around it. -/
theorem plain_of_mem_written {host : Host} (h : host.IsSettled) {c : Char}
    (hc : c ∈ host.written) : isPlainInHost c = true := by
  cases h with
  | name hDomain _ _ =>
      rw [Host.written, String.toList_ofList] at hc
      exact isPlainInHost_of_allowed (hDomain.ascii c hc) (hDomain.allowed c hc)
  | ipv4 _ =>
      obtain ⟨hAscii, -, hAllowed, -⟩ := digit_or_dot_plain (mem_ipv4Text hc)
      exact isPlainInHost_of_allowed hAscii hAllowed
  | ipv6 _ =>
      rw [Host.written, List.mem_append, List.mem_cons, List.mem_singleton] at hc
      rcases hc with (rfl | hInner) | rfl
      · decide
      · rcases mem_ipv6Text hInner with ⟨d, hd, rfl⟩ | rfl
        · have hAll : ∀ e < 16, isPlainInHost (Nat.digitChar e) = true := by decide
          exact hAll d hd
        · decide
      · decide

theorem written_ne_nil {host : Host} (h : host.IsSettled) : host.written ≠ [] := by
  cases h with
  | name _ hNe _ => rwa [Host.written, String.toList_ofList]
  | ipv4 _ => exact ipv4Text_ne_nil _
  | ipv6 _ => simp [Host.written]

end ControlClient.Url
