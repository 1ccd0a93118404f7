import ControlClient.Proofs.Base
import ControlClient.Proofs.Url.Slash

/-!
# The destination of a request

Whatever stands in the address of the service, a request goes there: joining always yields a URL, and that
URL has the scheme, the credentials, the host and the port of the address. How many slashes are written at
the end of an address makes no difference to any request, since the slashes at the end of its text are
dropped before the path of an endpoint is put behind it.

## Main results

* `join_append_slashes`: slashes at the end of an address do not change the text that is read.
* `destination_urlFor`: where requests go.
-/

namespace ControlClient.Base

open Url (IsWeb originText)

/-- The text of some slashes. -/
def slashes (n : Nat) : String := String.ofList (List.replicate n '/')

private theorem dropSlashes_append_replicate (cs : List Char) (n : Nat) :
    dropSlashes (cs ++ List.replicate n '/') = dropSlashes cs := by
  unfold dropSlashes
  rw [List.reverse_append, List.reverse_replicate,
    List.dropWhile_append_of_pos (by simp [List.mem_replicate])]

section Addresses

variable [DomainMapping] {text : String} {base : Base}

/-- **Slashes at the end of an address** that ends in its path do not change the text that is read for a
request. -/
theorem join_append_slashes (h : Base.read text = .ok base) (hWeb : IsWeb base.url.scheme)
    (hQuery : base.url.query? = none) (hFragment : base.url.fragment? = none)
    (hEnd : ∀ c ∈ text.toList.getLast?, 0x20 < c.toNat) (n : Nat) :
    ∃ longer, Base.read (text ++ slashes n) = .ok longer ∧
      ∀ path, longer.join path = base.join path := by
  obtain ⟨path, hRead, k, hPath⟩ :=
    Url.readChars_append_slashes (readChars_of_read h) hWeb hQuery hFragment hEnd n
  have hLonger : Base.read (text ++ slashes n) = .ok ⟨{ base.url with path }⟩ := by
    rw [Base.read, map_eq_ok_iff]
    refine ⟨_, readUrl_eq_ok_iff.2 ?_, rfl⟩
    rw [slashes, String.toList_append, String.toList_ofList, hRead]
  refine ⟨_, hLonger, fun endpoint => ?_⟩
  -- Neither address ends in a slash in front of its path.
  obtain ⟨a, parts, hSettled⟩ := isSettled_read h hWeb
  obtain ⟨a', parts', hSettled'⟩ := isSettled_read hLonger hWeb
  have hSame : a' = a := Option.some.inj (hSettled'.authority.symm.trans hSettled.authority)
  rw [← String.toList_inj, join_toList hSettled', join_toList hSettled, hSame]
  simp only [Url.tailText, hQuery, hFragment, Url.optionalPart, List.append_nil, hPath,
    dropSlashes_append_replicate]

/-- **Where requests go.** Behind every address of a web scheme every operation has a URL, with the scheme,
the credentials, the host and the port of the address. Slashes behind an address that has neither query nor
fragment, and that ends in no space and no control character, change no URL. -/
theorem destination_urlFor (h : Base.read text = .ok base) (hWeb : IsWeb base.url.scheme) :
    (∀ o : Operation, ∃ url a, base.urlFor o.request = .ok url ∧
      url.scheme = base.url.scheme ∧ base.url.authority? = some a ∧ url.authority? = some a) ∧
    (base.url.query? = none → base.url.fragment? = none →
      (∀ c ∈ text.toList.getLast?, 0x20 < c.toNat) →
      ∀ n, ∃ longer, Base.read (text ++ slashes n) = .ok longer ∧
        ∀ request, longer.urlFor request = base.urlFor request) := by
  constructor
  · intro o
    obtain ⟨a, parts, hSettled⟩ := isSettled_read h hWeb
    obtain ⟨url, hUrl, hScheme, hAuthority⟩ := urlFor_origin hSettled o.isVisiblePath
    exact ⟨url, a, hUrl, hScheme, hSettled.authority, hAuthority⟩
  · intro hQuery hFragment hEnd n
    obtain ⟨longer, hLonger, hJoin⟩ := join_append_slashes h hWeb hQuery hFragment hEnd n
    refine ⟨longer, hLonger, fun request => ?_⟩
    rw [urlFor, urlFor, hJoin]

end Addresses

/-- A mapping of domains that knows one name beyond ASCII. -/
@[reducible]
def knowingUmlaut : DomainMapping := .restrict fun name =>
  if name = "bücher.example".toList then some "xn--bcher-kva.example".toList
  else if Url.isAscii name then some (name.map Char.toLower)
  else none

/-- An address whose host is not ASCII, whose path leaves a place and whose credentials are encoded, with
three slashes behind it. -/
theorem destination_urlFor_leaving :
    ∃ base longer,
      @Base.read knowingUmlaut "HTTPS://u s:p@bücher.example:443/a\\b/.%2e" = .ok base ∧
      IsWeb base.url.scheme ∧ base.url.query? = none ∧ base.url.fragment? = none ∧
      (∀ c ∈ "HTTPS://u s:p@bücher.example:443/a\\b/.%2e".toList.getLast?, 0x20 < c.toNat) ∧
      base.url.text = "https://u%20s:p@xn--bcher-kva.example/a/" ∧
      @Base.read knowingUmlaut "HTTPS://u s:p@bücher.example:443/a\\b/.%2e///" = .ok longer ∧
      longer.url.text = "https://u%20s:p@xn--bcher-kva.example/a///" ∧
      ∃ url, @Base.urlFor knowingUmlaut longer (Operation.enable "t").request = .ok url ∧
        url.scheme = "https" ∧
        url.authority? = some ⟨"u%20s", "p", .name "xn--bcher-kva.example", none⟩ := by
  have hBase : @Base.read knowingUmlaut "HTTPS://u s:p@bücher.example:443/a\\b/.%2e" =
      .ok ⟨⟨"https", some ⟨"u%20s", "p", .name "xn--bcher-kva.example", none⟩,
        .segments ["a", ""], none, none⟩⟩ := by
    decide +kernel
  have hLonger : @Base.read knowingUmlaut "HTTPS://u s:p@bücher.example:443/a\\b/.%2e///" =
      .ok ⟨⟨"https", some ⟨"u%20s", "p", .name "xn--bcher-kva.example", none⟩,
        .segments ["a", "", "", ""], none, none⟩⟩ := by
    decide +kernel
  have hWeb : IsWeb "https" := .inr rfl
  have hEnd : ∀ c ∈ "HTTPS://u s:p@bücher.example:443/a\\b/.%2e".toList.getLast?, 0x20 < c.toNat := by
    intro c hc
    have hLast : "HTTPS://u s:p@bücher.example:443/a\\b/.%2e".toList.getLast? = some 'e' := by
      decide +kernel
    rw [hLast, Option.mem_some_iff] at hc
    rw [← hc]
    decide
  obtain ⟨hDestination, hSlashes⟩ := @destination_urlFor knowingUmlaut _ _ hBase hWeb
  obtain ⟨longer, hRead, hSame⟩ := hSlashes rfl rfl hEnd 3
  obtain ⟨url, a, hUrl, hScheme, hAuthority, hSent⟩ := hDestination (.enable "t")
  cases hRead.symm.trans hLonger
  rw [← hSame] at hUrl
  exact ⟨_, _, hBase, hWeb, rfl, rfl, hEnd, by decide +kernel, hLonger, by decide +kernel, url, hUrl,
    hScheme, hSent.trans hAuthority.symm⟩

end ControlClient.Base
