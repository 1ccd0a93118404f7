import ControlClient.Proofs.Base
import Mathlib.Data.List.Induction

/-!
# Where a request goes

The path of an endpoint is put behind the text of the base as it is written. If that text ends in the
path of the base, the new path is the one of the base, without the slashes at its end, and then the one of
the endpoint. If it ends in a query or a fragment, the endpoint goes into that, and the path of the base is
left as it was: such a request is sent to another path than the endpoint's.

## Main results

* `readUrl_join_of_plain`, `readUrl_join_of_query`, `readUrl_join_of_fragment`: what the joined text is
  read as.
* `path_urlFor`: the path of a request.
* `endpoint_in_query`: a request that does not go to its endpoint.
-/

namespace ControlClient

open Url (IsWeb IsSettledSegment)

theorem Url.path_appendPairs (u : Url) (pairs : List (String × String)) :
    (u.appendPairs pairs).path = u.path := by
  unfold Url.appendPairs
  split <;> rfl

namespace Base

/-- The base of a web scheme is canonical. -/
theorem isCanonical_read [DomainMapping] {text : String} {base : Base} (h : Base.read text = .ok base)
    (hWeb : IsWeb base.url.scheme) : ∃ a parts, base.url.IsCanonical a parts :=
  Url.isCanonical_readChars (readChars_of_read h) hWeb

/-! ## Slashes at the end of a path -/

/-- The slashes at the end of a path are its last segments, all of them empty. -/
theorem dropSlashes_segments {parts : List String}
    (h : ∀ part ∈ parts, IsSettledSegment part.toList) :
    ∃ kept, kept <+: parts ∧
      dropSlashes (Url.Path.segments parts).written = (Url.Path.segments kept).written := by
  induction parts using List.reverseRecOn with
  | nil => exact ⟨[], List.prefix_refl _, rfl⟩
  | append_singleton front last ih =>
      have hWritten : (Url.Path.segments (front ++ [last])).written =
          (Url.Path.segments front).written ++ '/' :: last.toList := by
        simp [Url.Path.written]
      obtain ⟨kept, hKept, hDrop⟩ := ih fun part hPart => h part (List.mem_append_left _ hPart)
      by_cases hEmpty : last.toList = []
      · refine ⟨kept, hKept.trans (List.prefix_append _ _), ?_⟩
        rw [hWritten, hEmpty, ← hDrop]
        simp [dropSlashes]
      · refine ⟨front ++ [last], List.prefix_refl _, ?_⟩
        have hLast : ∀ c ∈ (Url.Path.segments (front ++ [last])).written.getLast?, c ≠ '/' := by
          intro c hc
          rw [hWritten, List.getLast?_append_of_ne_nil _ (by simp),
            List.getLast?_cons_of_ne_nil hEmpty] at hc
          rintro rfl
          exact (h last (by simp)).slash (List.mem_of_getLast? hc)
        have hWhole := dropSlashes_append hLast []
        have hNothing : dropSlashes [] = [] := rfl
        rwa [hNothing, List.append_nil] at hWhole

/-! ## The joined text -/

/-- A path that is one segment, and that needs no code in a query or a fragment. -/
structure IsEndpointPath (path : String) : Prop where
  segment : ∃ name : String, path.toList = '/' :: name.toList ∧ IsSettledSegment name.toList
  query : ∀ c ∈ path.toList, Url.allowedInSpecialQuery c = true
  fragment : ∀ c ∈ path.toList, Url.allowedInFragment c = true

section Join

variable {base : Base} {a : Url.Authority} {names : List String} {path : String}

/-- A joined text that is the one of a URL in its final form is read as that. -/
private theorem readUrl_join_of_written [DomainMapping] {url : Url} (h : base.url.IsSettled a names)
    (segments : List String) (hUrl : url.IsCanonical a segments)
    (hScheme : url.scheme = base.url.scheme)
    (hTail : dropSlashes base.url.tailText ++ path.toList = url.tailText) :
    readUrl (base.join path) = .ok url := by
  have hText : (base.join path).toList = url.written := by
    rw [join_toList h, hTail, hUrl.written_eq, hScheme]
  rw [readUrl, Url.read, hText, hUrl.readChars_written]

/-- Slashes are dropped only behind a sign. -/
private theorem dropSlashes_append_sign {front back : List Char} {sign : Char} (hSign : sign ≠ '/') :
    dropSlashes (front ++ sign :: back) = front ++ sign :: dropSlashes back := by
  have hEnd : ∀ c ∈ (front ++ [sign]).getLast?, c ≠ '/' := by
    intro c hc
    rw [List.getLast?_concat, Option.mem_some_iff] at hc
    rwa [← hc]
  have hDrop := dropSlashes_append hEnd back
  rwa [List.append_assoc, List.append_assoc] at hDrop

private theorem allowed_joined {allowed : Char → Bool} {front back : List Char}
    (hFront : ∀ c ∈ front, allowed c = true) (hBack : ∀ c ∈ back, allowed c = true) :
    ∀ c ∈ (String.ofList (dropSlashes front ++ back)).toList, allowed c = true := by
  intro c hc
  rw [String.toList_ofList] at hc
  rcases List.mem_append.1 hc with hOld | hNew
  · exact hFront c (mem_of_mem_dropSlashes hOld)
  · exact hBack c hNew

/-- **Behind a path the endpoint is its last segment.** -/
theorem readUrl_join_of_plain [DomainMapping] (h : base.url.IsCanonical a names)
    (hQuery : base.url.query? = none) (hFragment : base.url.fragment? = none)
    (hPath : IsEndpointPath path) :
    ∃ parts, (Url.Path.segments parts).written = dropSlashes base.url.path.written ++ path.toList ∧
      readUrl (base.join path) = .ok { base.url with path := .segments parts } := by
  obtain ⟨name, hName, hSegment⟩ := hPath.segment
  obtain ⟨kept, hKept, hDrop⟩ := dropSlashes_segments h.canonical
  have hSegments : ∀ part ∈ kept ++ [name], IsSettledSegment part.toList := by
    intro part hPart
    rcases List.mem_append.1 hPart with hOld | hNew
    · exact h.canonical part (hKept.subset hOld)
    · rwa [List.mem_singleton.1 hNew]
  have hWritten : (Url.Path.segments (kept ++ [name])).written =
      dropSlashes base.url.path.written ++ path.toList := by
    rw [h.path, hDrop, hName]
    simp [Url.Path.written]
  have hUrl : Url.IsCanonical { base.url with path := .segments (kept ++ [name]) } a
      (kept ++ [name]) :=
    ⟨⟨h.web, h.authority, h.settled, rfl, by simp, fun part hPart => (hSegments part hPart).allowed,
      h.query, h.fragment⟩, hSegments⟩
  refine ⟨_, hWritten, readUrl_join_of_written h.toIsSettled _ hUrl rfl ?_⟩
  simp only [Url.tailText, hQuery, hFragment, hWritten, Url.optionalPart, List.append_nil]

/-- **Behind a query the endpoint is at its end.** -/
theorem readUrl_join_of_query [DomainMapping] (h : base.url.IsCanonical a names) {query : String}
    (hQuery : base.url.query? = some query) (hFragment : base.url.fragment? = none)
    (hPath : IsEndpointPath path) :
    readUrl (base.join path) = .ok { base.url with
      query? := some (String.ofList (dropSlashes query.toList ++ path.toList)) } := by
  have hAllowed := allowed_joined (h.query query hQuery) hPath.query
  refine readUrl_join_of_written h.toIsSettled names
    ⟨⟨h.web, h.authority, h.settled, h.path, h.rooted, h.parts, ?_, h.fragment⟩, h.canonical⟩ rfl ?_
  · intro joined hJoined
    rwa [← Option.mem_some_iff.1 hJoined]
  · simp only [Url.tailText, hQuery, hFragment, Url.optionalPart, List.append_nil,
      dropSlashes_append_sign (show '?' ≠ '/' by decide), String.toList_ofList, List.append_assoc,
      List.cons_append]

/-- **Behind a fragment the endpoint is at its end.** -/
theorem readUrl_join_of_fragment [DomainMapping] (h : base.url.IsCanonical a names) {fragment : String}
    (hFragment : base.url.fragment? = some fragment) (hPath : IsEndpointPath path) :
    readUrl (base.join path) = .ok { base.url with
      fragment? := some (String.ofList (dropSlashes fragment.toList ++ path.toList)) } := by
  have hAllowed := allowed_joined (h.fragment fragment hFragment) hPath.fragment
  refine readUrl_join_of_written h.toIsSettled names
    ⟨⟨h.web, h.authority, h.settled, h.path, h.rooted, h.parts, h.query, ?_⟩, h.canonical⟩ rfl ?_
  · intro joined hJoined
    rwa [← Option.mem_some_iff.1 hJoined]
  · rw [Url.tailText, hFragment]
    show dropSlashes (_ ++ '#' :: fragment.toList) ++ path.toList = _ ++ '#' :: String.toList _
    rw [dropSlashes_append_sign (by decide), String.toList_ofList, List.append_assoc, List.cons_append]

end Join

end Base

/-! ## The path of a request -/

theorem Operation.isEndpointPath (o : Operation) : Base.IsEndpointPath o.request.path := by
  have hPaths : ∀ path ∈ Operation.endpoints, path.toList.head? = some '/' ∧
      IsSettledSegment path.toList.tail ∧ path.toList.all Url.allowedInSpecialQuery = true ∧
      path.toList.all Url.allowedInFragment = true := by decide +kernel
  obtain ⟨hHead, hTail, hQuery, hFragment⟩ := hPaths _ o.endpoint_mem
  obtain ⟨name, hName⟩ := List.head?_eq_some_iff.1 hHead
  rw [hName, List.tail_cons] at hTail
  exact ⟨⟨String.ofList name, by rwa [String.toList_ofList], by rwa [String.toList_ofList]⟩,
    List.all_eq_true.1 hQuery, List.all_eq_true.1 hFragment⟩

namespace Base

theorem urlFor_of_readUrl [DomainMapping] {base : Base} {request : Request} {joined : Url}
    (h : readUrl (base.join request.path) = .ok joined) :
    base.urlFor request = .ok (joined.appendPairs request.pairs) := by
  rw [urlFor, h]
  rfl

/-- **The path of a request** is the one of the base, without the slashes at its end, and then the one of
the endpoint, if the base ends in its path. Otherwise it is the path of the base alone. -/
theorem path_urlFor [DomainMapping] {text : String} {base : Base} (h : Base.read text = .ok base)
    (hWeb : IsWeb base.url.scheme) (o : Operation) :
    ∃ url, base.urlFor o.request = .ok url ∧
      url.path.written =
        if base.url.query? = none ∧ base.url.fragment? = none then
          dropSlashes base.url.path.written ++ o.request.path.toList
        else base.url.path.written := by
  obtain ⟨a, names, hCanonical⟩ := isCanonical_read h hWeb
  have hPath := o.isEndpointPath
  cases hFragment : base.url.fragment? with
  | some fragment =>
      refine ⟨_, urlFor_of_readUrl (readUrl_join_of_fragment hCanonical hFragment hPath), ?_⟩
      rw [Url.path_appendPairs, if_neg (by simp)]
  | none =>
  cases hQuery : base.url.query? with
  | some query =>
      refine ⟨_, urlFor_of_readUrl (readUrl_join_of_query hCanonical hQuery hFragment hPath), ?_⟩
      rw [Url.path_appendPairs, if_neg (by simp)]
  | none =>
      obtain ⟨parts, hParts, hJoined⟩ := readUrl_join_of_plain hCanonical hQuery hFragment hPath
      refine ⟨_, urlFor_of_readUrl hJoined, ?_⟩
      rw [Url.path_appendPairs, if_pos ⟨rfl, rfl⟩, hParts]

section

attribute [local instance] DomainMapping.asciiOnly

/-- A request behind a path that ends in a slash. -/
theorem path_urlFor_behind_slash :
    ∃ base url, Base.read "http://proxy:8080/kapacitor/" = .ok base ∧ IsWeb base.url.scheme ∧
      base.urlFor (Operation.deleteRecording "r1").request = .ok url ∧
      url.path.written = "/kapacitor/recording".toList := by
  have hBase : Base.read "http://proxy:8080/kapacitor/" = .ok ⟨⟨"http",
      some ⟨"", "", .name "proxy", some 8080⟩, .segments ["kapacitor", ""], none, none⟩⟩ := by
    decide +kernel
  have hWeb : IsWeb "http" := .inl rfl
  obtain ⟨url, hUrl, hPath⟩ := path_urlFor hBase hWeb (.deleteRecording "r1")
  refine ⟨_, url, hBase, hWeb, hUrl, ?_⟩
  rw [hPath]
  decide

/-- **A request that does not go to its endpoint**: the base has a query, which takes the endpoint's path,
so the task's name is posted to the path of the base. -/
theorem endpoint_in_query :
    ∃ base url, Base.read "http://h/?x=1" = .ok base ∧ IsWeb base.url.scheme ∧
      base.urlFor (Operation.enable "t").request = .ok url ∧
      url.text = "http://h/?x=1/enable&name=t" ∧ url.path.written = ['/'] ∧
      ¬(Operation.enable "t").request.path.toList <:+ url.path.written := by
  refine ⟨⟨⟨"http", some ⟨"", "", .name "h", none⟩, .segments [""], some "x=1", none⟩⟩,
    ⟨"http", some ⟨"", "", .name "h", none⟩, .segments [""], some "x=1/enable&name=t", none⟩,
    by decide +kernel, .inl rfl, by decide +kernel, by decide +kernel, rfl, ?_⟩
  decide

end

end Base

end ControlClient
