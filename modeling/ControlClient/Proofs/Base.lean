import ControlClient.Base
import ControlClient.Proofs.Url.Canonical
import ControlClient.Proofs.Url.Form

/-!
# URLs of requests

The URL of a request is read from the text of the base with a path behind it. That text starts with the
scheme and the authority of the base, which hold no slash at their end, so the slashes that are dropped
are slashes of the path, and reading goes through.

## Main results

* `join_toList`: the text that is read starts with scheme and authority of the base.
* `urlFor_origin`: a request has a URL, with scheme and authority of the base.
* `pairs_urlFor`: the pairs of a request stand at the end of its URL.
-/

namespace ControlClient

open Url (IsWeb originText isVisible)

/-! ## Joining -/

namespace Base

theorem dropSlashes_isPrefix (cs : List Char) : dropSlashes cs <+: cs := by
  rw [dropSlashes, ← List.reverse_suffix, List.reverse_reverse]
  exact List.dropWhile_suffix _

theorem mem_of_mem_dropSlashes {cs : List Char} {c : Char} (h : c ∈ dropSlashes cs) : c ∈ cs :=
  (dropSlashes_isPrefix cs).subset h

/-- Slashes are dropped only from behind what does not end in one. -/
theorem dropSlashes_append {front : List Char} (h : ∀ c ∈ front.getLast?, c ≠ '/')
    (tail : List Char) : dropSlashes (front ++ tail) = front ++ dropSlashes tail := by
  have hFront : front.reverse.dropWhile (· == '/') = front.reverse := by
    cases hReverse : front.reverse with
    | nil => rfl
    | cons c rest =>
        have hLast : front.getLast? = some c := by
          rw [← List.head?_reverse, hReverse, List.head?_cons]
        exact List.dropWhile_cons_of_neg (by simpa using h c hLast)
  unfold dropSlashes
  rw [List.reverse_append, List.dropWhile_append]
  split
  · next hNil =>
      rw [List.isEmpty_iff.1 hNil, hFront]
      simp
  · simp

/-- What is left of a text that starts with a slash, with a path behind it, starts with a slash. -/
theorem dropSlashes_append_path {tail path more rest : List Char} (hTail : tail = '/' :: more)
    (hPath : path = '/' :: rest) :
    ∃ joined, dropSlashes tail ++ path = '/' :: joined := by
  by_cases hNil : dropSlashes tail = []
  · exact ⟨rest, by rw [hNil, hPath]; rfl⟩
  · obtain ⟨c, kept, hKept⟩ := List.exists_cons_of_ne_nil hNil
    have hPrefix := dropSlashes_isPrefix tail
    rw [hKept, hTail] at hPrefix
    obtain ⟨rfl, -⟩ := List.cons_prefix_cons.1 hPrefix
    exact ⟨kept ++ path, by rw [hKept]; rfl⟩

variable [DomainMapping] {base : Base} {a : Url.Authority} {parts : List String}

/-- **The text that is read starts with scheme and authority of the base.** -/
theorem join_toList (h : base.url.IsSettled a parts) (path : String) :
    (base.join path).toList =
      originText base.url.scheme a ++ (dropSlashes base.url.tailText ++ path.toList) := by
  rw [join, String.toList_ofList, h.written_eq, dropSlashes_append h.slash_not_at_end,
    List.append_assoc]

theorem readUrl_eq_ok_iff {text : String} {url : Url} :
    readUrl text = .ok url ↔ Url.readChars text.toList = .ok url := by
  rw [readUrl, Url.read]
  cases Url.readChars text.toList <;> simp

theorem readChars_of_read {text : String} {base : Base} (h : Base.read text = .ok base) :
    Url.readChars text.toList = .ok base.url := by
  rw [Base.read, map_eq_ok_iff] at h
  obtain ⟨url, hUrl, rfl⟩ := h
  exact readUrl_eq_ok_iff.1 hUrl

/-- The base of a web scheme is settled. -/
theorem isSettled_read {text : String} {base : Base} (h : Base.read text = .ok base)
    (hWeb : IsWeb base.url.scheme) : ∃ a parts, base.url.IsSettled a parts :=
  Url.isSettled_readChars (readChars_of_read h) hWeb

/-- A path of visible characters. -/
def IsVisiblePath (path : String) : Prop :=
  path.toList.head? = some '/' ∧ path.toList.all isVisible = true

/-- **A request has a URL**, with scheme and authority of the base. -/
theorem urlFor_origin (h : base.url.IsSettled a parts) {request : Request}
    (hPath : IsVisiblePath request.path) :
    ∃ url, base.urlFor request = .ok url ∧ url.scheme = base.url.scheme ∧
      url.authority? = some a := by
  obtain ⟨hHead, hVisible⟩ := hPath
  obtain ⟨rest, hRest⟩ := List.head?_eq_some_iff.1 hHead
  obtain ⟨more, hTail⟩ := h.tailText_eq_cons
  obtain ⟨joined, hJoined⟩ := dropSlashes_append_path hTail hRest
  have hJoinedVisible : ∀ c ∈ joined, isVisible c = true := by
    intro c hc
    have hIn : c ∈ dropSlashes base.url.tailText ++ request.path.toList := by
      rw [hJoined]
      exact List.mem_cons_of_mem _ hc
    rcases List.mem_append.1 hIn with hKept | hNew
    · exact h.visible_tailText c (mem_of_mem_dropSlashes hKept)
    · exact List.all_eq_true.1 hVisible c hNew
  have hRead := Url.readChars_origin h.web h.settled hJoinedVisible
  have hText : (base.join request.path).toList = originText base.url.scheme a ++ '/' :: joined := by
    rw [join_toList h, hJoined]
  rw [urlFor, readUrl, Url.read, hText, hRead]
  refine ⟨_, rfl, ?_, ?_⟩
  · unfold Url.appendPairs
    split <;> rfl
  · unfold Url.appendPairs
    split <;> rfl

/-- **The pairs of a request stand at the end of its URL**, behind those that the text of the base with
the path has. -/
theorem pairs_urlFor {request : Request} {url : Url} (h : base.urlFor request = .ok url) :
    ∃ joined, readUrl (base.join request.path) = .ok joined ∧
      url.pairs = joined.pairs ++ request.pairs := by
  rw [urlFor, map_eq_ok_iff] at h
  obtain ⟨joined, hJoined, rfl⟩ := h
  exact ⟨joined, hJoined, Url.pairs_appendPairs joined request.pairs⟩

end Base

namespace Operation

/-- The path of the endpoint that carries out an operation. -/
def endpoint : Operation → String
  | record _ => "/record"
  | define .. => "/task"
  | replay .. => "/replay"
  | enable _ => "/enable"
  | disable _ => "/disable"
  | deleteTask _ => "/task"
  | deleteRecording _ => "/recording"
  | listTasks _ => "/tasks"
  | listRecordings _ => "/recordings"
  | setLevel _ => "/loglevel"

theorem request_path (o : Operation) : o.request.path = o.endpoint := by
  cases o <;> rfl

/-- The paths of all endpoints. -/
def endpoints : List String :=
  ["/record", "/task", "/replay", "/enable", "/disable", "/recording", "/tasks", "/recordings",
    "/loglevel"]

theorem endpoint_mem (o : Operation) : o.request.path ∈ endpoints := by
  rw [request_path]
  cases o <;> simp [endpoint, endpoints]

theorem isVisiblePath (o : Operation) : Base.IsVisiblePath o.request.path := by
  have hPaths : ∀ path ∈ endpoints, Base.IsVisiblePath path := by
    unfold Base.IsVisiblePath
    decide
  exact hPaths _ o.endpoint_mem

/-- A request has a pair. -/
theorem pairs_ne_nil (o : Operation) : o.request.pairs ≠ [] := by
  cases o with
  | record source => cases source <;> exact List.cons_ne_nil _ _
  | _ => exact List.cons_ne_nil _ _

theorem question_not_mem_path (o : Operation) : '?' ∉ o.request.path.toList := by
  have hPaths : ∀ path ∈ endpoints, '?' ∉ path.toList := by decide
  exact hPaths _ o.endpoint_mem

end Operation

end ControlClient
