import ControlClient.Proofs.Number.Int64
import ControlClient.Proofs.Request.Endpoint
import ControlClient.Proofs.Span.RoundTrip

/-!
# Operations on the wire

What the service is told of an operation is a method and a URL. Behind a base that ends in its path the
URL is the one of the base with the path of the endpoint and the pairs of the request, and no question
mark stands in front of the pairs; so the URL gives both back. Method, path and pairs in turn give the
operation back, but for the script of a task, which is sent as the body, and for the names of a listing,
which are joined to one value.

## Main results

* `written_urlFor`: the URL of a request behind a plain base.
* `eq_of_request`: operations whose requests agree are the same.
* `distinct_urlFor`: operations whose methods and URLs agree are the same.
-/

namespace ControlClient

open Url (IsWeb cutAt originText)

/-! ## What a request says -/

theorem TaskType.name_injective {s t : TaskType} (h : s.name = t.name) : s = t := by
  have hSame : some s = some t := by
    rw [← ofName?_name s, h, ofName?_name t]
  exact Option.some.inj hSame

/-- The pairs say what is recorded. -/
theorem RecordSource.eq_of_pairs {s t : RecordSource} (h : s.pairs = t.pairs) : s = t := by
  cases s with
  | stream duration =>
      cases t with
      | stream duration' =>
          simp only [pairs, List.cons.injEq, Prod.mk.injEq, true_and, and_true] at h
          rw [Span.text_injective h]
      | batch name start count address => simp [pairs] at h
      | query text type address => simp [pairs] at h
  | batch name start count address =>
      cases t with
      | stream duration => simp [pairs] at h
      | batch name' start' count' address' =>
          simp only [pairs, List.cons.injEq, Prod.mk.injEq, true_and, and_true] at h
          obtain ⟨rfl, rfl, hCount, rfl⟩ := h
          rw [Number.intText_injective hCount]
      | query text type address => simp [pairs] at h
  | query text type address =>
      cases t with
      | stream duration => simp [pairs] at h
      | batch name start count address => simp [pairs] at h
      | query text' type' address' =>
          simp only [pairs, List.cons.injEq, Prod.mk.injEq, true_and, and_true] at h
          obtain ⟨rfl, hType, rfl⟩ := h
          rw [TaskType.name_injective hType]

namespace Operation

/-- Whether an operation lists what the service has. -/
def isListing : Operation → Bool
  | listTasks _ => true
  | listRecordings _ => true
  | _ => false

/-- The operation with an empty script. -/
def withoutScript : Operation → Operation
  | define name type _ => define name type (.bytes [])
  | o => o

variable {o p : Operation}

/-- A single pair says its value. -/
private theorem value_of_pair {key s t : String} (h : [(key, s)] = [(key, t)]) : s = t := by
  simpa using h

/-- **Operations whose requests agree are the same**, but for a script. -/
theorem eq_of_request (hListing : o.isListing = false)
    (hMethod : o.request.method = p.request.method) (hPath : o.request.path = p.request.path)
    (hPairs : o.request.pairs = p.request.pairs) : o.withoutScript = p.withoutScript := by
  rw [request_path, request_path] at hPath
  cases o with
  | record source =>
      cases p with
      | record source' => rw [RecordSource.eq_of_pairs hPairs]
      | _ => simp [endpoint] at hPath
  | define name type script =>
      cases p with
      | define name' type' script' =>
          have hSame : [("name", name), ("type", type.name)] =
              [("name", name'), ("type", type'.name)] := hPairs
          simp only [List.cons.injEq, Prod.mk.injEq, true_and, and_true] at hSame
          obtain ⟨rfl, hType⟩ := hSame
          rw [TaskType.name_injective hType]
          rfl
      | deleteTask name' =>
          have hSame : Method.post = Method.delete := hMethod
          cases hSame
      | _ => simp [endpoint] at hPath
  | replay name id fast =>
      cases p with
      | replay name' id' fast' =>
          have hSame : [("name", name), ("id", id)] ++ (if fast then [("clock", "fast")] else []) =
              [("name", name'), ("id", id')] ++ if fast' then [("clock", "fast")] else [] := hPairs
          simp only [List.cons_append, List.nil_append, List.cons.injEq, Prod.mk.injEq,
            true_and] at hSame
          obtain ⟨rfl, rfl, hClock⟩ := hSame
          cases fast <;> cases fast' <;> simp at hClock ⊢
      | _ => simp [endpoint] at hPath
  | enable name =>
      cases p with
      | enable name' =>
          obtain rfl : name = name' := value_of_pair hPairs
          rfl
      | _ => simp [endpoint] at hPath
  | disable name =>
      cases p with
      | disable name' =>
          obtain rfl : name = name' := value_of_pair hPairs
          rfl
      | _ => simp [endpoint] at hPath
  | deleteTask name =>
      cases p with
      | deleteTask name' =>
          obtain rfl : name = name' := value_of_pair hPairs
          rfl
      | define name' type' script' =>
          have hSame : Method.delete = Method.post := hMethod
          cases hSame
      | _ => simp [endpoint] at hPath
  | deleteRecording id =>
      cases p with
      | deleteRecording id' =>
          obtain rfl : id = id' := value_of_pair hPairs
          rfl
      | _ => simp [endpoint] at hPath
  | setLevel level =>
      cases p with
      | setLevel level' =>
          obtain rfl : level = level' := value_of_pair hPairs
          rfl
      | _ => simp [endpoint] at hPath
  | listTasks names => cases hListing
  | listRecordings ids => cases hListing

end Operation

/-! ## What a URL says -/

namespace Base

variable {text : String} {base : Base}

/-- **The URL of a request behind a plain base.** -/
theorem written_urlFor [DomainMapping] (h : Base.read text = .ok base) (hWeb : IsWeb base.url.scheme)
    (hQuery : base.url.query? = none) (hFragment : base.url.fragment? = none) :
    ∃ front, ∀ o : Operation, ∃ url, base.urlFor o.request = .ok url ∧
      url.written = front ++ (o.request.path.toList ++ '?' :: Url.Form.appendAll [] o.request.pairs) := by
  obtain ⟨a, names, hCanonical⟩ := isCanonical_read h hWeb
  refine ⟨originText base.url.scheme a ++ dropSlashes base.url.path.written, fun o => ?_⟩
  obtain ⟨parts, hParts, hJoined⟩ :=
    readUrl_join_of_plain hCanonical hQuery hFragment o.isEndpointPath
  refine ⟨_, urlFor_of_readUrl hJoined, ?_⟩
  have hPairs : o.request.pairs.isEmpty = false := by simpa using o.pairs_ne_nil
  simp only [Url.appendPairs, hPairs, Url.written, hCanonical.authority, hQuery, hFragment, originText,
    Url.optionalPart]
  simp [hParts]

/-- **No two operations look the same on the wire**: where the methods and the URLs agree, the operations
do, but for a script, unless they list what the service has. -/
theorem distinct_urlFor [DomainMapping] (h : Base.read text = .ok base) (hWeb : IsWeb base.url.scheme)
    (hQuery : base.url.query? = none) (hFragment : base.url.fragment? = none) {o p : Operation}
    (hListing : o.isListing = false) :
    ∃ url url', base.urlFor o.request = .ok url ∧ base.urlFor p.request = .ok url' ∧
      (o.request.method = p.request.method → url.text = url'.text →
        o.withoutScript = p.withoutScript) := by
  obtain ⟨front, hWritten⟩ := written_urlFor h hWeb hQuery hFragment
  obtain ⟨url, hUrl, hText⟩ := hWritten o
  obtain ⟨url', hUrl', hText'⟩ := hWritten p
  refine ⟨url, url', hUrl, hUrl', fun hMethod hSame => ?_⟩
  have hBehind : o.request.path.toList ++ '?' :: Url.Form.appendAll [] o.request.pairs =
      p.request.path.toList ++ '?' :: Url.Form.appendAll [] p.request.pairs := by
    rw [Url.text, Url.text, String.ofList_inj, hText, hText'] at hSame
    exact List.append_cancel_left hSame
  have hCut := congrArg (cutAt '?') hBehind
  rw [Url.cutAt_append_cons o.question_not_mem_path, Url.cutAt_append_cons p.question_not_mem_path,
    Prod.mk.injEq, Option.some.injEq] at hCut
  have hPairs := congrArg Url.Form.decode hCut.2
  rw [Url.Form.decode_appendAll, Url.Form.decode_appendAll] at hPairs
  exact Operation.eq_of_request hListing hMethod (String.toList_inj.1 hCut.1)
    (List.append_cancel_left hPairs)

section

attribute [local instance] DomainMapping.asciiOnly

/-- Behind a path, a clock in a task's name is not one of its own, and two scripts of a task go to one
URL. -/
theorem distinct_urlFor_names :
    ∃ base, Base.read "http://host/x/" = .ok base ∧ IsWeb base.url.scheme ∧
      base.url.query? = none ∧ base.url.fragment? = none ∧
      (∃ url url', base.urlFor (Operation.replay "a&clock=fast" "r" false).request = .ok url ∧
        base.urlFor (Operation.replay "a" "r" true).request = .ok url' ∧ url.text ≠ url'.text) ∧
      ∃ url url', base.urlFor (Operation.define "a" .stream (.bytes [1])).request = .ok url ∧
        base.urlFor (Operation.define "a" .stream (.bytes [2])).request = .ok url' ∧
        url.text = url'.text ∧ (Operation.define "a" .stream (.bytes [1])).withoutScript =
          (Operation.define "a" .stream (.bytes [2])).withoutScript := by
  have hBase : Base.read "http://host/x/" = .ok ⟨⟨"http", some ⟨"", "", .name "host", none⟩,
      .segments ["x", ""], none, none⟩⟩ := by decide +kernel
  have hWeb : IsWeb "http" := .inl rfl
  refine ⟨_, hBase, hWeb, rfl, rfl, ?_, ?_⟩
  · obtain ⟨url, url', hUrl, hUrl', hSame⟩ := distinct_urlFor hBase hWeb rfl rfl
      (o := .replay "a&clock=fast" "r" false) (p := .replay "a" "r" true) rfl
    exact ⟨url, url', hUrl, hUrl', fun hText => absurd (hSame rfl hText) (by decide)⟩
  · obtain ⟨url, url', hUrl, hUrl', hSame⟩ := distinct_urlFor hBase hWeb rfl rfl
      (o := .define "a" .stream (.bytes [1])) (p := .define "a" .stream (.bytes [2])) rfl
    have hText : url.text = url'.text := by
      have hOne : (Except.ok url : Except InvalidUrl Url) = .ok url' := hUrl.symm.trans hUrl'
      rw [Except.ok.inj hOne]
    exact ⟨url, url', hUrl, hUrl', hText, hSame rfl hText⟩

end

end Base

end ControlClient
