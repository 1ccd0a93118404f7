import ControlClient.Proofs.Base
import ControlClient.Proofs.Url.Queryless

/-!
# The pairs of a request on the wire

A request's pairs are put at the end of the query of its URL, in which they are found again, whatever
scheme the base has and whatever characters the keys and values have. In front of them stand only the
pairs that the text of the base with the endpoint behind it is read as having, and these are none if the
base has no query.

## Main results

* `isQueryless_join`: joining gives a base without a query no query.
* `query_urlFor`: what the query of a request's URL is decoded to.
-/

namespace ControlClient.Base

/-- A base without a query has none with a path behind it. -/
theorem isQueryless_join [DomainMapping] {text : String} {base : Base} (h : Base.read text = .ok base)
    (hQuery : base.url.query? = none) {path : String} (hPath : '?' ∉ path.toList) :
    Url.IsQueryless (base.join path).toList := by
  have hWritten := Url.isQueryless_written (readChars_of_read h) hQuery
  rw [join, String.toList_ofList]
  exact (hWritten.of_isPrefix (dropSlashes_isPrefix _)).append (.of_not_mem hPath)

/-- **The query of a request's URL** is decoded to the pairs that the text of the base with the path of
the endpoint has, none if the base has no query, and then exactly the pairs of the request. -/
theorem query_urlFor [DomainMapping] {text : String} {base : Base} (h : Base.read text = .ok base)
    {o : Operation} {url : Url} (hUrl : base.urlFor o.request = .ok url) :
    ∃ joined query, readUrl (base.join o.request.path) = .ok joined ∧
      (base.url.query? = none → joined.query? = none ∧ joined.pairs = []) ∧
      url.query? = some query ∧
      Url.Form.decode query.toList = joined.pairs ++ o.request.pairs := by
  rw [urlFor, map_eq_ok_iff] at hUrl
  obtain ⟨joined, hJoined, rfl⟩ := hUrl
  have hQuery : (joined.appendPairs o.request.pairs).query? =
      some (String.ofList (Url.Form.appendAll (joined.query?.getD "").toList o.request.pairs)) := by
    have hPairs : o.request.pairs.isEmpty = false := by simpa using o.pairs_ne_nil
    rw [Url.appendPairs, hPairs]
    rfl
  have hDecoded := Url.pairs_appendPairs joined o.request.pairs
  rw [Url.pairs, hQuery] at hDecoded
  refine ⟨joined, _, hJoined, fun hNone => ?_, hQuery, hDecoded⟩
  have hJoinedNone : joined.query? = none :=
    Url.query?_of_isQueryless (readUrl_eq_ok_iff.1 hJoined)
      (isQueryless_join h hNone o.question_not_mem_path)
  refine ⟨hJoinedNone, ?_⟩
  rw [Url.pairs, hJoinedNone]

section

attribute [local instance] DomainMapping.asciiOnly

/-- A name with both separators, a space and a character beyond ASCII. -/
theorem query_urlFor_reserved :
    ∃ base url joined query, Base.read "http://h:8080/a/" = .ok base ∧
      base.urlFor (Operation.enable "a&b=c é").request = .ok url ∧
      readUrl (base.join "/enable") = .ok joined ∧ joined.pairs = [] ∧
      url.query? = some query ∧ query = "name=a%26b%3Dc+%C3%A9" ∧
      Url.Form.decode query.toList = [("name", "a&b=c é")] := by
  have hBase : Base.read "http://h:8080/a/" = .ok ⟨⟨"http",
      some ⟨"", "", .name "h", some 8080⟩, .segments ["a", ""], none, none⟩⟩ := by decide +kernel
  have hUrl : Base.urlFor ⟨⟨"http", some ⟨"", "", .name "h", some 8080⟩, .segments ["a", ""], none,
      none⟩⟩ (Operation.enable "a&b=c é").request = .ok ⟨"http",
        some ⟨"", "", .name "h", some 8080⟩, .segments ["a", "enable"],
        some "name=a%26b%3Dc+%C3%A9", none⟩ := by decide +kernel
  obtain ⟨joined, query, hJoined, hNone, hQuery, hDecoded⟩ := query_urlFor hBase hUrl
  obtain ⟨-, hNoPairs⟩ := hNone rfl
  rw [hNoPairs] at hDecoded
  exact ⟨_, _, joined, query, hBase, hUrl, hJoined, hNoPairs, hQuery, (Option.some.inj hQuery).symm,
    hDecoded⟩

end

end ControlClient.Base
