import ControlClient.Proofs.Base
import ControlClient.Proofs.Session.Composition

/-!
# What the service is asked

Every request of a run carries out an operation of its command's plan. This is a property of the
conversation of the command: whatever the replies are, it asks only such requests (`AsksOnly`). What
becomes of credentials and of a fragment does not touch the pairs of a request, so the service reads
there what the operation says.

## Main results

* `asksOnly_exchange`, `AsksOnly.transcript`: one exchange, and what is asked of a service.
* `operation_of_mem_exchanges`: the operation that a request of a run carries out.
* `pairs_of_carries`: the pairs that the service reads in a request.
-/

namespace ControlClient

open CommandLine (Environment)

/-- A request is the one that carries out an operation at a base. -/
def Operation.IsCarriedBy [DomainMapping] (o : Operation) (base : Base) (r : SentRequest) : Prop :=
  ∃ url, base.urlFor o.request = .ok url ∧ r = Exchange.sentRequest o.request url

namespace Conversation

/-- Whatever the replies are, a conversation asks only requests with a property. -/
inductive AsksOnly {α : Type} (p : SentRequest → Prop) : Conversation α → Prop where
  | ended (a : α) : AsksOnly p (ended a)
  | failed (f : Failure) : AsksOnly p (failed f)
  | noted (e : Log.Event) {rest : Conversation α} (h : AsksOnly p rest) : AsksOnly p (noted e rest)
  | asked {r : SentRequest} {next : Reply → Conversation α} (hRequest : p r)
      (hNext : ∀ reply, AsksOnly p (next reply)) : AsksOnly p (asked r next)

variable {α β : Type} {p : SentRequest → Prop} {c : Conversation α}

theorem AsksOnly.bind (h : c.AsksOnly p) {next : α → Conversation β}
    (hNext : ∀ a, (next a).AsksOnly p) : (c >>= next).AsksOnly p := by
  induction h with
  | ended a => exact hNext a
  | failed f => exact .failed f
  | noted e _ ih => exact .noted e ih
  | asked hRequest _ ih => exact .asked hRequest ih

/-- Asking only such requests is kept when conversations are strung together. -/
theorem composes_asksOnly (p : SentRequest → Prop) : Composes fun c => c.AsksOnly p where
  ended := .ended
  failed := .failed
  noted := .noted
  bind h hNext := h.bind hNext

/-- Whatever the service replies, only such requests are made. -/
theorem AsksOnly.transcript (h : c.AsksOnly p) (service : Service) :
    ∀ x ∈ (c.transcript service).exchanges, p x.1 := by
  induction h generalizing service with
  | ended a => simp [Conversation.transcript]
  | failed f => simp [Conversation.transcript]
  | noted e _ ih => exact ih service
  | asked hRequest _ ih =>
      intro x hx
      rcases List.mem_cons.1 hx with rfl | hLater
      · exact hRequest
      · exact ih _ service.reply.2 x hLater

/-- **One exchange asks only the request that carries out its operation.** -/
theorem asksOnly_exchange [DomainMapping] [Payload α] (base : Base) (o : Operation) :
    (o.exchange (α := α) base).AsksOnly (o.IsCarriedBy base) := by
  have hComposes := composes_asksOnly (o.IsCarriedBy base)
  apply hComposes.exchange
  intro url hUrl
  apply AsksOnly.asked
  · exact ⟨url, hUrl, rfl⟩
  · intro reply
    exact .noted _ (hComposes.conclude _ _ _ reply)

theorem AsksOnly.mono {q : SentRequest → Prop} (h : c.AsksOnly p) (hImplies : ∀ r, p r → q r) :
    c.AsksOnly q := by
  induction h with
  | ended a => exact .ended a
  | failed f => exact .failed f
  | noted e _ ih => exact .noted e ih
  | asked hRequest _ ih => exact .asked (hImplies _ hRequest) ih

end Conversation

/-! ## Runs -/

/-- **Every request of a run carries out an operation of its plan**, at the base that its settings
name. -/
theorem operation_of_mem_exchanges [DomainMapping] [Text.Measure] {env : Environment} {files : Files}
    {service : Service} {words : List (List UInt8)} {i : Invocation}
    (hRead : CommandLine.read env words = .ok i)
    {x : SentRequest × Reply} (hx : x ∈ (run env files service words).exchanges) :
    ∃ base plan, Base.read i.settings.url = .ok base ∧ i.command.plan files = .ok plan ∧
      ∃ o ∈ plan.operations, o.IsCarriedBy base x.1 := by
  have hAsks : (i.perform env files).AsksOnly fun r =>
      ∃ base plan, Base.read i.settings.url = .ok base ∧ i.command.plan files = .ok plan ∧
        ∃ o ∈ plan.operations, o.IsCarriedBy base r := by
    apply (Conversation.composes_asksOnly _).perform env
    intro base plan hBase hPlan o ho α _
    apply (Conversation.asksOnly_exchange base o).mono
    intro r hCarried
    exact ⟨base, plan, hBase, hPlan, o, ho, hCarried⟩
  rw [(run_of_read files service hRead).1] at hx
  exact hAsks.transcript service x hx

/-! ## Pairs -/

private theorem pairs_released (u : Url) : u.released.withoutFragment.pairs = u.pairs := by
  unfold Url.released
  by_cases hCredentials : (Credentials.ofUrl? u).isSome = true
  · rw [if_pos hCredentials]
    rfl
  · rw [if_neg hCredentials]
    rfl

/-- **The pairs that the service reads in a request** are those of its operation, behind those that
stand in the address. -/
theorem pairs_of_carries [DomainMapping] {o : Operation} {base : Base} {r : SentRequest}
    (h : o.IsCarriedBy base r) : ∃ joined, Base.readUrl (base.join o.request.path) = .ok joined ∧
      r.url.pairs = joined.pairs ++ o.request.pairs := by
  obtain ⟨url, hUrl, rfl⟩ := h
  obtain ⟨joined, hJoined, hPairs⟩ := Base.pairs_urlFor hUrl
  exact ⟨joined, hJoined, (pairs_released url).trans hPairs⟩

end ControlClient
