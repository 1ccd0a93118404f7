import ControlClient.Proofs.Except
import ControlClient.Session.Run

/-!
# Properties of whole commands

What a command says to the service is strung together from exchanges. So a property of conversations
that those have that ask nothing, and that is kept when one conversation follows another, is a property
of every command as soon as it is one of each exchange of its plan.

## Main results

* `Composes.exchange`: from the one request of an exchange to the exchange.
* `Composes.perform`: from the exchanges of a plan to the command.
* `run_of_read`: a run tells what happened in the conversation of its command.
-/

namespace ControlClient

open CommandLine (Environment)

namespace Conversation

/-- A property of conversations that is kept when they are strung together. -/
structure Composes (P : ∀ {α : Type}, Conversation α → Prop) : Prop where
  ended : ∀ {α : Type} (a : α), P (ended a)
  failed : ∀ {α : Type} (f : Failure), P (failed f : Conversation α)
  noted : ∀ {α : Type} (e : Log.Event) {rest : Conversation α}, P rest → P (noted e rest)
  bind : ∀ {α β : Type} {c : Conversation α} {next : α → Conversation β}, P c →
    (∀ a, P (next a)) → P (c >>= next)

namespace Composes

variable {P : ∀ {α : Type}, Conversation α → Prop} {α β : Type}

theorem ofExcept (h : Composes P) (x : Except Failure α) : P (ofExcept x) := by
  cases x with
  | ok a => exact h.ended a
  | error f => exact h.failed f

/-- What goes on with a result goes on only if there is one. -/
theorem ofExcept_bind (h : Composes P) {x : Except Failure α} {next : α → Conversation β}
    (hNext : ∀ a, x = .ok a → P (next a)) : P (Conversation.ofExcept x >>= next) := by
  cases x with
  | ok a => exact hNext a rfl
  | error f => exact h.failed f

/-! ## One exchange -/

/-- What follows from a reply asks nothing. -/
theorem conclude [Payload α] (h : Composes P) (path : String) (u : Url) (body : Content)
    (reply : Reply) : P (Exchange.conclude path u body reply : Conversation α) := by
  cases reply with
  | unreachable causes => exact h.failed _
  | dropped => exact h.failed _
  | brokenOff what causes => cases body <;> exact h.failed _
  | answered status answer =>
      cases body with
      | unreadable e => exact h.failed _
      | bytes data => exact h.noted _ (h.ofExcept _)

/-- The one request of an exchange, with what follows from each reply, decides on the exchange. -/
theorem exchange [DomainMapping] [Payload α] (h : Composes P) {base : Base} {o : Operation}
    (hAsked : ∀ url, base.urlFor o.request = .ok url →
      P (Conversation.asked (Exchange.sentRequest o.request url) fun reply =>
        Conversation.noted (.roundTrip o.request.path) (Exchange.conclude (α := α) o.request.path
          url.released (Exchange.sentRequest o.request url).body reply))) :
    P (o.exchange (α := α) base) := by
  unfold Operation.exchange
  apply h.ofExcept_bind
  intro url hUrl
  rw [mapError_eq_ok_iff] at hUrl
  apply h.noted
  dsimp only
  split
  · exact h.noted _ (h.failed _)
  · exact hAsked url hUrl

/-! ## Plans and commands -/

theorem sendInTurn [DomainMapping] (h : Composes P) {base : Base} {operations : List Operation}
    (hExchange : ∀ o ∈ operations, P (o.exchange (α := Acknowledgement) base)) :
    P (sendInTurn base operations) := by
  induction operations with
  | nil => exact h.ended ()
  | cons o rest ih =>
      apply h.bind (hExchange o (by simp))
      intro _
      exact ih fun other hOther => hExchange other (List.mem_cons_of_mem _ hOther)

theorem carryOut [DomainMapping] [Text.Measure] (h : Composes P) {base : Base}
    (format : OutputFormat) {p : Plan}
    (hExchange : ∀ o ∈ p.operations, ∀ {α : Type} [Payload α], P (o.exchange (α := α) base)) :
    P (p.carryOut base format) := by
  cases p with
  | record source => exact h.bind (hExchange _ (by simp [Plan.operations])) fun _ => h.ended _
  | inTurn operations =>
      exact h.bind (h.sendInTurn fun o ho => hExchange o ho) fun _ => h.ended _
  | delete kind ids =>
      have hTurn : P (ControlClient.sendInTurn base (ids.map kind.operation)) :=
        h.sendInTurn fun o ho => hExchange o ho
      apply h.bind (h.noted _ (h.ended ()))
      intro _
      exact h.bind hTurn fun _ => h.ended _
  | listTasks names => exact h.bind (hExchange _ (by simp [Plan.operations])) fun _ => h.ended _
  | listRecordings ids => exact h.bind (hExchange _ (by simp [Plan.operations])) fun _ => h.ended _

/-- **A property of the exchanges of a command's plan is one of the command.** -/
theorem perform [DomainMapping] [Text.Measure] (h : Composes P) (env : Environment) {files : Files}
    {i : Invocation}
    (hExchange : ∀ base plan, Base.read i.settings.url = .ok base → i.command.plan files = .ok plan →
      ∀ o ∈ plan.operations, ∀ {α : Type} [Payload α], P (o.exchange (α := α) base)) :
    P (i.perform env files) := by
  unfold Invocation.perform
  split
  · exact h.ended _
  · exact h.ofExcept _
  · apply h.ofExcept_bind
    intro base hBase
    rw [mapError_eq_ok_iff] at hBase
    apply h.ofExcept_bind
    intro plan hPlan
    exact h.carryOut _ (hExchange base plan hBase hPlan)

end Composes

end Conversation

/-! ## Runs -/

/-- How a run ends whose command ends in this. -/
def Invocation.ending (i : Invocation) : Except Failure String → Ending
  | .ok output => .succeeded output
  | .error f => .failed i.settings.format f

/-- A run tells what happened in the conversation of its command. -/
theorem run_of_read [DomainMapping] [Text.Measure] {env : Environment} (files : Files)
    (service : Service) {words : List (List UInt8)} {i : Invocation}
    (hRead : CommandLine.read env words = .ok i) :
    (run env files service words).exchanges =
        ((i.perform env files).transcript service).exchanges ∧
      (run env files service words).ending =
        i.ending ((i.perform env files).transcript service).result ∧
      (run env files service words).detail = i.settings.debug := by
  unfold run
  rw [hRead]
  unfold Invocation.run
  dsimp only
  cases ((i.perform env files).transcript service).result <;> exact ⟨rfl, rfl, rfl⟩

end ControlClient
