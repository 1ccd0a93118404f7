import ControlClient.Proofs.Envelope
import ControlClient.Proofs.Failure
import ControlClient.Proofs.Session.Composition
import Mathlib.Control.Monad.Basic

/-!
# Errors of the service reach the operator

An error that the service reports ends the run at once and is all that the operator is told, word for
word. Whether a run goes on after a reply is decided in the conversation and not by the service, so the
property belongs to conversations: `HaltsOn` says of a conversation as a tree that behind every request
the branch of a reply with this error only fails. It is kept when conversations are strung together,
which carries it from one exchange to every plan of every command.

## Main results

* `haltsOn_exchange`, `haltsOn_perform`: one exchange and a whole command halt on an error.
* `run_server_error`: what a run does when one of its requests is answered with an error.
-/

namespace ControlClient

open CommandLine (Environment)
open Json (get?)

/-! ## Answers with an error -/

/-- The body of the answer to a request, if it is answered. A request whose own body cannot be read is
not, and answers with some statuses have no body. -/
def answerBody? (request : SentRequest) : Reply → Option (List UInt8)
  | .answered status body =>
      match request.body with
      | .bytes _ => some (if Exchange.isBodiless status then [] else body)
      | .unreadable _ => none
  | _ => none

/-- Whether a request is answered with an object whose error is this text. -/
def ReportsError (m : String) (request : SentRequest) (reply : Reply) : Prop :=
  ∃ body members, answerBody? request reply = some body ∧ Json.read body = .ok (.object members) ∧
    get? "Error" members = some (.string m)

namespace Conversation

variable {α β : Type}

/-- A conversation fails in this way without another request. -/
inductive FailsWith (f : Failure) : Conversation α → Prop where
  | failed : FailsWith f (failed f)
  | noted (e : Log.Event) {rest : Conversation α} (h : FailsWith f rest) : FailsWith f (noted e rest)

/-- A conversation fails with an error whenever a request is answered with it. -/
inductive HaltsOn (m : String) : Conversation α → Prop where
  | ended (a : α) : HaltsOn m (ended a)
  | failed (f : Failure) : HaltsOn m (failed f)
  | noted (e : Log.Event) {rest : Conversation α} (h : HaltsOn m rest) : HaltsOn m (noted e rest)
  | asked {r : SentRequest} {next : Reply → Conversation α} (hNext : ∀ reply, HaltsOn m (next reply))
      (hFails : ∀ reply, ReportsError m r reply → FailsWith (.server m) (next reply)) :
      HaltsOn m (asked r next)

variable {m : String} {f : Failure} {c : Conversation α}

theorem FailsWith.bind (h : c.FailsWith f) (next : α → Conversation β) :
    (c >>= next).FailsWith f := by
  induction h with
  | failed => exact .failed
  | noted e _ ih => exact .noted e ih

theorem HaltsOn.bind (h : c.HaltsOn m) {next : α → Conversation β}
    (hNext : ∀ a, (next a).HaltsOn m) : (c >>= next).HaltsOn m := by
  induction h with
  | ended a => exact hNext a
  | failed f => exact .failed f
  | noted e _ ih => exact .noted e ih
  | asked _ hFails ih => exact .asked ih fun reply hError => (hFails reply hError).bind next

/-- Halting on an error is kept when conversations are strung together. -/
theorem composes_haltsOn (m : String) : Composes fun c => c.HaltsOn m where
  ended := .ended
  failed := .failed
  noted := .noted
  bind h hNext := h.bind hNext

/-! ## One exchange -/

private theorem failsWith_conclude [Payload α] (path : String) (u : Url) {request : SentRequest}
    {reply : Reply} (hm : m ≠ "") (h : ReportsError m request reply) :
    (Exchange.conclude path u request.body reply : Conversation α).FailsWith (.server m) := by
  obtain ⟨answer, members, hAnswer, hRead, hError⟩ := h
  have hDecode := Envelope.decode_of_reported (α := α) hRead hError hm
  cases reply with
  | unreachable causes => cases hAnswer
  | dropped => cases hAnswer
  | brokenOff what causes => cases hAnswer
  | answered status body =>
      simp only [answerBody?] at hAnswer
      cases hBody : request.body with
      | unreadable e =>
          rw [hBody] at hAnswer
          cases hAnswer
      | bytes data =>
          rw [hBody, Option.some.injEq] at hAnswer
          rw [← hAnswer] at hDecode
          apply FailsWith.noted
          show (ofExcept (Except.mapError _ _)).FailsWith _
          rw [hDecode]
          exact .failed

/-- **One exchange fails with an error whenever its request is answered with it.** -/
theorem haltsOn_exchange [DomainMapping] [Payload α] (base : Base) (o : Operation) (hm : m ≠ "") :
    (o.exchange (α := α) base).HaltsOn m := by
  apply (composes_haltsOn m).exchange
  intro url _
  apply HaltsOn.asked
  · intro reply
    exact .noted _ ((composes_haltsOn m).conclude _ _ _ reply)
  · intro reply hError
    exact .noted _ (failsWith_conclude _ _ hm hError)

/-- **Every command halts on an error.** -/
theorem haltsOn_perform [DomainMapping] [Text.Measure] (env : Environment) (files : Files)
    (i : Invocation) (hm : m ≠ "") : (i.perform env files).HaltsOn m := by
  apply (composes_haltsOn m).perform env
  intro base _ _ _ o _ _ _
  exact haltsOn_exchange base o hm

/-! ## Runs -/

theorem FailsWith.transcript (h : c.FailsWith f) (service : Service) :
    (c.transcript service).result = .error f ∧ (c.transcript service).exchanges = [] := by
  induction h with
  | failed => exact ⟨rfl, rfl⟩
  | noted e _ ih => exact ih

/-- A conversation that halts on an error asks nothing after it and fails with it. -/
theorem HaltsOn.transcript (h : c.HaltsOn m) {service : Service}
    {before after : List (SentRequest × Reply)} {request : SentRequest} {reply : Reply}
    (hExchanges : (c.transcript service).exchanges = before ++ (request, reply) :: after)
    (hError : ReportsError m request reply) :
    after = [] ∧ (c.transcript service).result = .error (.server m) := by
  -- The requests in front of the error are the steps down the tree.
  induction h generalizing service before with
  | ended a => simp [Conversation.transcript] at hExchanges
  | failed g => simp [Conversation.transcript] at hExchanges
  | noted e _ ih => exact ih hExchanges
  | @asked r next hNext hFails ih =>
      have hAsked : (r, service.reply.1) ::
          ((next service.reply.1).transcript service.reply.2).exchanges =
            before ++ (request, reply) :: after := hExchanges
      show after = [] ∧ ((next service.reply.1).transcript service.reply.2).result = _
      cases before with
      | nil =>
          rw [List.nil_append, List.cons.injEq, Prod.mk.injEq] at hAsked
          obtain ⟨⟨rfl, rfl⟩, hRest⟩ := hAsked
          obtain ⟨hResult, hNone⟩ := (hFails _ hError).transcript service.reply.2
          exact ⟨hRest.symm.trans hNone, hResult⟩
      | cons first others =>
          rw [List.cons_append, List.cons.injEq] at hAsked
          exact ih _ hAsked.2

end Conversation

/-- Without being asked for detail, a run writes nothing to its log. -/
theorem admits_default (e : Log.Event) : (Log.Filter.ofText none 0).admits e = false := by
  have hLimit : ∀ target ∈ ["kapacitor::commands::delete", "kapacitor::client", "kapacitor"],
      (Log.Filter.ofText none 0).limitFor target = some .warn := by decide +kernel
  have hTarget : e.target ∈ ["kapacitor::commands::delete", "kapacitor::client", "kapacitor"] := by
    cases e <;> simp [Log.Event.target]
  rw [Log.Filter.admits, hLimit _ hTarget]
  cases e <;> rfl

/-- **An error of the service ends the run and is what the operator is told.** If a request is answered
with it, there is no further one, nothing is printed, and the report is the error and nothing else: as a
table the text itself, as JSON a document whose message is the text. -/
theorem run_server_error [DomainMapping] [Text.Measure] {env : Environment} {files : Files}
    {service : Service} {words : List (List UInt8)} {i : Invocation}
    (hRead : CommandLine.read env words = .ok i)
    {before after : List (SentRequest × Reply)} {request : SentRequest} {reply : Reply}
    (hExchanges : (run env files service words).exchanges = before ++ (request, reply) :: after)
    {m : String} (hm : m ≠ "") (hError : ReportsError m request reply) :
    after = [] ∧
      (run env files service words).ending = .failed i.settings.format (.server m) ∧
      (run env files service words).ending.exitCode = 3 ∧
      (run env files service words).ending.failure?.map Failure.code = some "server_error" ∧
      (run env files service words).ending.output env = "" ∧
      (i.settings.debug = 0 → (run env files service words).logged none = []) ∧
      (i.settings.format = .table →
        (run env files service words).ending.errorOutput env = m ++ "\n") ∧
      (i.settings.format = .json →
        ∃ document error,
          Json.read (Text.Utf8.bytes ((run env files service words).ending.errorOutput env)) =
            .ok document ∧
          document.member? "error" = some error ∧ error.member? "message" = some (.string m)) := by
  obtain ⟨hSame, hEnding, hDetail⟩ := run_of_read files service hRead
  rw [hSame] at hExchanges
  have hHalts := Conversation.haltsOn_perform env files i hm
  obtain ⟨hAfter, hResult⟩ := hHalts.transcript hExchanges hError
  rw [hEnding, hResult, Invocation.ending]
  refine ⟨hAfter, rfl, rfl, rfl, rfl, ?_, ?_, ?_⟩
  · intro hDebug
    rw [Run.logged, hDetail, hDebug, List.filter_eq_nil_iff]
    intro e _
    simp [admits_default e]
  · intro hTable
    rw [hTable]
    exact String.append_empty
  · intro hJson
    rw [hJson]
    exact ⟨_, _, (Failure.server m).read_report env, rfl, rfl⟩

/-- A service that knows the first task and not the second. -/
def oneTaskService : Service :=
  ⟨[.answered 204 [], .answered 404 (Text.Utf8.bytes "\x7b\"Error\":\"no\\u0020task\"\x7d")], .dropped⟩

section

attribute [local instance] DomainMapping.asciiOnly Text.Measure.byCharacters

/-- Three targets, the second of which the service does not know. -/
theorem run_enable_error :
    ∃ i before request reply,
      CommandLine.read ⟨none⟩
        (["--url", "http://host", "--json", "enable", "a", "b", "c"].map Text.Utf8.bytes) = .ok i ∧
      (run ⟨none⟩ (fun _ => .ok (.bytes [])) oneTaskService
        (["--url", "http://host", "--json", "enable", "a", "b", "c"].map
          Text.Utf8.bytes)).exchanges = before ++ (request, reply) :: [] ∧
      "no task" ≠ "" ∧ ReportsError "no task" request reply ∧
      (run ⟨none⟩ (fun _ => .ok (.bytes [])) oneTaskService
        (["--url", "http://host", "--json", "enable", "a", "b", "c"].map
          Text.Utf8.bytes)).ending = .failed i.settings.format (.server "no task") := by
  have hRead : CommandLine.read ⟨none⟩
      (["--url", "http://host", "--json", "enable", "a", "b", "c"].map Text.Utf8.bytes) =
      .ok ⟨⟨"http://host", .table, true, 0⟩, .enable ["a", "b", "c"]⟩ := by decide +kernel
  let url : String → Url := fun query =>
    ⟨"http", some ⟨"", "", .name "host", none⟩, .segments ["enable"], some query, none⟩
  let request : String → SentRequest := fun query =>
    ⟨.post, url query, some octetStream, userAgent, none, .bytes []⟩
  have hExchanges : (run ⟨none⟩ (fun _ => .ok (.bytes [])) oneTaskService
        (["--url", "http://host", "--json", "enable", "a", "b", "c"].map
          Text.Utf8.bytes)).exchanges =
      [(request "name=a", .answered 204 [])] ++ (request "name=b", .answered 404
        (Text.Utf8.bytes "\x7b\"Error\":\"no\\u0020task\"\x7d")) :: [] := by decide +kernel
  have hError : ReportsError "no task" (request "name=b") (.answered 404
      (Text.Utf8.bytes "\x7b\"Error\":\"no\\u0020task\"\x7d")) :=
    ⟨_, _, rfl, rfl, rfl⟩
  exact ⟨_, _, _, _, hRead, hExchanges, by decide, hError,
    (run_server_error hRead hExchanges (by decide) hError).2.1⟩

end

end ControlClient
