import ControlClient.Proofs.Base
import ControlClient.Session.Run

/-!
# Operations in turn

Carrying out a plan is a loop over its operations whose state is the service: each operation takes the
next reply, and the loop ends early at the first that fails. Here the loop is compared with a list that
is laid out beforehand. An `Attempt` is an operation with its URL and the reply that it would get if
the plan came that far; what is really sent are the attempts in front of the first that is refused, up
to and including the first whose reply is a failure.

## Main results

* `outcome_exchange`: one operation.
* `outcome_sendInTurn`: operations in turn, by induction on them.
* `outcome_carryOut`: a whole plan.
* `sent_prefix`, `sent_eq_self`: what is sent is a front of the plan, and all of it if nothing fails.
-/

namespace ControlClient

/-! ## Attempts -/

/-- An operation, the URL of its request, and the reply that the request would get. -/
structure Attempt where
  operation : Operation
  url : Url
  reply : Reply

namespace Attempt

/-- The request of an attempt. -/
def request (a : Attempt) : SentRequest := Exchange.sentRequest a.operation.request a.url

/-- The request and its reply. -/
def exchange (a : Attempt) : SentRequest × Reply := (a.request, a.reply)

/-- The failure in which an attempt ends if no request is made for its URL. -/
def refusal? (a : Attempt) : Option Failure :=
  (Exchange.refusal? a.url.released).map fun cause =>
    .transport (Exchange.buildingFailed a.url.released) [cause]

/-- The payload that the reply carries, or why it carries none: there is no answer or only a part of one,
the service reports an error, or the body is malformed. -/
def answer (α : Type) [Payload α] (a : Attempt) : Except Failure α :=
  match a.reply, a.request.body with
  | .unreachable causes, _ => .error (.transport (Exchange.sendingFailed a.url.released) causes)
  | .dropped, body =>
      .error (.transport (Exchange.sendingFailed a.url.released) (Exchange.closedCauses body))
  | .brokenOff what causes, .bytes _ => .error (.transport what causes)
  | _, .unreadable e =>
      .error (.transport (Exchange.sendingFailed a.url.released)
        (Exchange.closedCauses (.unreadable e)))
  | .answered status body, .bytes _ =>
      (Envelope.decode (if Exchange.isBodiless status then [] else body)).mapError
        (Exchange.failureOf a.operation.request.path status)

end Attempt

/-- Why something failed, if it did. -/
def fault? {ε α : Type} : Except ε α → Option ε
  | .ok _ => none
  | .error e => some e

/-- The failure that the reply of an attempt is, for the payload of its operation. -/
def Attempt.failure? (a : Attempt) : Option Failure :=
  match a.operation with
  | .record _ => fault? (a.answer RecordingCreated)
  | .listTasks _ => fault? (a.answer TaskList)
  | .listRecordings _ => fault? (a.answer RecordingList)
  | _ => fault? (a.answer Acknowledgement)

/-- The attempts of operations, with the replies of a service in turn. -/
def attempts [DomainMapping] (base : Base) : Service → List Operation → Except InvalidUrl (List Attempt)
  | _, [] => .ok []
  | s, o :: rest => do
      let url ← base.urlFor o.request
      let others ← attempts base s.reply.2 rest
      return ⟨o, url, s.reply.1⟩ :: others

/-- The front of a list up to and including the first member with a property. -/
def upTo {α : Type} (p : α → Bool) : List α → List α
  | [] => []
  | a :: rest => if p a then [a] else a :: upTo p rest

/-- The attempts that are made: those in front of the first that is refused, up to the first that
fails. -/
def sent (as : List Attempt) : List Attempt :=
  upTo (·.failure?.isSome) (as.takeWhile (·.refusal?.isNone))

/-- The failure in which attempts in turn end, if one of them is refused or fails. -/
def firstFailure? (as : List Attempt) : Option Failure :=
  as.findSome? fun a => a.refusal?.or a.failure?

/-! ## One operation -/

/-- What a conversation ends in, and what was exchanged until then. -/
def outcome {α : Type} (c : Conversation α) (s : Service) :
    Except Failure α × List (SentRequest × Reply) :=
  ((c.transcript s).result, (c.transcript s).exchanges)

variable {α β : Type}

theorem transcript_eq_outcome (c : Conversation α) (s : Service) :
    (c.transcript s).result = (outcome c s).1 ∧ (c.transcript s).exchanges = (outcome c s).2 :=
  ⟨rfl, rfl⟩

/-- What follows from a reply is the payload that it carries, or the failure that it is. -/
private theorem outcome_conclude [Payload α] (a : Attempt) (next : α → Conversation β) (s : Service) :
    outcome ((Exchange.conclude a.operation.request.path a.url.released a.request.body a.reply).bind
      next) s =
      match a.answer α with
      | .ok payload => outcome (next payload) s
      | .error f => (.error f, []) := by
  unfold Attempt.answer
  cases hReply : a.reply with
  | unreachable causes => rfl
  | dropped => rfl
  | brokenOff what causes => cases a.request.body <;> rfl
  | answered status body =>
      cases hBody : a.request.body with
      | unreadable e => rfl
      | bytes data =>
          simp only [Exchange.conclude]
          cases hDecode : (Envelope.decode (if Exchange.isBodiless status then [] else body) :
              Except EnvelopeFault α) with
          | ok payload => rfl
          | error fault => rfl

/-- What an attempt ends in and exchanges if that much follows its payload. -/
def Attempt.followed [Payload α] (a : Attempt)
    (next : α → Except Failure β × List (SentRequest × Reply)) :
    Except Failure β × List (SentRequest × Reply) :=
  match a.refusal?, a.answer α with
  | some f, _ => (.error f, [])
  | none, .ok payload => ((next payload).1, a.exchange :: (next payload).2)
  | none, .error f => (.error f, [a.exchange])

/-- **What one operation does**, and what is done after it with the payload. -/
theorem outcome_exchange [DomainMapping] [Payload α] {base : Base} {a : Attempt}
    (hUrl : base.urlFor a.operation.request = .ok a.url) {s : Service} (hReply : s.reply.1 = a.reply)
    (next : α → Conversation β) :
    outcome ((a.operation.exchange (α := α) base).bind next) s =
      a.followed fun payload => outcome (next payload) s.reply.2 := by
  unfold Attempt.followed Attempt.refusal?
  cases hRefusal : Exchange.refusal? a.url.released with
  | some cause =>
      have hRefused : a.operation.exchange (α := α) base =
          .noted (.sending a.operation.request.method a.url.text)
            (.noted (.roundTrip a.operation.request.path)
              (.failed (.transport (Exchange.buildingFailed a.url.released) [cause]))) := by
        simp only [Operation.exchange, hUrl]
        show Conversation.noted _ _ = _
        rw [hRefusal]
        rfl
      rw [hRefused]
      rfl
  | none =>
      have hAsked : a.operation.exchange (α := α) base =
          .noted (.sending a.operation.request.method a.url.text)
            (.asked a.request fun reply =>
              .noted (.roundTrip a.operation.request.path)
                (Exchange.conclude a.operation.request.path a.url.released a.request.body reply)) := by
        simp only [Operation.exchange, hUrl]
        show Conversation.noted _ _ = _
        rw [hRefusal]
        rfl
      have hOutcome : outcome ((a.operation.exchange (α := α) base).bind next) s =
          ((outcome ((Exchange.conclude a.operation.request.path a.url.released a.request.body
              s.reply.1).bind next) s.reply.2).1, (a.request, s.reply.1) ::
            (outcome ((Exchange.conclude a.operation.request.path a.url.released a.request.body
              s.reply.1).bind next) s.reply.2).2) := by
        rw [hAsked]
        rfl
      simp only [Option.map_none]
      rw [hOutcome, hReply, outcome_conclude]
      cases a.answer α with
      | ok payload => rfl
      | error f => rfl

/-! ## Operations in turn -/

theorem attempts_cons [DomainMapping] {base : Base} {s : Service} {o : Operation} {rest : List Operation}
    {as : List Attempt} (h : attempts base s (o :: rest) = .ok as) :
    ∃ url others, base.urlFor o.request = .ok url ∧ attempts base s.reply.2 rest = .ok others ∧
      as = ⟨o, url, s.reply.1⟩ :: others := by
  simp only [attempts, bind_eq_ok_iff] at h
  obtain ⟨url, hUrl, others, hOthers, hEnd⟩ := h
  cases hEnd
  exact ⟨url, others, hUrl, hOthers, rfl⟩

theorem sent_cons (a : Attempt) (rest : List Attempt) :
    sent (a :: rest) =
      match a.refusal?, a.failure? with
      | some _, _ => []
      | none, some _ => [a]
      | none, none => a :: sent rest := by
  unfold sent
  cases hRefusal : a.refusal? with
  | some f => simp [hRefusal, upTo]
  | none =>
      cases hFailure : a.failure? with
      | some f => simp [hRefusal, hFailure, upTo]
      | none => simp [hRefusal, hFailure, upTo]

theorem firstFailure?_cons (a : Attempt) (rest : List Attempt) :
    firstFailure? (a :: rest) =
      match a.refusal?, a.failure? with
      | some f, _ => some f
      | none, some f => some f
      | none, none => firstFailure? rest := by
  unfold firstFailure?
  rw [List.findSome?_cons]
  cases a.refusal? with
  | some f => rfl
  | none => cases a.failure? <;> rfl

/-- Whether an operation is answered with a payload that tells nothing. -/
def Operation.isQuiet : Operation → Bool
  | .record _ | .listTasks _ | .listRecordings _ => false
  | _ => true

theorem failure?_of_isQuiet {a : Attempt} (h : a.operation.isQuiet = true) :
    a.failure? = fault? (a.answer Acknowledgement) := by
  unfold Attempt.failure?
  cases hOperation : a.operation <;> rw [hOperation] at h <;> first | rfl | cases h

/-- The result of attempts in turn, if that of the whole is given for when none fails. -/
def verdict (as : List Attempt) (a : α) : Except Failure α :=
  match firstFailure? as with
  | some f => .error f
  | none => .ok a

/-- **Operations in turn**: what is exchanged are the attempts that are made, each once and in order,
and the first failure is the result. -/
theorem outcome_sendInTurn [DomainMapping] {base : Base} {operations : List Operation} {s : Service}
    {as : List Attempt} (h : attempts base s operations = .ok as)
    (hQuiet : ∀ o ∈ operations, o.isQuiet = true) (b : β) :
    outcome ((sendInTurn base operations).bind fun _ => .ended b) s =
      (verdict as b, (sent as).map Attempt.exchange) := by
  -- The replies that are left are the state of the loop.
  induction operations generalizing s as with
  | nil =>
      cases h
      rfl
  | cons o rest ih =>
      obtain ⟨url, others, hUrl, hOthers, rfl⟩ := attempts_cons h
      have hRest := ih hOthers fun o ho => hQuiet o (List.mem_cons_of_mem _ ho)
      have hStep : (sendInTurn base (o :: rest)).bind (fun _ => .ended b) =
          (o.exchange (α := Acknowledgement) base).bind fun _ =>
            (sendInTurn base rest).bind fun _ => .ended b := Conversation.bind_assoc _ _ _
      have hFailure := failure?_of_isQuiet (a := ⟨o, url, s.reply.1⟩) (hQuiet o (by simp))
      rw [hStep, outcome_exchange (a := ⟨o, url, s.reply.1⟩) hUrl rfl, hRest, sent_cons]
      unfold verdict Attempt.followed
      rw [firstFailure?_cons, hFailure]
      cases (⟨o, url, s.reply.1⟩ : Attempt).refusal? with
      | some f => rfl
      | none =>
          cases (⟨o, url, s.reply.1⟩ : Attempt).answer Acknowledgement with
          | error f => rfl
          | ok payload => rfl

/-! ## Plans -/

section CarryOut

variable [DomainMapping] [Text.Measure] (base : Base) (format : OutputFormat)

theorem carryOut_record (source : RecordSource) :
    (Plan.record source).carryOut base format =
      ((Operation.record source).exchange (α := RecordingCreated) base).bind
        fun created => .ended (created.id ++ "\n") := rfl

theorem carryOut_inTurn (operations : List Operation) :
    (Plan.inTurn operations).carryOut base format =
      (sendInTurn base operations).bind fun _ => .ended "" := rfl

theorem carryOut_delete (kind : DeleteKind) (ids : List String) :
    (Plan.delete kind ids).carryOut base format =
      .noted (.deleting kind ids)
        ((sendInTurn base (ids.map kind.operation)).bind fun _ => .ended "") := rfl

theorem carryOut_listTasks (names : List String) :
    (Plan.listTasks names).carryOut base format =
      ((Operation.listTasks names).exchange (α := TaskList) base).bind
        fun list => .ended (Listing.tasks format list.tasks ++ "\n") := rfl

theorem carryOut_listRecordings (ids : List String) :
    (Plan.listRecordings ids).carryOut base format =
      ((Operation.listRecordings ids).exchange (α := RecordingList) base).bind
        fun list => .ended (Listing.recordings format list.recordings ++ "\n") := rfl

end CarryOut

theorem outcome_ended (a : α) (s : Service) : outcome (.ended a) s = (.ok a, []) := rfl

theorem outcome_failed (f : Failure) (s : Service) :
    outcome (.failed f : Conversation α) s = (.error f, []) := rfl

/-- What is noted in the log is no part of the outcome. -/
theorem outcome_noted (e : Log.Event) (rest : Conversation α) (s : Service) :
    outcome (.noted e rest) s = outcome rest s := rfl

theorem fault?_verdict (as : List Attempt) (b : β) : fault? (verdict as b) = firstFailure? as := by
  unfold verdict
  cases firstFailure? as <;> rfl

/-- One operation whose payload is told. -/
private theorem outcome_single [DomainMapping] [Payload α] {base : Base} {o : Operation} {s : Service}
    {as : List Attempt} (h : attempts base s [o] = .ok as)
    (hFailure : ∀ a : Attempt, a.operation = o → a.failure? = fault? (a.answer α)) (tell : α → β) :
    fault? (outcome ((o.exchange (α := α) base).bind fun payload => .ended (tell payload)) s).1 =
        firstFailure? as ∧
      (outcome ((o.exchange (α := α) base).bind fun payload => .ended (tell payload)) s).2 =
        (sent as).map Attempt.exchange := by
  obtain ⟨url, others, hUrl, hOthers, rfl⟩ := attempts_cons h
  cases hOthers
  have hOwn := hFailure ⟨o, url, s.reply.1⟩ rfl
  rw [outcome_exchange (a := ⟨o, url, s.reply.1⟩) hUrl rfl, sent_cons, firstFailure?_cons, hOwn]
  unfold Attempt.followed
  cases (⟨o, url, s.reply.1⟩ : Attempt).refusal? with
  | some f => exact ⟨rfl, rfl⟩
  | none =>
      cases (⟨o, url, s.reply.1⟩ : Attempt).answer α with
      | error f => exact ⟨rfl, rfl⟩
      | ok payload => exact ⟨rfl, rfl⟩

/-- Plans whose operations are carried out in turn have quiet operations. -/
def Plan.IsQuiet : Plan → Prop
  | .inTurn operations => ∀ o ∈ operations, o.isQuiet = true
  | _ => True

/-- **A whole plan**: it fails with the first failure of its attempts, and the attempts that are made
are exchanged. -/
theorem outcome_carryOut [DomainMapping] [Text.Measure] {base : Base} {format : OutputFormat}
    {p : Plan} (hQuiet : p.IsQuiet) {s : Service} {as : List Attempt}
    (h : attempts base s p.operations = .ok as) :
    fault? (outcome (p.carryOut base format) s).1 = firstFailure? as ∧
      (outcome (p.carryOut base format) s).2 = (sent as).map Attempt.exchange := by
  cases p with
  | record source =>
      rw [carryOut_record]
      exact outcome_single h (fun a ha => by rw [Attempt.failure?, ha]) _
  | inTurn operations =>
      have hAttempts : attempts base s operations = .ok as := h
      have hTurn := outcome_sendInTurn hAttempts hQuiet ""
      rw [carryOut_inTurn, hTurn]
      exact ⟨fault?_verdict as "", rfl⟩
  | delete kind ids =>
      have hKind : ∀ o ∈ ids.map kind.operation, o.isQuiet = true := by
        intro o ho
        obtain ⟨id, -, rfl⟩ := List.mem_map.1 ho
        cases kind <;> rfl
      have hAttempts : attempts base s (ids.map kind.operation) = .ok as := h
      have hTurn := outcome_sendInTurn hAttempts hKind ""
      rw [carryOut_delete, outcome_noted, hTurn]
      exact ⟨fault?_verdict as "", rfl⟩
  | listTasks names =>
      rw [carryOut_listTasks]
      exact outcome_single h (fun a ha => by rw [Attempt.failure?, ha]) _
  | listRecordings ids =>
      rw [carryOut_listRecordings]
      exact outcome_single h (fun a ha => by rw [Attempt.failure?, ha]) _

/-! ## What is sent -/

theorem firstFailure?_eq_none_iff {as : List Attempt} :
    firstFailure? as = none ↔ ∀ a ∈ as, a.refusal? = none ∧ a.failure? = none := by
  rw [firstFailure?, List.findSome?_eq_none_iff]
  simp only [Option.or_eq_none_iff]

/-- What is sent is a front of the plan. -/
theorem sent_prefix (as : List Attempt) : sent as <+: as := by
  induction as with
  | nil => exact List.prefix_rfl
  | cons a rest ih =>
      rw [sent_cons]
      cases a.refusal? with
      | some f => exact List.nil_prefix
      | none =>
          cases a.failure? with
          | some f => exact ⟨rest, rfl⟩
          | none => exact List.cons_prefix_cons.2 ⟨rfl, ih⟩

/-- If nothing fails, everything is sent. -/
theorem sent_eq_self {as : List Attempt} (h : firstFailure? as = none) : sent as = as := by
  rw [firstFailure?_eq_none_iff] at h
  induction as with
  | nil => rfl
  | cons a rest ih =>
      obtain ⟨hRefusal, hFailure⟩ := h a (by simp)
      rw [sent_cons, hRefusal, hFailure]
      exact congrArg (a :: ·) (ih fun b hb => h b (List.mem_cons_of_mem _ hb))

/-- **Where attempts in turn stop**: at the last that is sent, whose reply is the failure, or in front
of one that is refused. -/
theorem firstFailure?_cases {as : List Attempt} {f : Failure} (h : firstFailure? as = some f) :
    (∃ a, (sent as).getLast? = some a ∧ a.failure? = some f) ∨
      (∃ a, as[(sent as).length]? = some a ∧ a.refusal? = some f ∧
        ∀ b ∈ sent as, b.failure? = none) := by
  induction as with
  | nil => cases h
  | cons a rest ih =>
      rw [firstFailure?_cons] at h
      rw [sent_cons]
      cases hRefusal : a.refusal? with
      | some g =>
          rw [hRefusal] at h
          cases h
          exact .inr ⟨a, rfl, hRefusal, by simp⟩
      | none =>
          cases hFailure : a.failure? with
          | some g =>
              rw [hRefusal, hFailure] at h
              cases h
              exact .inl ⟨a, rfl, hFailure⟩
          | none =>
              rw [hRefusal, hFailure] at h
              rcases ih h with ⟨b, hLast, hb⟩ | ⟨b, hNext, hb, hBefore⟩
              · refine .inl ⟨b, ?_, hb⟩
                rw [List.getLast?_cons, hLast]
                rfl
              · refine .inr ⟨b, by simpa using hNext, hb, ?_⟩
                intro c hc
                rcases List.mem_cons.1 hc with rfl | hRest
                · exact hFailure
                · exact hBefore c hRest

/-! ## Failures of attempts -/

/-- Whether a failure is the client's own, so that no request leads to it. -/
def Failure.isLocal : Failure → Bool
  | usage _ _ | unknownCommand _ | file _ _ | invalidUrl _ => true
  | transport _ _ | server _ | malformed _ _ _ => false

theorem Failure.exitCode_of_not_isLocal {f : Failure} (h : f.isLocal = false) : f.exitCode = 3 := by
  cases f with
  | transport outermost causes => rfl
  | server message => rfl
  | malformed path status fault => rfl
  | _ => cases h

private theorem isLocal_fault?_answer [Payload α] {a : Attempt} {f : Failure}
    (h : fault? (a.answer α) = some f) : f.isLocal = false := by
  unfold Attempt.answer at h
  split at h
  iterate 4
    · cases h
      rfl
  · next status body data hReply hBody =>
      cases hDecode : (Envelope.decode (if Exchange.isBodiless status then [] else body) :
          Except EnvelopeFault α) with
      | ok payload =>
          rw [hDecode] at h
          cases h
      | error fault =>
          rw [hDecode] at h
          cases h
          cases fault <;> rfl

/-- The failures of attempts are not the client's own. -/
theorem isLocal_firstFailure? {as : List Attempt} {f : Failure} (h : firstFailure? as = some f) :
    f.isLocal = false := by
  obtain ⟨a, -, hFailure⟩ := List.exists_of_findSome?_eq_some h
  cases hRefusal : a.refusal? with
  | some g =>
      rw [hRefusal] at hFailure
      cases hFailure
      obtain ⟨cause, -, rfl⟩ := Option.map_eq_some_iff.1 hRefusal
      rfl
  | none =>
      rw [hRefusal, Option.none_or] at hFailure
      unfold Attempt.failure? at hFailure
      split at hFailure <;> exact isLocal_fault?_answer hFailure

/-- The failures of attempts have the exit code of a service that failed. -/
theorem exitCode_firstFailure? {as : List Attempt} {f : Failure} (h : firstFailure? as = some f) :
    f.exitCode = 3 :=
  f.exitCode_of_not_isLocal (isLocal_firstFailure? h)

/-! ## Operations that have URLs -/

/-- Operations have attempts if each has a URL. -/
theorem exists_attempts_of_urlFor [DomainMapping] {base : Base} {operations : List Operation}
    (h : ∀ o ∈ operations, ∃ url, base.urlFor o.request = .ok url) (s : Service) :
    ∃ as, attempts base s operations = .ok as := by
  induction operations generalizing s with
  | nil => exact ⟨[], rfl⟩
  | cons o rest ih =>
      obtain ⟨url, hUrl⟩ := h o (by simp)
      obtain ⟨others, hOthers⟩ := ih (fun other hOther => h other (List.mem_cons_of_mem _ hOther))
        s.reply.2
      refine ⟨⟨o, url, s.reply.1⟩ :: others, ?_⟩
      rw [attempts, hUrl]
      simp only [bind, Except.bind, hOthers, pure, Except.pure]

/-- The operations of a plan all have URLs if the base is settled. -/
theorem exists_attempts [DomainMapping] {base : Base} {authority : Url.Authority} {parts : List String}
    (h : base.url.IsSettled authority parts) (s : Service) (operations : List Operation) :
    ∃ as, attempts base s operations = .ok as := by
  refine exists_attempts_of_urlFor (fun o _ => ?_) s
  obtain ⟨url, hUrl, -⟩ := Base.urlFor_origin h o.isVisiblePath
  exact ⟨url, hUrl⟩

end ControlClient
