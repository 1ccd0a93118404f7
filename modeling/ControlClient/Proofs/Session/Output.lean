import ControlClient.Proofs.Session.Course
import ControlClient.Proofs.Session.ServerError

/-!
# What a run prints

The output of a run is read by scripts, so it has to be exact: what the answer of the service holds, as
the command shows it, or nothing. A command that fails prints nothing, even if it fails behind requests
that went well, since what is printed is the result of the whole conversation. The log is no part of it.

## Main results

* `outcome_told_iff`, `result_of_const`: what the two kinds of conversations come to, those that tell the
  payload of one answer and those that tell nothing.
* `tells_perform`, `perform_of_tells`: what a command prints that succeeds, and that it does.
* `run_output`: what a run prints.
-/

namespace ControlClient

open CommandLine (Environment)

/-- Whether there was one request, whose answer holds this payload. -/
def AnsweredWith {α : Type} [Payload α] (exchanges : List (SentRequest × Reply)) (payload : α) :
    Prop :=
  ∃ request reply body, exchanges = [(request, reply)] ∧ answerBody? request reply = some body ∧
    Envelope.decode body = .ok payload

/-- What a command prints that succeeds, and what was exchanged for it. -/
def Invocation.Tells [Text.Measure] (env : Environment) (i : Invocation)
    (exchanges : List (SentRequest × Reply)) (output : String) : Prop :=
  match i.command with
  | .record _ =>
      ∃ created : RecordingCreated, AnsweredWith exchanges created ∧ output = created.id ++ "\n"
  | .list (some .tasks) _ =>
      ∃ list : TaskList, AnsweredWith exchanges list ∧
        output = Listing.tasks i.settings.format list.tasks ++ "\n"
  | .list (some .recordings) _ =>
      ∃ list : RecordingList, AnsweredWith exchanges list ∧
        output = Listing.recordings i.settings.format list.recordings ++ "\n"
  | .list none _ => False
  | .define _ | .replay _ | .enable _ | .disable _ | .delete _ _ | .level _ => output = ""
  | .version => output = versionText ++ "\n"
  | .help topic? => ∃ page, helpOn env topic? = .ok page ∧ output = page ++ "\n"

/-- Whether a command tells what the answer of the service holds. -/
def Command.tellsAnswer : Command → Bool
  | record _ | list _ _ => true
  | _ => false

/-! ## Conversations that come to a result -/

section Conversations

variable {α β : Type} {service : Service}

/-- An attempt is answered with what its reply carries. -/
theorem answeredWith_exchange_iff [Payload α] {a : Attempt} {payload : α} :
    AnsweredWith [a.exchange] payload ↔ a.answer α = .ok payload := by
  have hAnswer : a.answer α = .ok payload ↔
      ∃ body, answerBody? a.request a.reply = some body ∧ Envelope.decode body = .ok payload := by
    unfold Attempt.answer
    split
    · next causes _ hReply => simp [answerBody?, hReply]
    · next _ hReply => simp [answerBody?, hReply]
    · next what causes _ hReply _ => simp [answerBody?, hReply]
    · next e hBody _ _ => cases hReply : a.reply <;> simp [answerBody?, hBody]
    · next status body data hReply hBody => simp [answerBody?, hReply, hBody, mapError_eq_ok_iff]
  rw [hAnswer]
  constructor
  · rintro ⟨request, reply, body, hOnly, hBody⟩
    cases hOnly
    exact ⟨body, hBody⟩
  · rintro ⟨body, hBody⟩
    exact ⟨a.request, a.reply, body, rfl, hBody⟩

theorem not_answeredWith_nil [Payload α] {payload : α} : ¬AnsweredWith [] payload := by
  rintro ⟨request, reply, body, hNone, -⟩
  cases hNone

/-- What is made of the payload of an attempt is the result exactly if it is answered with that
payload. -/
theorem Attempt.followed_told_iff [Payload α] (a : Attempt) (tell : α → β) (told : β) :
    (a.followed fun payload => (.ok (tell payload), [])).1 = .ok told ↔
      ∃ payload : α, AnsweredWith (a.followed fun payload => (.ok (tell payload), [])).2 payload ∧
        told = tell payload := by
  unfold followed
  cases a.refusal? with
  | some f => simp [not_answeredWith_nil]
  | none =>
      cases hAnswer : a.answer α with
      | ok payload => simp [answeredWith_exchange_iff, hAnswer, eq_comm]
      | error f => simp [answeredWith_exchange_iff, hAnswer]

/-- **A conversation that tells the payload of one answer** comes to what is made of the payload, and
does so whenever there is one. -/
theorem outcome_told_iff [DomainMapping] [Payload α] (base : Base) (o : Operation) (tell : α → β)
    (told : β) :
    (outcome ((o.exchange (α := α) base).bind fun payload => .ended (tell payload)) service).1 =
        .ok told ↔
      ∃ payload : α, AnsweredWith (outcome ((o.exchange (α := α) base).bind fun payload =>
        .ended (tell payload)) service).2 payload ∧ told = tell payload := by
  cases hUrl : base.urlFor o.request with
  | error e =>
      rw [exchange_of_urlFor_error hUrl, Conversation.bind, outcome_failed]
      simp [not_answeredWith_nil]
  | ok url =>
      rw [outcome_exchange (a := ⟨o, url, service.reply.1⟩) hUrl rfl]
      simp only [outcome_ended]
      exact Attempt.followed_told_iff _ tell told

/-- A conversation whose result is laid down comes to no other. -/
theorem result_of_const {c : Conversation α} {laid told : β}
    (h : (outcome (c.bind fun _ => .ended laid) service).1 = .ok told) : told = laid := by
  -- The result stands at the end of every branch.
  induction c generalizing service with
  | ended a =>
      cases h
      rfl
  | failed f => cases h
  | noted e rest ih => exact ih h
  | asked r next ih =>
      have hNext : (outcome ((next service.reply.1).bind fun _ => .ended laid) service.reply.2).1 =
          .ok told := h
      exact ih _ hNext

end Conversations

/-! ## Commands -/

section Commands

variable {env : Environment} {files : Files} {service : Service} {i : Invocation} {output : String}

/-- A plan of a command that tells an answer comes to what the answer holds, and to nothing else. -/
theorem carryOut_told_iff [DomainMapping] [Text.Measure] {base : Base} {p : Plan}
    (hTells : i.command.tellsAnswer = true) (hPlan : i.command.plan files = .ok p) :
    (outcome (p.carryOut base i.settings.format) service).1 = .ok output ↔
      i.Tells env (outcome (p.carryOut base i.settings.format) service).2 output := by
  obtain ⟨settings, command⟩ := i
  cases command with
  | record o =>
      obtain ⟨source, -, rfl⟩ := map_eq_ok_iff.1 hPlan
      rw [carryOut_record]
      exact outcome_told_iff base _ _ output
  | list kind? ids =>
      cases kind? with
      | none => cases hPlan
      | some kind =>
          cases kind with
          | tasks =>
              cases hPlan
              rw [carryOut_listTasks]
              exact outcome_told_iff base _ _ output
          | recordings =>
              cases hPlan
              rw [carryOut_listRecordings]
              exact outcome_told_iff base _ _ output
  | _ => cases hTells

/-- A plan of any other command is to do something in turn. -/
theorem plan_of_silent {c : Command} {p : Plan} (hTells : c.tellsAnswer = false)
    (hPlan : c.plan files = .ok p) :
    (∃ operations, p = .inTurn operations) ∨ ∃ kind ids, p = .delete kind ids := by
  cases c with
  | record o => cases hTells
  | define o =>
      obtain ⟨operation, -, hInTurn⟩ := map_eq_ok_iff.1 hPlan
      exact .inl ⟨_, hInTurn.symm⟩
  | replay o =>
      simp only [Command.plan] at hPlan
      split at hPlan
      · cases hPlan
      · exact .inl ⟨_, (Except.ok.inj hPlan).symm⟩
  | enable names => exact .inl ⟨_, planEach_spec hPlan⟩
  | disable names => exact .inl ⟨_, planEach_spec hPlan⟩
  | delete kind? ids =>
      simp only [Command.plan] at hPlan
      split at hPlan
      · exact .inr ⟨_, _, (Except.ok.inj hPlan).symm⟩
      · cases hPlan
  | list kind? ids => cases hTells
  | level level? =>
      cases level? with
      | none => cases hPlan
      | some newLevel => exact .inl ⟨_, (Except.ok.inj hPlan).symm⟩
  | version => exact .inl ⟨_, (Except.ok.inj hPlan).symm⟩
  | help topic? => exact .inl ⟨_, (Except.ok.inj hPlan).symm⟩

/-- Such a plan tells nothing. -/
theorem carryOut_silent [DomainMapping] [Text.Measure] {c : Command} {base : Base} {p : Plan}
    {format : OutputFormat} (hTells : c.tellsAnswer = false) (hPlan : c.plan files = .ok p)
    (h : (outcome (p.carryOut base format) service).1 = .ok output) : output = "" := by
  rcases plan_of_silent hTells hPlan with ⟨operations, rfl⟩ | ⟨kind, ids, rfl⟩
  · rw [carryOut_inTurn] at h
    exact result_of_const h
  · rw [carryOut_delete, outcome_noted] at h
    exact result_of_const h

/-- A command that needs the service and tells no answer tells nothing. -/
theorem tells_of_silent [Text.Measure] {exchanges : List (SentRequest × Reply)}
    (hNeeds : i.command.needsService = true) (hTells : i.command.tellsAnswer = false)
    (h : output = "") : i.Tells env exchanges output := by
  obtain ⟨settings, command⟩ := i
  cases command with
  | record o => cases hTells
  | list kind? ids => cases hTells
  | version => cases hNeeds
  | help topic? => cases hNeeds
  | _ => exact h

/-- Without an exchange there is no answer to tell. -/
theorem not_tells_nil [Text.Measure] (hTells : i.command.tellsAnswer = true) :
    ¬i.Tells env [] output := by
  obtain ⟨settings, command⟩ := i
  cases command with
  | record o =>
      rintro ⟨created, hAnswered, -⟩
      exact not_answeredWith_nil hAnswered
  | list kind? ids =>
      cases kind? with
      | none => exact id
      | some kind =>
          cases kind with
          | tasks =>
              rintro ⟨list, hAnswered, -⟩
              exact not_answeredWith_nil hAnswered
          | recordings =>
              rintro ⟨list, hAnswered, -⟩
              exact not_answeredWith_nil hAnswered
  | _ => cases hTells

theorem needsService_of_tellsAnswer {c : Command} (h : c.tellsAnswer = true) :
    c.needsService = true := by
  cases c with
  | record o => rfl
  | list kind? ids => rfl
  | _ => cases h

/-- A command that needs the service carries out a plan, or fails without an exchange. -/
theorem outcome_perform_cases [DomainMapping] [Text.Measure] (env : Environment) (files : Files)
    (service : Service) (hNeeds : i.command.needsService = true) :
    (∃ f, outcome (i.perform env files) service = (.error f, [])) ∨
      ∃ base p, i.command.plan files = .ok p ∧ outcome (i.perform env files) service =
        outcome (p.carryOut base i.settings.format) service := by
  cases hBase : Base.read i.settings.url with
  | error e =>
      rw [(perform_of_needsService env files hNeeds).2, hBase]
      exact .inl ⟨.invalidUrl e, rfl⟩
  | ok base =>
      rw [(outcome_of_needsService env files service hBase hNeeds).2]
      cases i.command.plan files with
      | error f => exact .inl ⟨f, rfl⟩
      | ok p => exact .inr ⟨base, p, rfl, rfl⟩

/-- **What a command prints that succeeds.** -/
theorem tells_perform [DomainMapping] [Text.Measure]
    (h : (outcome (i.perform env files) service).1 = .ok output) :
    i.Tells env (outcome (i.perform env files) service).2 output := by
  by_cases hNeeds : i.command.needsService = true
  · rcases outcome_perform_cases env files service hNeeds with
      ⟨f, hOutcome⟩ | ⟨base, p, hPlan, hOutcome⟩
    · rw [hOutcome] at h
      cases h
    · rw [hOutcome] at h ⊢
      cases hTells : i.command.tellsAnswer with
      | true => exact (carryOut_told_iff hTells hPlan).1 h
      | false => exact tells_of_silent hNeeds hTells (carryOut_silent hTells hPlan h)
  · obtain ⟨settings, command⟩ := i
    cases command with
    | version =>
        cases h
        rfl
    | help topic? =>
        unfold Invocation.perform at h
        dsimp only at h
        cases hHelp : helpOn env topic? with
        | error f =>
            rw [hHelp] at h
            cases h
        | ok page =>
            rw [hHelp] at h
            cases h
            exact ⟨page, hHelp, rfl⟩
    | _ => exact absurd rfl hNeeds

/-- **What an answer holds is told**, if a command tells answers. -/
theorem perform_of_tells [DomainMapping] [Text.Measure] (hTells : i.command.tellsAnswer = true)
    (h : i.Tells env (outcome (i.perform env files) service).2 output) :
    (outcome (i.perform env files) service).1 = .ok output := by
  rcases outcome_perform_cases env files service (needsService_of_tellsAnswer hTells) with
    ⟨f, hOutcome⟩ | ⟨base, p, hPlan, hOutcome⟩
  · rw [hOutcome] at h
    exact absurd h (not_tells_nil hTells)
  · rw [hOutcome] at h ⊢
    exact (carryOut_told_iff hTells hPlan).2 h

/-- What a command does, and so what it prints, does not depend on how much detail its log has. -/
theorem perform_of_debug [DomainMapping] [Text.Measure] (env : Environment) (files : Files)
    (i : Invocation) (detail : Nat) :
    Invocation.perform env files { i with settings.debug := detail } = i.perform env files := rfl

end Commands

/-! ## Runs -/

theorem Failure.exitCode_ne_zero (f : Failure) : f.exitCode ≠ 0 := by
  cases f <;> simp [exitCode]

/-- Nothing is printed when a run ends otherwise than well. -/
theorem Ending.output_of_exitCode (env : Environment) {e : Ending} (h : e.exitCode ≠ 0) :
    e.output env = "" := by
  cases e with
  | succeeded text => exact absurd rfl h
  | failed format f => rfl
  | rejected r =>
      cases r with
      | help detail command? => exact absurd rfl h
      | missingCommand => rfl
      | unknownCommand name => rfl
      | argument fault => rfl

/-- **What a run prints.** With an exit code other than 0 nothing. With exit code 0, if the command line
is read, exactly what the command tells: an identifier or a listing is what the one answer holds, with
nothing in front of it and a line break behind it; and an answer that holds such a payload always leads
to this. How much detail is asked for in the log changes neither this nor anything else about how the run
ends. -/
theorem run_output [DomainMapping] [Text.Measure] (env : Environment) (files : Files) (service : Service)
    (words : List (List UInt8)) :
    ((run env files service words).ending.exitCode ≠ 0 →
      (run env files service words).ending.output env = "") ∧
    ∀ i, CommandLine.read env words = .ok i →
      ((run env files service words).ending.exitCode = 0 →
        i.Tells env (run env files service words).exchanges
          ((run env files service words).ending.output env)) ∧
      (i.command.tellsAnswer = true → ∀ output,
        i.Tells env (run env files service words).exchanges output →
          (run env files service words).ending = .succeeded output) ∧
      ∀ (detail : Nat) (words' : List (List UInt8)),
        CommandLine.read env words' = .ok { i with settings.debug := detail } →
          (run env files service words').ending = (run env files service words).ending ∧
          (run env files service words').exchanges = (run env files service words).exchanges := by
  refine ⟨Ending.output_of_exitCode env, fun i hRead => ?_⟩
  obtain ⟨hExchanges, hEnding, -⟩ := run_of_read files service hRead
  refine ⟨fun hZero => ?_, fun hTells output h => ?_, fun detail words' hRead' => ?_⟩
  · rw [hExchanges]
    rw [hEnding] at hZero ⊢
    cases hResult : ((i.perform env files).transcript service).result with
    | ok output => exact tells_perform hResult
    | error f =>
        rw [hResult] at hZero
        exact absurd hZero f.exitCode_ne_zero
  · rw [hExchanges] at h
    have hResult : ((i.perform env files).transcript service).result = .ok output :=
      perform_of_tells hTells h
    rw [hEnding, hResult]
    rfl
  · obtain ⟨hExchanges', hEnding', -⟩ := run_of_read files service hRead'
    rw [perform_of_debug] at hExchanges' hEnding'
    exact ⟨hEnding'.trans hEnding.symm, hExchanges'.trans hExchanges.symm⟩

/-- A service that starts one recording. -/
def oneRecordingService : Service :=
  ⟨[.answered 200 (Text.Utf8.bytes "\x7b\"RecordingID\":\"r1\"\x7d")], .dropped⟩

section

attribute [local instance] DomainMapping.asciiOnly Text.Measure.byCharacters

/-- A recording whose identifier is printed, with and without a log, and two targets, the second of which
the service does not know. -/
theorem run_output_record :
    ∃ (i : Invocation) (recorded logged stopped : Run),
      CommandLine.read ⟨none⟩ (["--url", "http://host", "record", "stream", "--duration", "1m"].map
        Text.Utf8.bytes) = .ok i ∧
      recorded = run ⟨none⟩ (fun _ => .ok (.bytes [])) oneRecordingService (["--url", "http://host",
        "record", "stream", "--duration", "1m"].map Text.Utf8.bytes) ∧
      recorded.ending.exitCode = 0 ∧ recorded.ending.output ⟨none⟩ = "r1\n" ∧
      i.Tells ⟨none⟩ recorded.exchanges "r1\n" ∧ i.command.tellsAnswer = true ∧
      recorded.ending = .succeeded "r1\n" ∧
      CommandLine.read ⟨none⟩ (["-dd", "--url", "http://host", "record", "stream", "--duration",
        "1m"].map Text.Utf8.bytes) = .ok { i with settings.debug := 2 } ∧
      logged = run ⟨none⟩ (fun _ => .ok (.bytes [])) oneRecordingService (["-dd", "--url",
        "http://host", "record", "stream", "--duration", "1m"].map Text.Utf8.bytes) ∧
      logged.ending = recorded.ending ∧ logged.exchanges = recorded.exchanges ∧
      stopped = run ⟨none⟩ (fun _ => .ok (.bytes [])) oneTaskService
        (["--url", "http://host", "enable", "a", "b"].map Text.Utf8.bytes) ∧
      stopped.ending.exitCode ≠ 0 ∧ stopped.ending.output ⟨none⟩ = "" := by
  have hRead : CommandLine.read ⟨none⟩ (["--url", "http://host", "record", "stream", "--duration",
      "1m"].map Text.Utf8.bytes) = .ok ⟨⟨"http://host", .table, false, 0⟩,
        .record ⟨.stream, ⟨60 * nanosPerSecond, by decide⟩, "", "", 1, "", "", none⟩⟩ := by
    decide +kernel
  have hReadLogged : CommandLine.read ⟨none⟩ (["-dd", "--url", "http://host", "record", "stream",
      "--duration", "1m"].map Text.Utf8.bytes) = .ok ⟨⟨"http://host", .table, false, 2⟩,
        .record ⟨.stream, ⟨60 * nanosPerSecond, by decide⟩, "", "", 1, "", "", none⟩⟩ := by
    decide +kernel
  have hZero : (run ⟨none⟩ (fun _ => .ok (.bytes [])) oneRecordingService (["--url", "http://host",
      "record", "stream", "--duration", "1m"].map Text.Utf8.bytes)).ending.exitCode = 0 := by
    decide +kernel
  have hOutput : (run ⟨none⟩ (fun _ => .ok (.bytes [])) oneRecordingService (["--url",
      "http://host", "record", "stream", "--duration", "1m"].map Text.Utf8.bytes)).ending.output
        ⟨none⟩ = "r1\n" := by decide +kernel
  have hStopped : (run ⟨none⟩ (fun _ => .ok (.bytes [])) oneTaskService
      (["--url", "http://host", "enable", "a", "b"].map Text.Utf8.bytes)).ending.exitCode ≠ 0 := by
    decide +kernel
  obtain ⟨hTells, hSucceeds, hDetail⟩ :=
    (run_output _ (fun _ => .ok (.bytes [])) oneRecordingService _).2 _ hRead
  have hTold := hTells hZero
  rw [hOutput] at hTold
  obtain ⟨hEnding, hExchanges⟩ := hDetail 2 _ hReadLogged
  exact ⟨_, _, _, _, hRead, rfl, hZero, hOutput, hTold, rfl, hSucceeds rfl _ hTold, hReadLogged, rfl,
    hEnding, hExchanges, rfl, hStopped, (run_output _ _ _ _).1 hStopped⟩

end

end ControlClient
