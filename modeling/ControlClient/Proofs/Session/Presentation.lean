import ControlClient.Proofs.Session.Output

/-!
# How a command is shown

The format of listings and errors and the detail of the log are settings of how a command is shown, and
not of what it does. The format reaches the command at one place only, where the result of a listing is
written; up to there two conversations that differ in it are one conversation. So what they say to a
service, what they note for the log and how they fail is the same, against every service.

## Main results

* `transcript_told`: what is made of the result of a conversation changes nothing but the result.
* `matches_perform`: what a command does in two formats.
* `run_shown`: two runs of one command that are shown differently.
-/

namespace ControlClient

open CommandLine (Environment)

/-! ## Conversations that differ in their results -/

namespace Conversation

variable {α β γ : Type}

/-- Two conversations say the same to every service, note the same for the log, and fail alike; only
what they come to if they succeed may differ. -/
def Matches (c : Conversation α) (d : Conversation β) : Prop :=
  ∀ s, (c.transcript s).exchanges = (d.transcript s).exchanges ∧
    (c.transcript s).events = (d.transcript s).events ∧
    fault? (c.transcript s).result = fault? (d.transcript s).result

theorem Matches.refl (c : Conversation α) : c.Matches c := fun _ => ⟨rfl, rfl, rfl⟩

/-- What is made of a result that may be there. -/
theorem Matches.ofExcept_bind {x : Except Failure γ} {next : γ → Conversation α}
    {next' : γ → Conversation β} (h : ∀ a, x = .ok a → (next a).Matches (next' a)) :
    ((ofExcept x).bind next).Matches ((ofExcept x).bind next') := by
  cases x with
  | ok a => exact h a rfl
  | error f => exact fun _ => ⟨rfl, rfl, rfl⟩

/-- **What is made of the result of a conversation changes nothing but the result.** -/
theorem transcript_told (c : Conversation α) (tell : α → β) (s : Service) :
    (c.bind fun a => .ended (tell a)).transcript s =
      ⟨(c.transcript s).result.map tell, (c.transcript s).exchanges, (c.transcript s).events⟩ := by
  induction c generalizing s with
  | ended a => rfl
  | failed f => rfl
  | noted e rest ih => simp only [bind, transcript, ih]
  | asked r next ih => simp only [bind, transcript, ih]

/-- So what is made of it may differ. -/
theorem matches_told (c : Conversation α) (tell : α → β) (tell' : α → γ) :
    (c.bind fun a => .ended (tell a)).Matches (c.bind fun a => .ended (tell' a)) := by
  intro s
  rw [transcript_told, transcript_told]
  refine ⟨rfl, rfl, ?_⟩
  cases (c.transcript s).result <;> rfl

end Conversation

/-! ## Plans -/

/-- A plan is carried out in one way, whatever the format. -/
theorem matches_carryOut [DomainMapping] [Text.Measure] (base : Base) (format format' : OutputFormat)
    (p : Plan) : (p.carryOut base format).Matches (p.carryOut base format') := by
  cases p with
  | record source => exact .refl _
  | inTurn operations => exact .refl _
  | delete kind ids => exact .refl _
  | listTasks names =>
      rw [carryOut_listTasks, carryOut_listTasks]
      exact Conversation.matches_told _ _ _
  | listRecordings ids =>
      rw [carryOut_listRecordings, carryOut_listRecordings]
      exact Conversation.matches_told _ _ _

/-- Whether a plan shows a listing. -/
def Plan.shows : Plan → Bool
  | listTasks _ | listRecordings _ => true
  | _ => false

/-- The format matters to a listing only. -/
theorem carryOut_of_not_shows [DomainMapping] [Text.Measure] {p : Plan} (h : p.shows = false)
    (base : Base) (format format' : OutputFormat) :
    p.carryOut base format = p.carryOut base format' := by
  cases p with
  | listTasks names => cases h
  | listRecordings ids => cases h
  | _ => rfl

/-- Only the command for listings has a plan that shows one. -/
theorem shows_plan {files : Files} {c : Command} {p : Plan} (hPlan : c.plan files = .ok p)
    (hName : c.name ≠ .list) : p.shows = false := by
  cases hTells : c.tellsAnswer with
  | false =>
      rcases plan_of_silent hTells hPlan with ⟨operations, rfl⟩ | ⟨kind, ids, rfl⟩
      · rfl
      · rfl
  | true =>
      cases c with
      | record o =>
          obtain ⟨source, -, rfl⟩ := map_eq_ok_iff.1 hPlan
          rfl
      | list kind? ids => exact absurd rfl hName
      | _ => cases hTells

/-! ## Commands -/

section Commands

variable [DomainMapping] [Text.Measure]
variable {i j : Invocation} (hCommand : j.command = i.command)
  (hUrl : j.settings.url = i.settings.url) (env : Environment) (files : Files)

include hCommand

/-- A command that needs no service depends on no setting. -/
theorem perform_of_local (hNeeds : ¬i.command.needsService = true) :
    j.perform env files = i.perform env files := by
  obtain ⟨settings, command⟩ := i
  obtain ⟨settings', command'⟩ := j
  obtain rfl : command' = command := hCommand
  cases command' with
  | version => simp only [Invocation.perform]
  | help topic? => simp only [Invocation.perform]
  | _ => exact absurd rfl hNeeds

include hUrl

/-- **A command does the same in two formats.** -/
theorem matches_perform : (j.perform env files).Matches (i.perform env files) := by
  by_cases hNeeds : i.command.needsService = true
  · rw [(perform_of_needsService env files hNeeds).2,
      (perform_of_needsService env files (hCommand ▸ hNeeds)).2, hCommand, hUrl]
    apply Conversation.Matches.ofExcept_bind
    intro base _
    apply Conversation.Matches.ofExcept_bind
    intro plan _
    exact matches_carryOut base _ _ plan
  · rw [perform_of_local hCommand env files hNeeds]
    exact .refl _

/-- A command that lists nothing does not depend on the format at all. -/
theorem perform_of_not_list (hName : i.command.name ≠ .list) :
    j.perform env files = i.perform env files := by
  by_cases hNeeds : i.command.needsService = true
  · rw [(perform_of_needsService env files hNeeds).2,
      (perform_of_needsService env files (hCommand ▸ hNeeds)).2, hCommand, hUrl]
    refine congrArg (Conversation.bind _) (funext fun base => ?_)
    cases hPlan : i.command.plan files with
    | error f => simp only [Conversation.ofExcept, Conversation.bind]
    | ok p =>
        simp only [Conversation.ofExcept, Conversation.bind]
        exact carryOut_of_not_shows (shows_plan hPlan hName) base _ _
  · exact perform_of_local hCommand env files hNeeds

end Commands

/-! ## Runs -/

/-- The events of a run are those of its command, and the failure if it fails. -/
theorem events_of_read [DomainMapping] [Text.Measure] {env : Environment} (files : Files)
    (service : Service) {words : List (List UInt8)} {i : Invocation}
    (hRead : CommandLine.read env words = .ok i) :
    (run env files service words).events =
      ((i.perform env files).transcript service).events ++
        ((fault? ((i.perform env files).transcript service).result).map
          fun f => Log.Event.failed f.code).toList := by
  unfold run
  rw [hRead]
  unfold Invocation.run
  dsimp only
  cases ((i.perform env files).transcript service).result with
  | ok output => exact (List.append_nil _).symm
  | error f => rfl

theorem failure?_ending (i : Invocation) (result : Except Failure String) :
    (i.ending result).failure? = fault? result := by
  cases result <;> rfl

theorem exitCode_ending (i : Invocation) (result : Except Failure String) :
    (i.ending result).exitCode = ((fault? result).map Failure.exitCode).getD 0 := by
  cases result <;> rfl

/-- **How a command is shown does not change what is done.** Two command lines with one command and one
address, whatever they say about the format and the log, exchange the same with the service, end with the
same exit code and the same failure, if any, and have the same events for the log to choose from; and
they print the same, unless they list something. -/
theorem run_shown [DomainMapping] [Text.Measure] {env : Environment}
    {words words' : List (List UInt8)} {i j : Invocation}
    (hRead : CommandLine.read env words = .ok i) (hRead' : CommandLine.read env words' = .ok j)
    (hCommand : j.command = i.command) (hUrl : j.settings.url = i.settings.url) (files : Files)
    (service : Service) :
    (run env files service words').exchanges = (run env files service words).exchanges ∧
      (run env files service words').events = (run env files service words).events ∧
      (run env files service words').ending.exitCode =
        (run env files service words).ending.exitCode ∧
      (run env files service words').ending.failure? =
        (run env files service words).ending.failure? ∧
      (i.command.name ≠ .list →
        (run env files service words').ending.output env =
          (run env files service words).ending.output env) := by
  obtain ⟨hExchanges, hEnding, -⟩ := run_of_read files service hRead
  obtain ⟨hExchanges', hEnding', -⟩ := run_of_read files service hRead'
  obtain ⟨hSaid, hNoted, hFault⟩ := matches_perform hCommand hUrl env files service
  refine ⟨?_, ?_, ?_, ?_, fun hName => ?_⟩
  · rw [hExchanges, hExchanges', hSaid]
  · rw [events_of_read files service hRead, events_of_read files service hRead', hNoted, hFault]
  · rw [hEnding, hEnding', exitCode_ending, exitCode_ending, hFault]
  · rw [hEnding, hEnding', failure?_ending, failure?_ending, hFault]
  · rw [hEnding, hEnding', perform_of_not_list hCommand hUrl env files hName]
    cases ((i.perform env files).transcript service).result <;> rfl

section

attribute [local instance] DomainMapping.asciiOnly Text.Measure.byCharacters

/-- Two targets, the second of which the service does not know: as a table without a log, and as JSON
with all detail. -/
theorem run_shown_delete :
    ∃ (i j : Invocation) (plain told : Run),
      CommandLine.read ⟨none⟩ (["--url", "http://host", "delete", "task", "a", "b"].map
        Text.Utf8.bytes) = .ok i ∧
      CommandLine.read ⟨none⟩ (["-d", "delete", "task", "--url=http://host", "a", "--json", "-dd",
        "b"].map Text.Utf8.bytes) = .ok j ∧
      j.command = i.command ∧ j.settings.url = i.settings.url ∧ j.settings ≠ i.settings ∧
      plain = run ⟨none⟩ (fun _ => .ok (.bytes [])) oneTaskService (["--url", "http://host", "delete",
        "task", "a", "b"].map Text.Utf8.bytes) ∧
      told = run ⟨none⟩ (fun _ => .ok (.bytes [])) oneTaskService (["-d", "delete", "task",
        "--url=http://host", "a", "--json", "-dd", "b"].map Text.Utf8.bytes) ∧
      told.exchanges = plain.exchanges ∧ plain.exchanges.length = 2 ∧ told.events = plain.events ∧
      told.ending.exitCode = plain.ending.exitCode ∧ plain.ending.exitCode = 3 ∧
      told.ending.failure? = plain.ending.failure? ∧ i.command.name ≠ .list ∧
      told.ending.output ⟨none⟩ = plain.ending.output ⟨none⟩ := by
  have hRead : CommandLine.read ⟨none⟩ (["--url", "http://host", "delete", "task", "a", "b"].map
      Text.Utf8.bytes) =
      .ok ⟨⟨"http://host", .table, false, 0⟩, .delete (some .task) ["a", "b"]⟩ := by decide +kernel
  have hRead' : CommandLine.read ⟨none⟩ (["-d", "delete", "task", "--url=http://host", "a", "--json",
      "-dd", "b"].map Text.Utf8.bytes) =
      .ok ⟨⟨"http://host", .table, true, 2⟩, .delete (some .task) ["a", "b"]⟩ := by decide +kernel
  have hLength : (run ⟨none⟩ (fun _ => .ok (.bytes [])) oneTaskService (["--url", "http://host",
      "delete", "task", "a", "b"].map Text.Utf8.bytes)).exchanges.length = 2 := by decide +kernel
  have hThree : (run ⟨none⟩ (fun _ => .ok (.bytes [])) oneTaskService (["--url", "http://host",
      "delete", "task", "a", "b"].map Text.Utf8.bytes)).ending.exitCode = 3 := by decide +kernel
  obtain ⟨hExchanges, hEvents, hExit, hFailure, hOutput⟩ :=
    run_shown hRead hRead' rfl rfl (fun _ => .ok (.bytes [])) oneTaskService
  exact ⟨_, _, _, _, hRead, hRead', rfl, rfl, by decide, rfl, rfl, hExchanges, hLength, hEvents, hExit,
    hThree, hFailure, by decide, hOutput (by decide)⟩

end

end ControlClient
