import ControlClient.Proofs.Session.Attempts
import ControlClient.Proofs.Session.Composition

/-!
# A run sends a prefix of its plan

The requests of a run are laid down by its command line and the files, and the service decides only
how far the run gets: each request is sent once, in order, up to the first whose reply is a failure.
There is one more way to stop. The address of a service may be a URL whose host is spelled with a
character that requests do not allow, or be so long that a request with it is too long; no request is
made then, and the run ends with a failure of its own.

## Main results

* `plan_spec`: the plan of a command has the operations that the command demands.
* `run_eq_prefix`: what a run sends, and how it ends.
* `run_refused`: a run of one request that sends nothing.
-/

namespace ControlClient

open CommandLine (Environment)

/-! ## What commands demand -/

/-- The operation of a recording, by its mode. -/
def RecordOptions.demanded (o : RecordOptions) : List Operation :=
  match o.mode with
  | .stream => [.record (.stream o.duration)]
  | .batch => [.record (.batch o.name o.start o.count o.address)]
  | .query => o.type?.toList.map fun type => .record (.query o.query type o.address)

/-- The operation of a definition, whose script is what its file holds. -/
def DefineOptions.demanded (files : Files) (o : DefineOptions) : List Operation :=
  match o.script?.map files, o.type? with
  | some (.ok script), some type => [.define o.name type script]
  | _, _ => []

/-- The operations of a command that was told enough, fixed by its arguments and the files: one, or
one for each target. -/
def Command.demands (files : Files) : Command → List Operation
  | .record o => o.demanded
  | .define o => o.demanded files
  | .replay o => [.replay o.name o.id o.fast]
  | .enable names => names.map .enable
  | .disable names => names.map .disable
  | .delete (some .task) names => names.map .deleteTask
  | .delete (some .recording) ids => ids.map .deleteRecording
  | .list (some .tasks) names => [.listTasks names]
  | .list (some .recordings) ids => [.listRecordings ids]
  | .level (some newLevel) => [.setLevel newLevel]
  | _ => []

private theorem demanded_record {o : RecordOptions} {source : RecordSource}
    (h : o.source = .ok source) : o.demanded = [.record source] := by
  unfold RecordOptions.source at h
  unfold RecordOptions.demanded
  cases hMode : o.mode with
  | stream =>
      rw [hMode] at h
      cases h
      rfl
  | batch =>
      rw [hMode] at h
      cases h
      rfl
  | query =>
      simp only [hMode] at h
      split at h
      · cases h
      · next type hType =>
          split at h
          · cases h
          · cases h
            rw [hType]
            rfl

private theorem demanded_define {files : Files} {o : DefineOptions} {operation : Operation}
    (h : o.operation files = .ok operation) :
    o.demanded files = [operation] ∧ operation.isQuiet = true := by
  unfold DefineOptions.operation at h
  unfold DefineOptions.demanded
  split at h
  · next path type hScript hType =>
      split at h
      · cases h
      split at h
      · next script hFile =>
          cases h
          rw [hScript, hType, Option.map_some, hFile]
          exact ⟨rfl, rfl⟩
      · cases h
  · cases h

private theorem plan_inTurn {files : Files} {c : Command} {operations : List Operation} {p : Plan}
    (hPlan : p = .inTurn operations) (hDemands : c.demands files = operations)
    (hQuiet : ∀ o ∈ operations, o.isQuiet = true) :
    p.operations = c.demands files ∧ p.IsQuiet := by
  rw [hPlan, hDemands]
  exact ⟨rfl, hQuiet⟩

/-- A plan for some targets is carried out in turn. -/
theorem planEach_spec {c : CommandName} {operation : String → Operation}
    {names : List String} {p : Plan} (h : planEach c operation names = .ok p) :
    p = .inTurn (names.map operation) := by
  unfold planEach at h
  split at h
  · cases h
  · cases h
    rfl

/-- **The plan of a command has the operations that the command demands**, and those that are carried
out in turn tell nothing. -/
theorem plan_spec {files : Files} {c : Command} {p : Plan} (h : c.plan files = .ok p) :
    p.operations = c.demands files ∧ p.IsQuiet := by
  cases c with
  | record o =>
      obtain ⟨source, hSource, rfl⟩ := map_eq_ok_iff.1 h
      exact ⟨(demanded_record hSource).symm, trivial⟩
  | define o =>
      obtain ⟨operation, hOperation, rfl⟩ := map_eq_ok_iff.1 h
      obtain ⟨hDemanded, hQuiet⟩ := demanded_define hOperation
      exact plan_inTurn rfl hDemanded (by simpa using hQuiet)
  | replay o =>
      simp only [Command.plan] at h
      split at h
      · cases h
      · cases h
        exact plan_inTurn rfl rfl (by simp [Operation.isQuiet])
  | enable names =>
      exact plan_inTurn (planEach_spec h) rfl (by simp [Operation.isQuiet])
  | disable names =>
      exact plan_inTurn (planEach_spec h) rfl (by simp [Operation.isQuiet])
  | delete kind? ids =>
      simp only [Command.plan] at h
      split at h
      · next kind first others =>
          cases h
          cases kind <;> exact ⟨rfl, trivial⟩
      · cases h
  | list kind? ids =>
      cases kind? with
      | none => cases h
      | some kind => cases kind <;> cases h <;> exact ⟨rfl, trivial⟩
  | level level? =>
      cases level? with
      | none => cases h
      | some level =>
          cases h
          exact plan_inTurn rfl rfl (by simp [Operation.isQuiet])
  | version =>
      cases h
      exact plan_inTurn rfl rfl (by simp)
  | help topic? =>
      cases h
      exact plan_inTurn rfl rfl (by simp)

/-! ## Runs -/

/-- The failure of a command that is rejected before anything is sent. -/
def Invocation.localFailure? (env : Environment) (files : Files) (i : Invocation) :
    Option Failure :=
  match i.command with
  | .version => none
  | .help topic? => fault? (helpOn env topic?)
  | command => fault? (command.plan files)

/-- Whether a command needs the service. -/
def Command.needsService : Command → Bool
  | version | help _ => false
  | _ => true

/-- A command that needs the service first needs the address of one, and then a plan. -/
theorem perform_of_needsService [DomainMapping] [Text.Measure] (env : Environment) (files : Files)
    {i : Invocation} (hNeeds : i.command.needsService = true) :
    i.localFailure? env files = fault? (i.command.plan files) ∧
      i.perform env files =
        (Conversation.ofExcept ((Base.read i.settings.url).mapError .invalidUrl)).bind fun base =>
          (Conversation.ofExcept (i.command.plan files)).bind fun plan =>
            plan.carryOut base i.settings.format := by
  obtain ⟨settings, command⟩ := i
  cases command with
  | version => cases hNeeds
  | help topic? => cases hNeeds
  | _ => exact ⟨rfl, rfl⟩

/-- A command that needs the service carries out its plan, if it has one. -/
theorem outcome_of_needsService [DomainMapping] [Text.Measure] (env : Environment) (files : Files)
    (s : Service) {i : Invocation} {base : Base} (hBase : Base.read i.settings.url = .ok base)
    (hNeeds : i.command.needsService = true) :
    i.localFailure? env files = fault? (i.command.plan files) ∧
      outcome (i.perform env files) s =
        match i.command.plan files with
        | .ok p => outcome (p.carryOut base i.settings.format) s
        | .error f => (.error f, []) := by
  obtain ⟨hLocal, hPerform⟩ := perform_of_needsService env files hNeeds
  refine ⟨hLocal, ?_⟩
  rw [hPerform, hBase]
  cases i.command.plan files <;> rfl

/-- What a command line does that was read, up to its log. -/
private theorem outcome_perform [DomainMapping] [Text.Measure] (env : Environment) (files : Files)
    (s : Service) {i : Invocation} {base : Base} (hBase : Base.read i.settings.url = .ok base) :
    match i.localFailure? env files with
    | some f => outcome (i.perform env files) s = (.error f, [])
    | none => ∀ as, attempts base s (i.command.demands files) = .ok as →
        fault? (outcome (i.perform env files) s).1 = firstFailure? as ∧
        (outcome (i.perform env files) s).2 = (sent as).map Attempt.exchange := by
  by_cases hNeeds : i.command.needsService = true
  · obtain ⟨hLocal, hOutcome⟩ := outcome_of_needsService env files s hBase hNeeds
    rw [hLocal, hOutcome]
    cases hPlan : i.command.plan files with
    | error f => rfl
    | ok p =>
        intro as hAttempts
        obtain ⟨hOperations, hQuiet⟩ := plan_spec hPlan
        rw [← hOperations] at hAttempts
        exact outcome_carryOut hQuiet hAttempts
  · obtain ⟨settings, command⟩ := i
    cases command with
    | version =>
        intro as hAttempts
        cases hAttempts
        exact ⟨rfl, rfl⟩
    | help topic? =>
        unfold Invocation.localFailure? Invocation.perform
        dsimp only
        cases hHelp : helpOn env topic? with
        | error f => rfl
        | ok page =>
            intro as hAttempts
            cases hAttempts
            exact ⟨rfl, rfl⟩
    | _ => exact absurd rfl hNeeds

/-- **A run sends a prefix of its plan.** A command that is rejected for what it was told sends nothing.
Any other has a plan, one attempt for each operation that it demands, with the replies of the service
in turn, and sends its requests in order up to the first whose reply is a failure. It succeeds exactly
if every attempt is made and answered; otherwise it fails with the failure that the last reply is, or
because no request is made for the URL of the next attempt. -/
theorem run_eq_prefix [DomainMapping] [Text.Measure] {env : Environment} (files : Files)
    (service : Service) {words : List (List UInt8)} {i : Invocation} {base : Base}
    (hRead : CommandLine.read env words = .ok i) (hBase : Base.read i.settings.url = .ok base)
    (hWeb : Url.IsWeb base.url.scheme) :
    match i.localFailure? env files with
    | some f =>
        (run env files service words).exchanges = [] ∧
          (run env files service words).ending = .failed i.settings.format f
    | none =>
        ∃ as, attempts base service (i.command.demands files) = .ok as ∧
          (run env files service words).exchanges = (sent as).map Attempt.exchange ∧
          ((run env files service words).ending.exitCode = 0 ↔
            ∀ a ∈ as, a.refusal? = none ∧ a.failure? = none) ∧
          ((run env files service words).ending.exitCode ≠ 0 →
            (run env files service words).ending.exitCode = 3 ∧
            ∃ a f, (run env files service words).ending = .failed i.settings.format f ∧
              (((sent as).getLast? = some a ∧ a.failure? = some f) ∨
                (as[(sent as).length]? = some a ∧ a.refusal? = some f ∧
                  ∀ b ∈ sent as, b.failure? = none))) := by
  obtain ⟨hExchanges, hEnding, -⟩ := run_of_read files service hRead
  obtain ⟨hOutcome, hOutcomes⟩ := transcript_eq_outcome (i.perform env files) service
  rw [hOutcomes] at hExchanges
  rw [hOutcome] at hEnding
  have hPerform := outcome_perform env files service hBase
  rw [hExchanges, hEnding]
  cases hLocal : i.localFailure? env files with
  | some f =>
      rw [hLocal] at hPerform
      dsimp only at hPerform ⊢
      rw [hPerform]
      exact ⟨rfl, rfl⟩
  | none =>
      rw [hLocal] at hPerform
      obtain ⟨authority, parts, hSettled⟩ := Base.isSettled_read hBase hWeb
      obtain ⟨as, hAttempts⟩ := exists_attempts hSettled service (i.command.demands files)
      obtain ⟨hFault, hSent⟩ := hPerform as hAttempts
      refine ⟨as, hAttempts, hSent, ?_⟩
      rw [← firstFailure?_eq_none_iff, ← hFault]
      cases hResult : (outcome (i.perform env files) service).1 with
      | ok output => exact ⟨by simp [fault?, Invocation.ending, Ending.exitCode], fun h => absurd rfl h⟩
      | error f =>
          have hFirst : firstFailure? as = some f := by rw [← hFault, hResult]; rfl
          have hThree : f.exitCode = 3 := exitCode_firstFailure? hFirst
          refine ⟨by simp [fault?, Invocation.ending, Ending.exitCode, hThree], fun _ => ⟨hThree, ?_⟩⟩
          rcases firstFailure?_cases hFirst with ⟨a, ha⟩ | ⟨a, ha⟩
          · exact ⟨a, f, rfl, .inl ha⟩
          · exact ⟨a, f, rfl, .inr ha⟩

section

attribute [local instance] DomainMapping.asciiOnly Text.Measure.byCharacters

/-- Three targets, the second of which gets no answer. -/
theorem run_enable_prefix :
    Url.IsWeb "http" ∧
    ∃ as, attempts ⟨⟨"http", some ⟨"", "", .name "host", none⟩, .segments [""], none, none⟩⟩
        ⟨[.answered 204 [], .dropped], .dropped⟩ [.enable "a", .enable "b", .enable "c"] = .ok as ∧
      (run ⟨none⟩ (fun _ => .ok (.bytes [])) ⟨[.answered 204 [], .dropped], .dropped⟩
        (["--url", "http://host", "enable", "a", "b", "c"].map Text.Utf8.bytes)).exchanges =
        (sent as).map Attempt.exchange := by
  have hRead : CommandLine.read ⟨none⟩
      (["--url", "http://host", "enable", "a", "b", "c"].map Text.Utf8.bytes) =
      .ok ⟨⟨"http://host", .table, false, 0⟩, .enable ["a", "b", "c"]⟩ := by decide +kernel
  have hBase : Base.read "http://host" =
      .ok ⟨⟨"http", some ⟨"", "", .name "host", none⟩, .segments [""], none, none⟩⟩ := by
    decide +kernel
  have hWeb : Url.IsWeb "http" := .inl rfl
  obtain ⟨as, hAttempts, hSent, -⟩ := run_eq_prefix (fun _ => .ok (.bytes []))
    ⟨[.answered 204 [], .dropped], .dropped⟩ hRead hBase hWeb
  exact ⟨hWeb, as, hAttempts, hSent⟩

/-- **A run of one request that sends nothing**, although its reply would be no failure: the base is
accepted, but no request is made for a URL with such a host. -/
theorem run_refused :
    ∃ (i : Invocation) (base : Base) (as : List Attempt),
      CommandLine.read ⟨none⟩ (["--url", "http://a\x7bb", "enable", "t"].map Text.Utf8.bytes) =
        .ok i ∧
      Base.read i.settings.url = .ok base ∧ base.url.scheme = "http" ∧
      base.url.query? = none ∧ base.url.fragment? = none ∧
      i.localFailure? ⟨none⟩ (fun _ => .ok (.bytes [])) = none ∧
      attempts base ⟨[], .answered 204 []⟩ (i.command.demands fun _ => .ok (.bytes [])) = .ok as ∧
      (∀ a ∈ as, a.failure? = none) ∧ (upTo (·.failure?.isSome) as).length = 1 ∧
      (run ⟨none⟩ (fun _ => .ok (.bytes [])) ⟨[], .answered 204 []⟩
        (["--url", "http://a\x7bb", "enable", "t"].map Text.Utf8.bytes)).exchanges = [] ∧
      (run ⟨none⟩ (fun _ => .ok (.bytes [])) ⟨[], .answered 204 []⟩
        (["--url", "http://a\x7bb", "enable", "t"].map Text.Utf8.bytes)).ending.exitCode = 3 := by
  refine ⟨⟨⟨"http://a\x7bb", .table, false, 0⟩, .enable ["t"]⟩,
    ⟨⟨"http", some ⟨"", "", .name "a\x7bb", none⟩, .segments [""], none, none⟩⟩,
    [⟨.enable "t", ⟨"http", some ⟨"", "", .name "a\x7bb", none⟩, .segments ["enable"],
      some "name=t", none⟩, .answered 204 []⟩],
    by decide +kernel, by decide +kernel, rfl, rfl, rfl, rfl, ?_, ?_, rfl, by decide +kernel,
    by decide +kernel⟩
  · have hUrl : Base.urlFor ⟨⟨"http", some ⟨"", "", .name "a\x7bb", none⟩, .segments [""], none,
        none⟩⟩ (Operation.enable "t").request = .ok ⟨"http",
          some ⟨"", "", .name "a\x7bb", none⟩, .segments ["enable"], some "name=t", none⟩ := by
      decide +kernel
    show attempts _ _ [.enable "t"] = _
    rw [attempts, hUrl]
    rfl
  · intro a ha
    rw [List.mem_singleton.1 ha]
    rfl

end

end ControlClient
