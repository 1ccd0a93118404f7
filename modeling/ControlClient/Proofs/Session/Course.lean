import ControlClient.Proofs.Session.PlanPrefix

/-!
# The course of a run

A command line that was read takes one of a few courses, whatever address it names: it needs no service,
or the client itself stops it, or its attempts are made in turn. That the client never stops what it has
begun is because a command speaks to one endpoint. Whether a request has a URL depends on the address and
the endpoint alone, so the first operation of a command has none if any has none.

Nothing is therefore asked in a run that ends in a failure of the client itself.

## Main results

* `attempts_cases`: the operations of a command all have URLs, or the first has none.
* `course_perform`: the courses of a command.
* `run_local`: nothing is sent in a run that the client itself stops.
-/

namespace ControlClient

open CommandLine (Environment)

/-! ## The URLs of one command -/

/-- Whether a request has a URL depends on its path alone. -/
theorem Base.urlFor_error_of_path [DomainMapping] {base : Base} {r r' : Request} {e : InvalidUrl}
    (hPath : r'.path = r.path) (h : base.urlFor r = .error e) : base.urlFor r' = .error e := by
  rw [urlFor, map_eq_error_iff] at h ⊢
  rwa [hPath]

/-- A command speaks to one endpoint. -/
theorem Command.endpoint_demands (files : Files) (c : Command) :
    ∃ path, ∀ o ∈ c.demands files, o.request.path = path := by
  have hMap : ∀ (operation : String → Operation) {path : String},
      (∀ name, (operation name).request.path = path) → ∀ names : List String,
        ∀ o ∈ names.map operation, o.request.path = path := by
    intro operation path h names o ho
    obtain ⟨name, -, rfl⟩ := List.mem_map.1 ho
    exact h name
  cases c with
  | record o =>
      refine ⟨"/record", fun operation hIn => ?_⟩
      simp only [demands, RecordOptions.demanded] at hIn
      split at hIn
      · rw [List.mem_singleton.1 hIn]
        rfl
      · rw [List.mem_singleton.1 hIn]
        rfl
      · obtain ⟨type, -, rfl⟩ := List.mem_map.1 hIn
        rfl
  | define o =>
      refine ⟨"/task", fun operation hIn => ?_⟩
      simp only [demands, DefineOptions.demanded] at hIn
      split at hIn
      · rw [List.mem_singleton.1 hIn]
        rfl
      · cases hIn
  | replay o => exact ⟨_, List.forall_mem_singleton.2 rfl⟩
  | enable names => exact ⟨"/enable", hMap .enable (fun _ => rfl) names⟩
  | disable names => exact ⟨"/disable", hMap .disable (fun _ => rfl) names⟩
  | delete kind? ids =>
      cases kind? with
      | none => exact ⟨"", by simp [demands]⟩
      | some kind =>
          cases kind with
          | task => exact ⟨"/task", hMap .deleteTask (fun _ => rfl) ids⟩
          | recording => exact ⟨"/recording", hMap .deleteRecording (fun _ => rfl) ids⟩
  | list kind? ids =>
      cases kind? with
      | none => exact ⟨"", by simp [demands]⟩
      | some kind => cases kind <;> exact ⟨_, List.forall_mem_singleton.2 rfl⟩
  | level level? =>
      cases level? with
      | none => exact ⟨"", by simp [demands]⟩
      | some level => exact ⟨_, List.forall_mem_singleton.2 rfl⟩
  | version => exact ⟨"", by simp [demands]⟩
  | help topic? => exact ⟨"", by simp [demands]⟩

/-- If one operation of a command has no URL, none has. -/
theorem urlFor_error_demands [DomainMapping] {base : Base} {files : Files} {c : Command}
    {o o' : Operation} {e : InvalidUrl} (ho : o ∈ c.demands files) (ho' : o' ∈ c.demands files)
    (h : base.urlFor o.request = .error e) : base.urlFor o'.request = .error e := by
  obtain ⟨path, hPath⟩ := c.endpoint_demands files
  exact Base.urlFor_error_of_path ((hPath o' ho').trans (hPath o ho).symm) h

/-- **The operations of a command all have URLs, or the first has none.** -/
theorem attempts_cases [DomainMapping] (base : Base) (files : Files) (c : Command) (s : Service) :
    (∃ as, attempts base s (c.demands files) = .ok as) ∨
      ∃ o rest e, c.demands files = o :: rest ∧ base.urlFor o.request = .error e := by
  cases hDemands : c.demands files with
  | nil => exact .inl ⟨[], rfl⟩
  | cons o rest =>
      cases hUrl : base.urlFor o.request with
      | error e => exact .inr ⟨o, rest, e, rfl, hUrl⟩
      | ok url =>
          refine .inl (exists_attempts_of_urlFor (fun o' ho' => ?_) s)
          rw [← hDemands] at ho'
          cases hUrl' : base.urlFor o'.request with
          | ok url' => exact ⟨url', rfl⟩
          | error e =>
              have hFirst : o ∈ c.demands files := by simp [hDemands]
              have hNone := urlFor_error_demands ho' hFirst hUrl'
              rw [hUrl] at hNone
              cases hNone

/-! ## Operations without URLs -/

section WithoutUrl

variable {base : Base} {o : Operation} {e : InvalidUrl}

theorem exchange_of_urlFor_error [DomainMapping] {α : Type} [Payload α]
    (h : base.urlFor o.request = .error e) : o.exchange (α := α) base = .failed (.invalidUrl e) := by
  unfold Operation.exchange
  dsimp only
  rw [h]
  rfl

/-- A plan whose first operation has no URL asks nothing. -/
theorem outcome_carryOut_of_urlFor_error [DomainMapping] [Text.Measure] {p : Plan}
    {rest : List Operation} (hOperations : p.operations = o :: rest) (h : base.urlFor o.request = .error e)
    (format : OutputFormat) (s : Service) :
    outcome (p.carryOut base format) s = (.error (.invalidUrl e), []) := by
  have hTurn : sendInTurn base (o :: rest) = .failed (.invalidUrl e) := by
    unfold sendInTurn
    rw [exchange_of_urlFor_error h]
    rfl
  cases p with
  | record source =>
      cases hOperations
      rw [carryOut_record, exchange_of_urlFor_error h]
      rfl
  | inTurn operations =>
      have hOwn : operations = o :: rest := hOperations
      rw [carryOut_inTurn, hOwn, hTurn]
      rfl
  | delete kind ids =>
      have hOwn : ids.map kind.operation = o :: rest := hOperations
      rw [carryOut_delete, hOwn, hTurn]
      rfl
  | listTasks names =>
      cases hOperations
      rw [carryOut_listTasks, exchange_of_urlFor_error h]
      rfl
  | listRecordings ids =>
      cases hOperations
      rw [carryOut_listRecordings, exchange_of_urlFor_error h]
      rfl

end WithoutUrl

/-! ## Failures of the client itself -/

theorem isLocal_helpOn {env : Environment} {topic? : Option String} {f : Failure}
    (h : helpOn env topic? = .error f) : f.isLocal = true := by
  unfold helpOn at h
  split at h
  · cases h
  · split at h
    · cases h
    · cases h
      rfl

private theorem isLocal_source {o : RecordOptions} {f : Failure} (h : o.source = .error f) :
    f.isLocal = true := by
  unfold RecordOptions.source at h
  split at h
  · cases h
  · cases h
  · split at h
    · cases h
      rfl
    · split at h
      · cases h
        rfl
      · cases h

private theorem isLocal_operation {files : Files} {o : DefineOptions} {f : Failure}
    (h : o.operation files = .error f) : f.isLocal = true := by
  unfold DefineOptions.operation at h
  split at h
  · split at h
    · cases h
      rfl
    · split at h
      · cases h
      · cases h
        rfl
  · cases h
    rfl

private theorem isLocal_planEach {c : CommandName} {operation : String → Operation}
    {names : List String} {f : Failure} (h : planEach c operation names = .error f) :
    f.isLocal = true := by
  unfold planEach at h
  split at h
  · cases h
    rfl
  · cases h

/-- What keeps a command from having a plan is a failure of the client itself. -/
theorem isLocal_plan {files : Files} {c : Command} {f : Failure} (h : c.plan files = .error f) :
    f.isLocal = true := by
  cases c with
  | record o => exact isLocal_source (map_eq_error_iff.1 h)
  | define o => exact isLocal_operation (map_eq_error_iff.1 h)
  | replay o =>
      simp only [Command.plan] at h
      split at h
      · cases h
        rfl
      · cases h
  | enable names => exact isLocal_planEach h
  | disable names => exact isLocal_planEach h
  | delete kind? ids =>
      simp only [Command.plan] at h
      split at h
      · cases h
      · cases h
        rfl
  | list kind? ids =>
      cases kind? with
      | none =>
          cases h
          rfl
      | some kind => cases kind <;> cases h
  | level level? =>
      cases level? with
      | none =>
          cases h
          rfl
      | some level => cases h
  | version => cases h
  | help topic? => cases h

/-! ## Courses -/

/-- What a command that was read ends in, and what is exchanged until then. -/
inductive Invocation.Course [DomainMapping] (env : Environment) (files : Files) (service : Service)
    (i : Invocation) : Except Failure String × List (SentRequest × Reply) → Prop where
  /-- It needs no service. -/
  | told (output : String) (hNeeds : i.command.needsService = false) :
      Course env files service i (.ok output, [])
  /-- The client itself stops it, as there is help on no such topic, or no plan. -/
  | unplanned (f : Failure) (hLocal : f.isLocal = true)
      (hNone : i.command.needsService = true → ∀ p, i.command.plan files ≠ .ok p) :
      Course env files service i (.error f, [])
  /-- The client itself stops it, as the address or its first request has no URL. -/
  | misdirected (e : InvalidUrl) : Course env files service i (.error (.invalidUrl e), [])
  /-- Its attempts are made in turn. -/
  | carried (base : Base) (p : Plan) (as : List Attempt) (result : Except Failure String)
      (hBase : Base.read i.settings.url = .ok base) (hPlan : i.command.plan files = .ok p)
      (hAttempts : attempts base service (i.command.demands files) = .ok as)
      (hResult : fault? result = firstFailure? as) :
      Course env files service i (result, (sent as).map Attempt.exchange)

section Courses

variable [DomainMapping] [Text.Measure]
variable (env : Environment) {files : Files} (service : Service) {i : Invocation}

/-- A command that has a plan carries it out, or does not start. -/
theorem course_carryOut {base : Base} {p : Plan} (hBase : Base.read i.settings.url = .ok base)
    (hPlan : i.command.plan files = .ok p) :
    i.Course env files service (outcome (p.carryOut base i.settings.format) service) := by
  obtain ⟨hOperations, hQuiet⟩ := plan_spec hPlan
  rcases attempts_cases base files i.command service with
    ⟨as, hAttempts⟩ | ⟨o, rest, e, hDemands, hUrl⟩
  · have hOwn : attempts base service p.operations = .ok as := by rw [hOperations, hAttempts]
    obtain ⟨hResult, hSent⟩ : fault? (outcome (p.carryOut base i.settings.format) service).1 =
        firstFailure? as ∧ _ := outcome_carryOut hQuiet hOwn
    have hOutcome : outcome (p.carryOut base i.settings.format) service =
        ((outcome (p.carryOut base i.settings.format) service).1,
          (sent as).map Attempt.exchange) := Prod.ext rfl hSent
    rw [hOutcome]
    exact .carried base p as _ hBase hPlan hAttempts hResult
  · rw [outcome_carryOut_of_urlFor_error (hOperations.trans hDemands) hUrl]
    exact .misdirected e

variable (files i) in
/-- **The courses of a command.** -/
theorem course_perform : i.Course env files service (outcome (i.perform env files) service) := by
  by_cases hNeeds : i.command.needsService = true
  · cases hBase : Base.read i.settings.url with
    | error e =>
        rw [(perform_of_needsService env files hNeeds).2, hBase]
        exact .misdirected e
    | ok base =>
        rw [(outcome_of_needsService env files service hBase hNeeds).2]
        cases hPlan : i.command.plan files with
        | error f => exact .unplanned f (isLocal_plan hPlan) (by simp [hPlan])
        | ok p => exact course_carryOut env service hBase hPlan
  · obtain ⟨settings, command⟩ := i
    cases command with
    | version => exact .told _ rfl
    | help topic? =>
        unfold Invocation.perform
        dsimp only
        cases hHelp : helpOn env topic? with
        | ok page => exact .told _ rfl
        | error f => exact .unplanned f (isLocal_helpOn hHelp) (fun h => absurd h hNeeds)
    | _ => exact absurd rfl hNeeds

end Courses

section Runs

variable [DomainMapping] [Text.Measure]

/-- A run of a command that was read takes a course of the command. -/
theorem course_run {env : Environment} (files : Files) (service : Service)
    {words : List (List UInt8)} {i : Invocation} (hRead : CommandLine.read env words = .ok i) :
    ∃ result, i.Course env files service (result, (run env files service words).exchanges) ∧
      (run env files service words).ending = i.ending result := by
  obtain ⟨hExchanges, hEnding, -⟩ := run_of_read files service hRead
  obtain ⟨hOutcome, hOutcomes⟩ := transcript_eq_outcome (i.perform env files) service
  rw [hOutcomes] at hExchanges
  rw [hOutcome] at hEnding
  refine ⟨_, ?_, hEnding⟩
  rw [hExchanges]
  exact course_perform env files service i

/-! ## Runs that the client itself stops -/

/-- Nothing is asked in a run whose command line is rejected. -/
theorem exchanges_of_rejected {env : Environment} {files : Files} {service : Service}
    {words : List (List UInt8)} {r : CommandLine.Rejection}
    (h : (run env files service words).ending = .rejected r) :
    (run env files service words).exchanges = [] := by
  cases hRead : CommandLine.read env words with
  | error r' => rw [run, hRead]
  | ok i =>
      obtain ⟨result, -, hEnding⟩ := course_run files service hRead
      rw [hEnding] at h
      cases result <;> cases h

/-- Nothing is asked in a run that ends in a failure of the client itself. -/
theorem exchanges_of_isLocal {env : Environment} {files : Files} {service : Service}
    {words : List (List UInt8)} {f : Failure}
    (h : (run env files service words).ending.failure? = some f) (hLocal : f.isLocal = true) :
    (run env files service words).exchanges = [] := by
  cases hRead : CommandLine.read env words with
  | error r => rw [run, hRead]
  | ok i =>
      obtain ⟨result, hCourse, hEnding⟩ := course_run files service hRead
      rw [hEnding] at h
      generalize (run env files service words).exchanges = exchanges at hCourse
      cases hCourse with
      | told output => rfl
      | unplanned g => rfl
      | misdirected e => rfl
      | carried base p as result hBase hPlan hAttempts hResult =>
          -- The failures of attempts are not the client's own.
          cases result with
          | ok output => cases h
          | error g =>
              cases h
              rw [isLocal_firstFailure? hResult.symm] at hLocal
              cases hLocal

/-- **Nothing is sent in a run that the client itself stops**: one with exit code 1 or 2, or one that
fails because the script of a task cannot be opened or because an address or a request has no URL. -/
theorem run_local (env : Environment) (files : Files) (service : Service)
    (words : List (List UInt8)) :
    ((run env files service words).ending.exitCode = 1 ∨
        (run env files service words).ending.exitCode = 2 →
      (run env files service words).exchanges = []) ∧
    (∀ path cause, (run env files service words).ending.failure? = some (.file path cause) →
      (run env files service words).exchanges = []) ∧
    (∀ e, (run env files service words).ending.failure? = some (.invalidUrl e) →
      (run env files service words).exchanges = []) := by
  refine ⟨fun hCode => ?_, fun path cause h => exchanges_of_isLocal h rfl,
    fun e h => exchanges_of_isLocal h rfl⟩
  cases hEnding : (run env files service words).ending with
  | rejected r => exact exchanges_of_rejected hEnding
  | succeeded output =>
      rw [hEnding] at hCode
      rcases hCode with hOne | hTwo
      · cases hOne
      · cases hTwo
  | failed format f =>
      refine exchanges_of_isLocal (f := f) (by rw [hEnding]; rfl) ?_
      rw [hEnding] at hCode
      cases hLocal : f.isLocal with
      | true => rfl
      | false =>
          have hThree : f.exitCode = 3 := f.exitCode_of_not_isLocal hLocal
          simp only [Ending.exitCode, hThree] at hCode
          omega

end Runs

section

attribute [local instance] DomainMapping.asciiOnly Text.Measure.byCharacters

/-- A name that is no command, two targets behind an address without a host, and a task whose script is
missing. -/
theorem run_local_stops :
    ∃ unknown hostless scriptless : Run,
      unknown = run ⟨none⟩ (fun _ => .error (.system .notFound)) ⟨[], .answered 204 []⟩
        (["--json", "enalbe", "a"].map Text.Utf8.bytes) ∧
      unknown.ending.exitCode = 1 ∧ unknown.exchanges = [] ∧
      hostless = run ⟨some (Text.Utf8.bytes "http://")⟩ (fun _ => .error (.system .notFound))
        ⟨[], .answered 204 []⟩ (["enable", "a", "b"].map Text.Utf8.bytes) ∧
      hostless.ending.failure? = some (.invalidUrl ⟨"http://", .emptyHost⟩) ∧
      hostless.ending.exitCode = 2 ∧ hostless.exchanges = [] ∧
      scriptless = run ⟨none⟩ (fun _ => .error (.system .notFound)) ⟨[], .answered 204 []⟩
        (["define", "--name", "t", "--type", "batch", "--tick", "t.tick"].map Text.Utf8.bytes) ∧
      scriptless.ending.failure? =
        some (.file (Text.Utf8.bytes "t.tick") "No such file or directory (os error 2)") ∧
      scriptless.exchanges = [] := by
  have hHostless : CommandLine.read ⟨some (Text.Utf8.bytes "http://")⟩
      (["enable", "a", "b"].map Text.Utf8.bytes) =
      .ok ⟨⟨"http://", .table, false, 0⟩, .enable ["a", "b"]⟩ := by decide +kernel
  have hAddress : Base.read "http://" = .error ⟨"http://", .emptyHost⟩ := by decide +kernel
  have hScriptless : CommandLine.read ⟨none⟩
      (["define", "--name", "t", "--type", "batch", "--tick", "t.tick"].map Text.Utf8.bytes) =
      .ok ⟨⟨"http://localhost:9092", .table, false, 0⟩,
        .define ⟨"t", some (Text.Utf8.bytes "t.tick"), some .batch⟩⟩ := by decide +kernel
  have hDefault : Base.read "http://localhost:9092" = .ok ⟨⟨"http",
      some ⟨"", "", .name "localhost", some 9092⟩, .segments [""], none, none⟩⟩ := by decide +kernel
  have hOne : (run ⟨none⟩ (fun _ => .error (.system .notFound)) ⟨[], .answered 204 []⟩
      (["--json", "enalbe", "a"].map Text.Utf8.bytes)).ending.exitCode = 1 := by decide +kernel
  have hTwo : (run ⟨some (Text.Utf8.bytes "http://")⟩ (fun _ => .error (.system .notFound))
      ⟨[], .answered 204 []⟩ (["enable", "a", "b"].map Text.Utf8.bytes)).ending.failure? =
      some (.invalidUrl ⟨"http://", .emptyHost⟩) := by
    simp only [run, hHostless, Invocation.run, Invocation.perform, hAddress]
    rfl
  have hThree : (run ⟨none⟩ (fun _ => .error (.system .notFound)) ⟨[], .answered 204 []⟩
      (["define", "--name", "t", "--type", "batch", "--tick", "t.tick"].map
        Text.Utf8.bytes)).ending.failure? =
      some (.file (Text.Utf8.bytes "t.tick") "No such file or directory (os error 2)") := by
    simp only [run, hScriptless, Invocation.run, Invocation.perform, hDefault]
    rfl
  exact ⟨_, _, _, rfl, hOne, (run_local _ _ _ _).1 (.inl hOne), rfl, hTwo, by decide +kernel,
    (run_local _ _ _ _).2.2 _ hTwo, rfl, hThree, (run_local _ _ _ _).2.1 _ _ hThree⟩

end

end ControlClient
