import ControlClient.Proofs.Session.Course
import ControlClient.Proofs.Url.Scheme

/-!
# Runs with exit code 3

Exit code 3 is meant for a file or a service that failed. It has one more cause. A text that is a URL is
taken for an address, whatever its scheme; behind an address of another scheme than `http` and `https`, or
with a host that requests do not allow, every request is refused as it is made. Such a run sends nothing,
and ends as if the service had not been reached. A text that is no URL, in contrast, is reported as such,
with exit code 2. An address whose scheme was forgotten, as `localhost:9092`, is of the first kind.

## Main results

* `refusal?_urlFor`: every request behind an unusable address is refused.
* `run_exit_three`: what exit code 3 says, and how runs end whose address is of no use.
* `run_without_scheme`: a run with exit code 3 that sends nothing.
-/

namespace ControlClient

open CommandLine (Environment)
open Url (IsWeb)

/-! ## Unusable addresses -/

/-- An address behind which no request is made: it is not one of the web, or its host is spelled with a
character that requests do not allow. -/
def Base.IsUnusable (base : Base) : Prop :=
  ¬IsWeb base.url.scheme ∨
    ∃ a, base.url.authority? = some a ∧ a.host.written.any Exchange.oddHostChars.contains = true

/-- Moving credentials into a header leaves the scheme and the host. -/
theorem Url.released_origin (u : Url) :
    u.released.scheme = u.scheme ∧
      u.released.authority?.map (·.host) = u.authority?.map (·.host) := by
  unfold Url.released
  split
  · refine ⟨rfl, ?_⟩
    rw [Url.withoutCredentials, Option.map_map]
    rfl
  · exact ⟨rfl, rfl⟩

section Refusals

variable {text : String} {base : Base} {u url : Url} {request : Request}

theorem refusal?_of_scheme (h : ¬IsWeb u.scheme) :
    Exchange.refusal? u = some "URL scheme is not allowed" := by
  rw [Exchange.refusal?, if_pos (not_or.1 h)]

theorem refusal?_of_host (hWeb : IsWeb u.scheme) {host : Url.Host}
    (hHost : u.authority?.map (·.host) = some host)
    (hOdd : host.written.any Exchange.oddHostChars.contains = true) :
    Exchange.refusal? u = some "Parsed Url is not a valid Uri" := by
  obtain ⟨a, hAuthority, rfl⟩ := Option.map_eq_some_iff.1 hHost
  rw [Exchange.refusal?, if_neg fun hOther => hWeb.elim hOther.1 hOther.2, if_pos]
  right
  rw [hAuthority]
  exact hOdd

/-- A request has the scheme of the address. -/
theorem Base.scheme_urlFor [DomainMapping] (hRead : Base.read text = .ok base)
    (hUrl : base.urlFor request = .ok url) : url.scheme = base.url.scheme := by
  rw [urlFor, map_eq_ok_iff] at hUrl
  obtain ⟨joined, hJoined, rfl⟩ := hUrl
  rw [readUrl_eq_ok_iff, join, String.toList_ofList, Url.written, ← List.singleton_append,
    ← List.append_assoc, dropSlashes_append (by simp), List.append_assoc, List.append_assoc,
    List.singleton_append] at hJoined
  have hScheme : joined.scheme = base.url.scheme :=
    Url.scheme_readChars_append (readChars_of_read hRead) hJoined
  rw [← hScheme]
  unfold Url.appendPairs
  split <;> rfl

/-- **Every request behind an unusable address is refused.** -/
theorem refusal?_urlFor [DomainMapping] (hRead : Base.read text = .ok base) (h : base.IsUnusable)
    {o : Operation} (hUrl : base.urlFor o.request = .ok url) :
    ∃ cause, Exchange.refusal? url.released = some cause := by
  obtain ⟨hScheme, hHost⟩ := url.released_origin
  rw [Base.scheme_urlFor hRead hUrl] at hScheme
  by_cases hWeb : IsWeb base.url.scheme
  · rcases h with hOther | ⟨a, hAuthority, hOdd⟩
    · exact absurd hWeb hOther
    · obtain ⟨a', parts, hSettled⟩ := Base.isSettled_read hRead hWeb
      obtain ⟨url', hUrl', -, hSame⟩ := Base.urlFor_origin hSettled o.isVisiblePath
      cases hUrl.symm.trans hUrl'
      cases hAuthority.symm.trans hSettled.authority
      have hSameHost : url.released.authority?.map (·.host) = some a.host := by
        rw [hHost, hSame]
        rfl
      exact ⟨_, refusal?_of_host (hScheme ▸ hWeb) hSameHost hOdd⟩
  · exact ⟨_, refusal?_of_scheme (hScheme ▸ hWeb)⟩

end Refusals

/-! ## Runs -/

/-- The plan of a command that needs the service asks something. -/
theorem operations_ne_nil {files : Files} {c : Command} {p : Plan} (h : c.plan files = .ok p)
    (hNeeds : c.needsService = true) : p.operations ≠ [] := by
  have hEach : ∀ {name : CommandName} {operation : String → Operation} {names : List String},
      planEach name operation names = .ok p → p.operations ≠ [] := by
    intro name operation names hNames
    rw [operations_each hNames]
    unfold planEach at hNames
    split at hNames
    · cases hNames
    · next hSome => simpa using hSome
  cases c with
  | record o =>
      obtain ⟨source, -, rfl⟩ := map_eq_ok_iff.1 h
      exact List.cons_ne_nil _ _
  | define o =>
      obtain ⟨operation, -, rfl⟩ := map_eq_ok_iff.1 h
      exact List.cons_ne_nil _ _
  | replay o =>
      simp only [Command.plan] at h
      split at h
      · cases h
      · cases h
        exact List.cons_ne_nil _ _
  | enable names => exact hEach h
  | disable names => exact hEach h
  | delete kind? ids =>
      simp only [Command.plan] at h
      split at h
      · cases h
        exact List.cons_ne_nil _ _
      · cases h
  | list kind? ids =>
      cases kind? with
      | none => cases h
      | some kind =>
          cases kind with
          | tasks =>
              cases h
              exact List.cons_ne_nil _ _
          | recordings =>
              cases h
              exact List.cons_ne_nil _ _
  | level level? =>
      cases level? with
      | none => cases h
      | some level =>
          cases h
          exact List.cons_ne_nil _ _
  | version => cases hNeeds
  | help topic? => cases hNeeds

section Runs

variable [DomainMapping] [Text.Measure]
variable {env : Environment} {files : Files} {service : Service} {words : List (List UInt8)}
  {i : Invocation}

/-- An address that is no URL is the failure of every command that needs one. -/
theorem run_of_invalid (hRead : CommandLine.read env words = .ok i)
    (hNeeds : i.command.needsService = true) {e : InvalidUrl}
    (hBase : Base.read i.settings.url = .error e) :
    (run env files service words).ending = .failed i.settings.format (.invalidUrl e) ∧
      (run env files service words).exchanges = [] := by
  obtain ⟨hExchanges, hEnding, -⟩ := run_of_read files service hRead
  rw [(perform_of_needsService env files hNeeds).2, hBase] at hExchanges hEnding
  exact ⟨hEnding, hExchanges⟩

/-- **No request is made behind an unusable address**: a command that has a plan fails at its first. -/
theorem run_of_isUnusable (hRead : CommandLine.read env words = .ok i)
    (hNeeds : i.command.needsService = true) {base : Base}
    (hBase : Base.read i.settings.url = .ok base) (hUnusable : base.IsUnusable) :
    (run env files service words).exchanges = [] ∧
      ∀ p, i.command.plan files = .ok p →
        ∃ f, (run env files service words).ending = .failed i.settings.format f ∧
          ((∃ e, f = .invalidUrl e) ∨
            ∃ url cause, Exchange.refusal? url = some cause ∧
              f = .transport (Exchange.buildingFailed url) [cause]) := by
  obtain ⟨result, hCourse, hEnding⟩ := course_run files service hRead
  rw [hEnding]
  generalize (run env files service words).exchanges = exchanges at hCourse
  cases hCourse with
  | told output hNot => exact absurd (hNeeds.symm.trans hNot) Bool.noConfusion
  | unplanned f hLocal hNone => exact ⟨rfl, fun p hPlan => absurd hPlan (hNone hNeeds p)⟩
  | misdirected e => exact ⟨rfl, fun p hPlan => ⟨_, rfl, .inl ⟨e, rfl⟩⟩⟩
  | carried base' p as result hBase' hPlan hAttempts hResult =>
      cases hBase.symm.trans hBase'
      cases hDemands : i.command.demands files with
      | nil => exact absurd ((plan_spec hPlan).1.trans hDemands) (operations_ne_nil hPlan hNeeds)
      | cons o rest =>
          rw [hDemands] at hAttempts
          obtain ⟨url, others, hUrl, -, rfl⟩ := attempts_cons hAttempts
          obtain ⟨cause, hCause⟩ := refusal?_urlFor hBase hUnusable hUrl
          have hRefused : (⟨o, url, service.reply.1⟩ : Attempt).refusal? =
              some (.transport (Exchange.buildingFailed url.released) [cause]) := by
            rw [Attempt.refusal?, hCause]
            rfl
          rw [firstFailure?_cons, hRefused] at hResult
          rw [sent_cons, hRefused]
          refine ⟨rfl, fun _ _ => ?_⟩
          cases result with
          | ok output => cases hResult
          | error f =>
              cases hResult
              exact ⟨_, rfl, .inr ⟨url.released, cause, hCause, rfl⟩⟩

end Runs

/-- A rejected command line never has exit code 3. -/
theorem exitCode_rejection (r : CommandLine.Rejection) : r.exitCode ≠ 3 := by
  cases r with
  | argument fault =>
      rcases fault.exitCode_cases with hTwo | hOther
      · simp [CommandLine.Rejection.exitCode, hTwo]
      · simp [CommandLine.Rejection.exitCode, hOther]
  | _ => simp [CommandLine.Rejection.exitCode]

/-- **What exit code 3 says.** The script of a task could not be opened and nothing was sent, or the
failure is the reply to the last request that was sent, or the next request was refused as it was made. An
address that is no URL does not lead there, but to exit code 2. An unusable one sends nothing, and a command
that has a plan then fails with a refusal. -/
theorem run_exit_three [DomainMapping] [Text.Measure] (env : Environment) (files : Files)
    (service : Service) (words : List (List UInt8)) :
    ((run env files service words).ending.exitCode = 3 →
      ∃ f, (run env files service words).ending.failure? = some f ∧
        ((∃ path cause, f = .file path cause) ∧ (run env files service words).exchanges = [] ∨
          ∃ i base as, CommandLine.read env words = .ok i ∧ Base.read i.settings.url = .ok base ∧
            attempts base service (i.command.demands files) = .ok as ∧
            (run env files service words).exchanges = (sent as).map Attempt.exchange ∧
            ((∃ a, (sent as).getLast? = some a ∧ a.failure? = some f) ∨
              ∃ a, as[(sent as).length]? = some a ∧ a.refusal? = some f))) ∧
    ∀ i, CommandLine.read env words = .ok i → i.command.needsService = true →
      (∀ e, Base.read i.settings.url = .error e →
        (run env files service words).ending = .failed i.settings.format (.invalidUrl e) ∧
          (run env files service words).ending.exitCode = 2 ∧
          (run env files service words).exchanges = []) ∧
      ∀ base, Base.read i.settings.url = .ok base → base.IsUnusable →
        (run env files service words).exchanges = [] ∧
          ∀ p, i.command.plan files = .ok p →
            ∃ f, (run env files service words).ending = .failed i.settings.format f ∧
              ((∃ e, f = .invalidUrl e) ∨
                ∃ url cause, Exchange.refusal? url = some cause ∧
                  f = .transport (Exchange.buildingFailed url) [cause]) := by
  constructor
  · intro hThree
    cases hRead : CommandLine.read env words with
    | error r =>
        rw [run, hRead] at hThree
        exact absurd hThree (exitCode_rejection r)
    | ok i =>
        obtain ⟨result, hCourse, hEnding⟩ := course_run files service hRead
        rw [hEnding] at hThree ⊢
        generalize (run env files service words).exchanges = exchanges at hCourse
        cases hCourse with
        | told output => cases hThree
        | unplanned f hLocal =>
            cases f with
            | file path cause => exact ⟨_, rfl, .inl ⟨⟨path, cause, rfl⟩, rfl⟩⟩
            | usage => cases hThree
            | unknownCommand => cases hThree
            | invalidUrl => cases hThree
            | _ => cases hLocal
        | misdirected e => cases hThree
        | carried base p as result hBase hPlan hAttempts hResult =>
            cases result with
            | ok output => cases hThree
            | error f =>
                refine ⟨f, rfl, .inr ⟨i, base, as, rfl, hBase, hAttempts, rfl, ?_⟩⟩
                rcases firstFailure?_cases hResult.symm with hLast | ⟨a, hNext, hRefusal, -⟩
                · exact .inl hLast
                · exact .inr ⟨a, hNext, hRefusal⟩
  · intro i hRead hNeeds
    refine ⟨fun e hBase => ?_, fun base hBase => run_of_isUnusable hRead hNeeds hBase⟩
    obtain ⟨hEnding, hExchanges⟩ := run_of_invalid hRead hNeeds hBase
    exact ⟨hEnding, by rw [hEnding]; rfl, hExchanges⟩

section

attribute [local instance] DomainMapping.asciiOnly Text.Measure.byCharacters

/-- A connection that is closed, an address that is no URL, and one without a scheme. -/
theorem run_exit_three_addresses :
    ∃ dropped invalid unusable : Run,
      dropped = run ⟨none⟩ (fun _ => .ok (.bytes [])) ⟨[], .dropped⟩
        (["--url", "http://h", "enable", "a", "b"].map Text.Utf8.bytes) ∧
      dropped.ending.exitCode = 3 ∧ dropped.exchanges.length = 1 ∧
      (∃ as f, dropped.exchanges = (sent as).map Attempt.exchange ∧
        dropped.ending.failure? = some f) ∧
      invalid = run ⟨some (Text.Utf8.bytes "localhost")⟩ (fun _ => .ok (.bytes [])) ⟨[], .dropped⟩
        (["list", "tasks"].map Text.Utf8.bytes) ∧
      invalid.ending.exitCode = 2 ∧ invalid.exchanges = [] ∧
      unusable = run ⟨none⟩ (fun _ => .ok (.bytes [])) ⟨[], .dropped⟩
        (["level", "info", "--url", "localhost:9092"].map Text.Utf8.bytes) ∧
      unusable.exchanges = [] := by
  have hDropped : (run ⟨none⟩ (fun _ => .ok (.bytes [])) ⟨[], .dropped⟩
      (["--url", "http://h", "enable", "a", "b"].map Text.Utf8.bytes)).ending.exitCode = 3 ∧
      (run ⟨none⟩ (fun _ => .ok (.bytes [])) ⟨[], .dropped⟩
        (["--url", "http://h", "enable", "a", "b"].map Text.Utf8.bytes)).exchanges.length = 1 := by
    decide +kernel
  have hInvalid : CommandLine.read ⟨some (Text.Utf8.bytes "localhost")⟩
      (["list", "tasks"].map Text.Utf8.bytes) =
      .ok ⟨⟨"localhost", .table, false, 0⟩, .list (some .tasks) []⟩ := by decide +kernel
  have hNone : Base.read "localhost" = .error ⟨"localhost", .noScheme⟩ := by decide +kernel
  have hUnusable : CommandLine.read ⟨none⟩
      (["level", "info", "--url", "localhost:9092"].map Text.Utf8.bytes) =
      .ok ⟨⟨"localhost:9092", .table, false, 0⟩, .level (some "info")⟩ := by decide +kernel
  have hBase : Base.read "localhost:9092" =
      .ok ⟨⟨"localhost", none, .bare "9092", none, none⟩⟩ := by decide +kernel
  have hOther : Base.IsUnusable ⟨⟨"localhost", none, .bare "9092", none, none⟩⟩ :=
    .inl (by unfold IsWeb; decide)
  have hSent : ∃ as f, (run ⟨none⟩ (fun _ => .ok (.bytes [])) ⟨[], .dropped⟩
      (["--url", "http://h", "enable", "a", "b"].map Text.Utf8.bytes)).exchanges =
        (sent as).map Attempt.exchange ∧
      (run ⟨none⟩ (fun _ => .ok (.bytes [])) ⟨[], .dropped⟩
        (["--url", "http://h", "enable", "a", "b"].map Text.Utf8.bytes)).ending.failure? = some f := by
    obtain ⟨f, hFailure, ⟨-, hNothing⟩ | ⟨i, base, as, -, -, -, hExchanges, -⟩⟩ :=
      (run_exit_three _ _ _ _).1 hDropped.1
    · rw [hNothing] at hDropped
      cases hDropped.2
    · exact ⟨as, f, hExchanges, hFailure⟩
  have hTwo := ((run_exit_three _ (fun _ => .ok (.bytes [])) ⟨[], .dropped⟩ _).2 _ hInvalid rfl).1 _ hNone
  have hQuiet := ((run_exit_three _ (fun _ => .ok (.bytes [])) ⟨[], .dropped⟩ _).2 _ hUnusable rfl).2 _
    hBase hOther
  exact ⟨_, _, _, rfl, hDropped.1, hDropped.2, hSent, rfl, hTwo.2.1, hTwo.2.2, rfl, hQuiet.1⟩

/-- **A run with exit code 3 that sends nothing.** The address lacks its scheme, so it is read as a URL
whose scheme is the name of the host; the run ends as if the service had not been reached. -/
theorem run_without_scheme :
    Base.read "localhost:9092" = .ok ⟨⟨"localhost", none, .bare "9092", none, none⟩⟩ ∧
    (run ⟨none⟩ (fun _ => .ok (.bytes [])) ⟨[], .answered 204 []⟩
      (["enable", "t", "--url", "localhost:9092"].map Text.Utf8.bytes)).exchanges = [] ∧
    (run ⟨none⟩ (fun _ => .ok (.bytes [])) ⟨[], .answered 204 []⟩
      (["enable", "t", "--url", "localhost:9092"].map Text.Utf8.bytes)).ending.exitCode = 3 ∧
    (run ⟨none⟩ (fun _ => .ok (.bytes [])) ⟨[], .answered 204 []⟩
      (["enable", "t", "--url", "localhost:9092"].map Text.Utf8.bytes)).ending.failure?.map
        (fun f => (f.code, f.message)) =
      some ("transport_error",
        "builder error for url (localhost:9092/enable?name=t): URL scheme is not allowed") := by
  decide +kernel

end

end ControlClient
