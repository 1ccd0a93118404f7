import ControlClient.Proofs.Session.Attempts
import ControlClient.Proofs.Session.Requests
import ControlClient.Proofs.Span.RoundTrip
import Mathlib.Control.Monad.Basic

/-!
# The span of a recording

A recording of the live stream is asked for with a span, which goes from the command line to the service
through two texts: the one that the operator writes, in any notation, and the canonical one in the query
of the request. Since what is written of a span is read as that span, nothing is lost in between.

## Main results

* `span_roundTrip`: the span that the service is told is the one that the command line gave.
-/

namespace ControlClient

open CommandLine (Environment)

section Stream

variable {env : Environment} {files : Files} {options : RecordOptions}

/-- A recording of the stream is asked for by one operation, with its span. -/
private theorem plan_of_stream (hMode : options.mode = .stream) :
    (Command.record options).plan files = .ok (.record (.stream options.duration)) := by
  have hSource : options.source = .ok (.stream options.duration) := by
    rw [RecordOptions.source, hMode]
  rw [Command.plan, hSource]
  rfl

/-- A command that records the stream carries out that plan. -/
private theorem perform_of_stream [DomainMapping] [Text.Measure] {i : Invocation} {base : Base}
    (hCommand : i.command = .record options) (hMode : options.mode = .stream)
    (hBase : Base.read i.settings.url = .ok base) :
    i.perform env files =
      (Plan.record (.stream options.duration)).carryOut base i.settings.format := by
  have hGoesOn : ∀ {α β : Type} (a : α) (next : α → Conversation β),
      (Conversation.ofExcept (.ok a) >>= next) = next a := fun _ _ => rfl
  rw [Invocation.perform, hCommand]
  dsimp only
  rw [hBase, show (Except.ok base).mapError Failure.invalidUrl = .ok base from rfl, hGoesOn,
    plan_of_stream hMode, hGoesOn]

/-- One operation is asked for, unless no request is made for its URL. -/
private theorem exchanges_of_record [DomainMapping] [Text.Measure] {base : Base} (format : OutputFormat)
    (service : Service) {source : RecordSource} {a : Attempt}
    (hUrl : base.urlFor (Operation.record source).request = .ok a.url)
    (hAttempt : a = ⟨.record source, a.url, service.reply.1⟩) (hRefusal : a.refusal? = none) :
    (((Plan.record source).carryOut base format).transcript service).exchanges = [a.exchange] := by
  have hAttempts : attempts base service (Plan.record source).operations = .ok [a] := by
    show attempts base service [_] = _
    rw [attempts, hUrl, hAttempt]
    rfl
  have hSent : sent [a] = [a] := by
    rw [sent_cons, hRefusal]
    cases a.failure? <;> rfl
  have hQuiet : (Plan.record source).IsQuiet := trivial
  have hOutcome : fault? (outcome ((Plan.record source).carryOut base format) service).1 = _ ∧ _ :=
    outcome_carryOut hQuiet hAttempts
  rw [(transcript_eq_outcome _ service).2, hOutcome.2, hSent]
  rfl

end Stream

/-- **A span goes round through its notation**: what is written of it is read as the same span, so
different spans are written differently, and what a run that records the stream asks of the service
ends in a notation of the span that its command line gave. Such a run asks once, unless no request is
made for its URL. -/
theorem span_roundTrip [DomainMapping] [Text.Measure] :
    (∀ d : Span, Span.read d.text = .ok d) ∧
    (∀ d e : Span, d.text = e.text → d = e) ∧
    ∀ (env : Environment) (files : Files) (service : Service) (words : List (List UInt8))
      (i : Invocation) (options : RecordOptions), CommandLine.read env words = .ok i →
      i.command = .record options → options.mode = .stream →
      (∀ x ∈ (run env files service words).exchanges,
        ∃ base joined notated, Base.read i.settings.url = .ok base ∧
          Base.readUrl (base.join "/record") = .ok joined ∧
          x.1.url.pairs = joined.pairs ++ [("type", "stream"), ("duration", notated)] ∧
          Span.read notated = .ok options.duration) ∧
      ∀ base url, Base.read i.settings.url = .ok base →
        base.urlFor (Operation.record (.stream options.duration)).request = .ok url →
        Exchange.refusal? url.released = none →
        (run env files service words).exchanges.length = 1 := by
  refine ⟨Span.read_text, fun d e => Span.text_injective, ?_⟩
  intro env files service words i options hRead hCommand hMode
  constructor
  · intro x hx
    obtain ⟨base, plan, hBase, hPlan, o, ho, hCarried⟩ := operation_of_mem_exchanges hRead hx
    rw [hCommand, plan_of_stream hMode] at hPlan
    cases hPlan
    cases List.mem_singleton.1 ho
    obtain ⟨joined, hJoined, hPairs⟩ := pairs_of_carries hCarried
    exact ⟨base, joined, options.duration.text, hBase, hJoined, hPairs,
      Span.read_text options.duration⟩
  · intro base url hBase hUrl hRefusal
    have hExchanges := exchanges_of_record i.settings.format service
      (a := ⟨_, url, service.reply.1⟩) hUrl rfl (by rw [Attempt.refusal?, hRefusal]; rfl)
    rw [(run_of_read files service hRead).1, perform_of_stream hCommand hMode hBase, hExchanges]
    rfl

section

attribute [local instance] DomainMapping.asciiOnly Text.Measure.byCharacters

/-- Ninety and a half minutes, which the service is told as an hour, thirty minutes and as many
seconds. -/
theorem run_record_stream :
    ∃ i options x,
      CommandLine.read ⟨none⟩ (["--url", "http://host/x", "record", "stream", "--duration",
        "90.5m"].map Text.Utf8.bytes) = .ok i ∧
      i.command = .record options ∧ options.mode = .stream ∧
      (run ⟨none⟩ (fun _ => .ok (.bytes [])) ⟨[], .answered 204 []⟩ (["--url", "http://host/x",
        "record", "stream", "--duration", "90.5m"].map Text.Utf8.bytes)).exchanges = [x] ∧
      x.1.url.query? = some "type=stream&duration=1h30m30s" ∧
      ∃ base joined notated, Base.read i.settings.url = .ok base ∧
        Base.readUrl (base.join "/record") = .ok joined ∧
        x.1.url.pairs = joined.pairs ++ [("type", "stream"), ("duration", notated)] ∧
        Span.read notated = .ok options.duration := by
  let options : RecordOptions :=
    ⟨.stream, ⟨5430 * nanosPerSecond, by decide⟩, "", "", 1, "", "", none⟩
  let url : Url := ⟨"http", some ⟨"", "", .name "host", none⟩, .segments ["x", "record"],
    some "type=stream&duration=1h30m30s", none⟩
  let request : SentRequest := ⟨.post, url, some octetStream, userAgent, none, .bytes []⟩
  have hRead : CommandLine.read ⟨none⟩ (["--url", "http://host/x", "record", "stream",
      "--duration", "90.5m"].map Text.Utf8.bytes) =
      .ok ⟨⟨"http://host/x", .table, false, 0⟩, .record options⟩ := by decide +kernel
  have hExchanges : (run ⟨none⟩ (fun _ => .ok (.bytes [])) ⟨[], .answered 204 []⟩ (["--url",
      "http://host/x", "record", "stream", "--duration", "90.5m"].map
        Text.Utf8.bytes)).exchanges = [(request, .answered 204 [])] := by decide +kernel
  exact ⟨_, options, _, hRead, rfl, rfl, hExchanges, rfl,
    (span_roundTrip.2.2 _ _ _ _ _ options hRead rfl rfl).1 _ (by rw [hExchanges]; simp)⟩

end

end ControlClient
