import ControlClient.Envelope
import ControlClient.Proofs.Except

/-!
# Which answers are taken for a success

An envelope is an object whose `Error` is a string, and a success is one without an error: the member is
absent, `null` or empty. The decoder takes more for a success than that. It looks for an error only
where a string may be one, so an `Error` that is a number, a truth value, an array or an object is passed
over like any other member that is not known; and a record may be written as an array, which has no room
for an `Error` at all.

## Main results

* `decode_of_read`: a body that is a document is not blank, so the document counts.
* `decode_of_reported`: an error that is reported is the answer, whatever else the body holds.
* `decodes_iff`: which bodies are taken for a success, for each kind of payload.
* `decodes_departures`: bodies that are no envelope without an error, and are taken for one.
-/

namespace ControlClient

open Json

namespace Envelope

/-! ## Blank bodies -/

private theorem run_of_blank {bytes : List UInt8} (h : bytes.all isBlankByte = true) (taken : Nat)
    (v : Value) : State.start.run taken bytes ≠ .ok v := by
  induction bytes generalizing taken with
  | nil => exact fun hRun => by cases hRun
  | cons byte rest ih =>
      obtain ⟨hByte, hRest⟩ := (Bool.and_eq_true _ _).mp h
      intro hRun
      unfold State.run at hRun
      by_cases hSpace : isSpace byte = true
      · have hStep : State.start.step taken byte = .ok State.start := if_pos hSpace
        rw [hStep] at hRun
        exact ih hRest (taken + 1) hRun
      -- A form feed is blank, but may not stand in front of a document.
      · have hFeed : byte = 12 := by
          simp only [isBlankByte, isSpace, Bool.or_eq_true, decide_eq_true_eq] at hByte hSpace
          grind
        subst hFeed
        cases hRun

/-- A body that is a document is decoded as that document. -/
theorem decode_of_read {α : Type} [Payload α] {body : List UInt8} {v : Value}
    (h : Json.read body = .ok v) : decode body = (payload v : Except EnvelopeFault α) := by
  have hInked : ¬body.all isBlankByte = true := by
    intro hBlank
    unfold Json.read at h
    split at h
    · next w hRun => exact run_of_blank hBlank 0 w hRun
    · cases h
  rw [decode, if_neg hInked, h]

theorem payload_of_ne_null {α : Type} [Payload α] {v : Value} (h : v ≠ .null) :
    (payload v : Except EnvelopeFault α) =
      match reportedError? v with
      | some message => .error (.server message)
      | none => (Payload.ofValue v).mapError (.malformed ∘ .badShape) := by
  unfold payload
  split
  · exact absurd rfl h
  · cases reportedError? v with
    | some message => rfl
    | none => cases (Payload.ofValue v : Except ShapeFault α) <;> rfl

/-- An object without an error that is a text is decoded as its payload. -/
theorem decode_of_object {α : Type} [Payload α] {body : List UInt8} {members : Members}
    (h : Json.read body = .ok (.object members)) (hError : reportedError? (.object members) = none) :
    decode body =
      (Payload.ofValue (.object members) : Except ShapeFault α).mapError (.malformed ∘ .badShape) := by
  rw [decode_of_read h, payload_of_ne_null (by simp), hError]

/-- An error that is reported is the answer, whatever the payload. -/
theorem decode_of_reported {α : Type} [Payload α] {body : List UInt8} {v : Value} {m : String}
    (h : Json.read body = .ok v) (hError : v.member? "Error" = some (.string m)) (hm : m ≠ "") :
    (decode body : Except EnvelopeFault α) = .error (.server m) := by
  have hReported : reportedError? v = some m := by
    unfold reportedError?
    rw [hError]
    exact if_neg hm
  rw [decode_of_read h]
  cases v with
  | null => cases hError
  | _ => simp only [payload, hReported]

end Envelope

/-! ## Parts of documents -/

variable {α : Type} (readPart : Value → Except ShapeFault α)

/-- Whether a part of a document can be read. -/
def IsReadable (v : Value) : Prop :=
  ∃ a, readPart v = .ok a

private theorem readOptional_iff (part? : Option Value) :
    (∃ a, readOptional readPart part? = .ok a) ↔ ∀ part ∈ part?, IsReadable readPart part := by
  cases part? with
  | none => simp [readOptional]
  | some part =>
      simp only [readOptional, map_eq_ok_iff, Option.mem_def, Option.some.injEq, forall_eq']
      constructor
      · rintro ⟨_, a, ha, -⟩
        exact ⟨a, ha⟩
      · rintro ⟨a, ha⟩
        exact ⟨some a, a, ha, rfl⟩

private theorem readAll_iff (items : List Value) :
    (∃ as, readAll readPart items = .ok as) ↔ ∀ item ∈ items, IsReadable readPart item := by
  induction items with
  | nil => simp [readAll]
  | cons item rest ih =>
      rw [List.forall_mem_cons, ← ih]
      simp only [readAll, bind_eq_ok_iff]
      constructor
      · rintro ⟨_, a, ha, as, has, -⟩
        exact ⟨⟨a, ha⟩, as, has⟩
      · rintro ⟨⟨a, ha⟩, as, has⟩
        exact ⟨a :: as, a, ha, as, has, rfl⟩

theorem atMost_iff {count : Nat} {items : List Value} {u : Unit} :
    atMost count items = .ok u ↔ items.length ≤ count := by
  unfold atMost
  by_cases h : items.length ≤ count <;> simp [h]

theorem isReadable_asString_iff (v : Value) : IsReadable Value.asString v ↔ ∃ s, v = .string s := by
  unfold IsReadable
  cases v <;> simp [Value.asString]

theorem isReadable_asList_iff (v : Value) :
    IsReadable (Value.asList readPart) v ↔
      v = .null ∨ ∃ items, v = .array items ∧ ∀ item ∈ items, IsReadable readPart item := by
  have hItems := readAll_iff readPart
  unfold IsReadable at hItems ⊢
  cases v <;> simp [Value.asList, hItems]

private theorem forall_first_iff {items : List Value} (hLength : items.length ≤ 1)
    (p : Value → Prop) : (∀ part ∈ items[0]?, p part) ↔ ∀ part ∈ items, p part := by
  cases items with
  | nil => simp
  | cons item rest =>
      have hRest : rest = [] := List.eq_nil_of_length_eq_zero (by simpa using hLength)
      subst hRest
      simp

/-- A record with one field that may be absent. -/
theorem isReadable_soleField_iff (name field : String) (v : Value) :
    IsReadable (soleField name field readPart) v ↔
      (∃ members, v = .object members ∧ ∀ part ∈ get? field members, IsReadable readPart part) ∨
      (∃ items, v = .array items ∧ items.length ≤ 1 ∧ ∀ part ∈ items, IsReadable readPart part) := by
  unfold IsReadable soleField
  cases v with
  | object members => simpa [Value.asRecord, IsReadable] using readOptional_iff readPart _
  | array items =>
      have hFirst := readOptional_iff readPart items[0]?
      simp only [Value.asRecord, bind_eq_ok_iff, atMost_iff, reduceCtorEq, false_and, exists_false,
        false_or, Value.array.injEq, exists_eq_left']
      constructor
      · rintro ⟨_, part?, hPart, _, hLength, -⟩
        refine ⟨hLength, ?_⟩
        exact (forall_first_iff hLength _).1 (hFirst.1 ⟨part?, hPart⟩)
      · rintro ⟨hLength, hParts⟩
        obtain ⟨part?, hPart⟩ := hFirst.2 ((forall_first_iff hLength _).2 hParts)
        exact ⟨part?, part?, hPart, (), hLength, rfl⟩
  | _ => simp [Value.asRecord]

/-! ## Kinds of payload -/

/-- The kinds of payload. -/
inductive PayloadKind where
  | acknowledgement
  | recordingCreated
  | taskList
  | recordingList

namespace PayloadKind

/-- Whether a body is taken for a success with this payload. -/
def Decodes (body : List UInt8) : PayloadKind → Prop
  | acknowledgement => ∃ a : Acknowledgement, Envelope.decode body = .ok a
  | recordingCreated => ∃ a : RecordingCreated, Envelope.decode body = .ok a
  | taskList => ∃ a : TaskList, Envelope.decode body = .ok a
  | recordingList => ∃ a : RecordingList, Envelope.decode body = .ok a

/-- The fields of a payload. -/
def fields : PayloadKind → List String
  | acknowledgement => []
  | recordingCreated => ["RecordingID"]
  | taskList => ["Tasks"]
  | recordingList => ["Recordings"]

/-- What a field of a payload may be: an identifier, or a list of tasks or recordings, for which
`null` may stand if it is empty. -/
def Accepts (part : Value) : PayloadKind → Prop
  | acknowledgement => False
  | recordingCreated => ∃ id, part = .string id
  | taskList =>
      part = .null ∨ ∃ items, part = .array items ∧ ∀ item ∈ items, IsReadable Task.ofValue item
  | recordingList =>
      part = .null ∨
        ∃ items, part = .array items ∧ ∀ item ∈ items, IsReadable Recording.ofValue item

end PayloadKind

/-- Whether an envelope has no error: the member is absent, `null` or empty. -/
def HasNoError (members : Members) : Prop :=
  get? "Error" members = none ∨ get? "Error" members = some .null ∨
    get? "Error" members = some (.string "")

/-- Whether an envelope has an error that is no text. -/
def HasMistypedError (members : Members) : Prop :=
  ∃ part, get? "Error" members = some part ∧ part ≠ .null ∧ ∀ m, part ≠ .string m

theorem reportedError?_eq_none_iff (members : Members) :
    Envelope.reportedError? (.object members) = none ↔
      HasNoError members ∨ HasMistypedError members := by
  unfold HasNoError HasMistypedError
  simp only [Envelope.reportedError?, Value.member?]
  cases get? "Error" members with
  | none => simp
  | some part => cases part <;> simp

namespace PayloadKind

/-- Whether the payload of a document can be read, its error apart. -/
def IsRead (v : Value) : PayloadKind → Prop
  | acknowledgement => IsReadable (Payload.ofValue (α := Acknowledgement)) v
  | recordingCreated => IsReadable (Payload.ofValue (α := RecordingCreated)) v
  | taskList => IsReadable (Payload.ofValue (α := TaskList)) v
  | recordingList => IsReadable (Payload.ofValue (α := RecordingList)) v

private theorem isReadable_map_iff {β : Type} (f : α → β) (v : Value) :
    IsReadable (fun v => (readPart v).map f) v ↔ IsReadable readPart v := by
  unfold IsReadable
  simp only [map_eq_ok_iff]
  constructor
  · rintro ⟨_, a, ha, -⟩
    exact ⟨a, ha⟩
  · rintro ⟨a, ha⟩
    exact ⟨f a, a, ha, rfl⟩

theorem isRead_iff (kind : PayloadKind) (v : Value) :
    kind.IsRead v ↔
      (∃ members, v = .object members ∧
        ∀ field ∈ kind.fields, ∀ part ∈ get? field members, kind.Accepts part) ∨
      (∃ items, v = .array items ∧ items.length ≤ kind.fields.length ∧
        ∀ part ∈ items, kind.Accepts part) := by
  cases kind with
  | acknowledgement =>
      unfold IsRead IsReadable
      cases v with
      | array items =>
          have hItems : Payload.ofValue (α := Acknowledgement) (.array items) =
              (atMost 0 items >>= fun _ => .ok ⟨⟩) := rfl
          rw [hItems]
          simp only [bind_eq_ok_iff, atMost_iff]
          constructor
          · rintro ⟨_, _, hEmpty, -⟩
            have hNil : items = [] := List.eq_nil_of_length_eq_zero (Nat.le_zero.1 hEmpty)
            exact .inr ⟨items, rfl, hEmpty, by simp [hNil]⟩
          · rintro (⟨members, hMembers, -⟩ | ⟨others, hOthers, hEmpty, -⟩)
            · cases hMembers
            · cases hOthers
              exact ⟨⟨⟩, (), hEmpty, trivial⟩
      | object members => exact ⟨fun _ => .inl ⟨members, rfl, by simp [fields]⟩, fun _ => ⟨⟨⟩, rfl⟩⟩
      | _ => simp [Payload.ofValue, Value.asRecord]
  | recordingCreated =>
      show IsReadable (fun v => Except.map _ (soleField "RecordingCreated" "RecordingID" _ v)) v ↔ _
      rw [isReadable_map_iff, isReadable_soleField_iff]
      simp [fields, Accepts, isReadable_asString_iff]
  | taskList =>
      show IsReadable (fun v => Except.map _ (soleField "TaskList" "Tasks" _ v)) v ↔ _
      rw [isReadable_map_iff, isReadable_soleField_iff]
      simp [fields, Accepts, isReadable_asList_iff]
  | recordingList =>
      show IsReadable (fun v => Except.map _ (soleField "RecordingList" "Recordings" _ v)) v ↔ _
      rw [isReadable_map_iff, isReadable_soleField_iff]
      simp [fields, Accepts, isReadable_asList_iff]

/-- The shape of a document that is taken for a success with a payload: an object without an error that
is a text, or an array, with no other parts where the payload's fields are looked for. -/
def Fits (v : Value) (kind : PayloadKind) : Prop :=
  (∃ members, v = .object members ∧ (HasNoError members ∨ HasMistypedError members) ∧
    ∀ field ∈ kind.fields, ∀ part ∈ get? field members, kind.Accepts part) ∨
  (∃ items, v = .array items ∧ items.length ≤ kind.fields.length ∧
    ∀ part ∈ items, kind.Accepts part)

end PayloadKind

private theorem payload_ok_iff [Payload α] (v : Value) :
    (∃ a : α, Envelope.payload v = .ok a) ↔
      v = .null ∨ Envelope.reportedError? v = none ∧ IsReadable (Payload.ofValue (α := α)) v := by
  unfold Envelope.payload IsReadable
  split
  · simp
  · next hNull =>
      have hSome : v ≠ .null := hNull
      cases Envelope.reportedError? v with
      | some m => simp [hSome]
      | none => cases (Payload.ofValue v : Except ShapeFault α) <;> simp [hSome]

private theorem decode_ok_iff [Payload α] (body : List UInt8) :
    (∃ a : α, Envelope.decode body = .ok a) ↔
      body.all Envelope.isBlankByte = true ∨
      ∃ v, Json.read body = .ok v ∧ (v = .null ∨
        Envelope.reportedError? v = none ∧ IsReadable (Payload.ofValue (α := α)) v) := by
  simp only [← payload_ok_iff]
  by_cases hBlank : body.all Envelope.isBlankByte = true
  · rw [Envelope.decode, if_pos hBlank]
    simp [hBlank]
  · rw [Envelope.decode, if_neg hBlank]
    cases Json.read body with
    | ok v => simp [hBlank]
    | error e => simp [hBlank]

private theorem PayloadKind.decodes_iff_isRead (kind : PayloadKind) (body : List UInt8) :
    kind.Decodes body ↔
      body.all Envelope.isBlankByte = true ∨
      ∃ v, Json.read body = .ok v ∧ (v = .null ∨
        Envelope.reportedError? v = none ∧ kind.IsRead v) := by
  cases kind <;> exact decode_ok_iff body

theorem PayloadKind.fits_iff (kind : PayloadKind) (v : Value) :
    kind.Fits v ↔ Envelope.reportedError? v = none ∧ kind.IsRead v := by
  rw [isRead_iff]
  cases v with
  | object members => simp [Fits, reportedError?_eq_none_iff]
  | array items => simp [Fits, Envelope.reportedError?, Value.member?]
  | _ => simp [Fits]

/-- **Which bodies are taken for a success**: blank ones, `null`, and documents of the payload's shape.
-/
theorem decodes_iff (kind : PayloadKind) (body : List UInt8) :
    kind.Decodes body ↔
      body.all Envelope.isBlankByte = true ∨
      ∃ v, Json.read body = .ok v ∧ (v = .null ∨ kind.Fits v) := by
  rw [kind.decodes_iff_isRead]
  simp only [kind.fits_iff]

/-- **Bodies that are no envelope without an error, and are taken for one**: an array, and an object whose
error is a number. -/
theorem decodes_departures :
    (PayloadKind.acknowledgement.Decodes (Text.Utf8.bytes "[]") ∧
      PayloadKind.acknowledgement.Decodes (Text.Utf8.bytes "\x7b\"Error\":5\x7d")) ∧
    ∀ body ∈ [Text.Utf8.bytes "[]", Text.Utf8.bytes "\x7b\"Error\":5\x7d"],
      ¬body.all Envelope.isBlankByte = true ∧
      ∃ v, Json.read body = .ok v ∧
        ¬(v = .null ∨ ∃ members, v = .object members ∧ HasNoError members) := by
  refine ⟨⟨⟨⟨⟩, rfl⟩, ⟨⟨⟩, rfl⟩⟩, ?_⟩
  intro body hBody
  simp only [List.mem_cons, List.not_mem_nil, or_false] at hBody
  rcases hBody with rfl | rfl
  · exact ⟨by decide, .array [], rfl, by simp⟩
  · exact ⟨by decide, .object [("Error", .integer 5)], rfl, by simp [HasNoError, get?]⟩

end ControlClient
