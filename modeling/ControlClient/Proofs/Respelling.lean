import ControlClient.Proofs.Envelope
import ControlClient.Proofs.Json.Alike

/-!
# An answer is its document

How the service writes a document does not matter to what an answer is decoded to: not the blanks
between its tokens, nor how its strings are escaped, nor the order of its members, nor members that are
not declared where they stand. Only an `Error` of the envelope itself is looked for.

Every reader of parts finds in the view of a document what it finds in the document. A fault may then
show a part that looks otherwise, but the words it is told in are the same, because they say no more of
an object or an array than that it is one. So the decoder is followed up to these words.

## Main results

* `readsView_task`, `readsView_recording`, `readsView_soleField`: what is read of a part is read of its view.
* `decode_of_alike`: bodies whose documents are alike are decoded to the same answer.
-/

namespace ControlClient

open Json

/-! ## Schemas -/

/-- What is looked up in a task. -/
def taskSchema : Schema := .record [("Name", .leaf), ("Type", .leaf), ("Enabled", .leaf)]

/-- What is looked up in a recording. -/
def recordingSchema : Schema := .record [("ID", .leaf), ("Type", .leaf), ("Size", .leaf)]

/-- What is looked up in an envelope with these fields, which may be an array, but has an error as an object
only. -/
def envelopeSchema (fields : List (String × Schema)) : Schema := .record (fields ++ [("Error", .leaf)])

/-- What is looked up in an envelope with a payload. -/
def PayloadKind.schema : PayloadKind → Schema
  | acknowledgement => envelopeSchema []
  | recordingCreated => envelopeSchema [("RecordingID", .leaf)]
  | taskList => envelopeSchema [("Tasks", .list taskSchema)]
  | recordingList => envelopeSchema [("Recordings", .list recordingSchema)]

/-! ## Readers of parts -/

section Readers

variable {α β : Type} {schema : Schema}

/-- What is read of a part, or the words in which its fault is told. -/
def told (result : Except ShapeFault α) : Except String α := result.mapError ShapeFault.message

theorem told_bind (result : Except ShapeFault α) (next : α → Except ShapeFault β) :
    told (result >>= next) = told result >>= fun a => told (next a) := by
  cases result <;> rfl

theorem told_map (result : Except ShapeFault α) (f : α → β) : told (result.map f) = (told result).map f := by
  cases result <;> rfl

/-- Whether a reader finds in the view of a part what it finds in the part. -/
def ReadsView (schema : Schema) (readPart : Value → Except ShapeFault α) : Prop :=
  ∀ v, told (readPart (v.view schema)) = told (readPart v)

theorem readsView_asString : ReadsView schema Value.asString := by
  intro v
  cases v <;> rfl

theorem readsView_asBool : ReadsView schema Value.asBool := by
  intro v
  cases v <;> rfl

theorem readsView_asInt64 : ReadsView schema Value.asInt64 := by
  intro v
  cases v <;> rfl

theorem readsView_asTaskType : ReadsView schema Value.asTaskType := by
  intro v
  cases v <;> rfl

section Part

variable {readPart : Value → Except ShapeFault α}

theorem told_readOptional (h : ReadsView schema readPart) (part? : Option Value) :
    told (readOptional readPart (part?.map (Value.view schema))) = told (readOptional readPart part?) := by
  cases part? with
  | none => rfl
  | some v =>
      show told ((readPart _).map some) = told ((readPart v).map some)
      rw [told_map, told_map, h]

theorem told_readAll {item : Schema} (h : ReadsView item readPart) (place : Nat) (items : List Value) :
    told (readAll readPart (viewItems (.list item) place items)) = told (readAll readPart items) := by
  induction items generalizing place with
  | nil => rfl
  | cons v rest ih => simp only [viewItems, readAll, told_bind, Schema.item, h v, ih]

theorem readsView_asList {item : Schema} (h : ReadsView item readPart) :
    ReadsView (.list item) (Value.asList readPart) := by
  intro v
  cases v with
  | array items => exact told_readAll h 0 items
  | _ => rfl

theorem told_itemAt {i : Nat} (h : ReadsView (schema.item i) readPart) (items : List Value)
    (expected : String) :
    told (itemAt readPart (viewItems schema 0 items) i expected) =
      told (itemAt readPart items i expected) := by
  rw [itemAt, itemAt, getElem?_viewItems, Nat.zero_add]
  cases items[i]? with
  | none => rfl
  | some v => exact h v

theorem told_readOptional_item {i : Nat} (h : ReadsView (schema.item i) readPart) (items : List Value) :
    told (readOptional readPart (viewItems schema 0 items)[i]?) = told (readOptional readPart items[i]?) := by
  rw [getElem?_viewItems, Nat.zero_add, told_readOptional h]

end Part

theorem atMost_viewItems (count : Nat) (items : List Value) :
    atMost count (viewItems schema 0 items) = atMost count items := by
  rw [atMost, atMost, length_viewItems]

theorem readsView_asRecord {name : String} {ofMembers : Members → Except ShapeFault α}
    {ofItems : List Value → Except ShapeFault α}
    (hMembers : ∀ members,
      told (ofMembers (select schema.keys (viewMembers schema members))) = told (ofMembers members))
    (hItems : ∀ items, told (ofItems (viewItems schema 0 items)) = told (ofItems items)) :
    ReadsView schema (Value.asRecord name ofMembers ofItems) := by
  intro v
  cases v with
  | array items => exact hItems items
  | object members => exact hMembers members
  | _ => rfl

/-! ## Tasks, recordings and payloads -/

theorem readsView_task : ReadsView taskSchema Task.ofValue := by
  apply readsView_asRecord
  · intro members
    simp only [Task.ofMembers, told_bind, get?_view (show "Enabled" ∈ taskSchema.keys by decide),
      get?_view (show "Name" ∈ taskSchema.keys by decide),
      get?_view (show "Type" ∈ taskSchema.keys by decide), told_readOptional readsView_asBool,
      told_readOptional readsView_asString, told_readOptional readsView_asTaskType]
  · intro items
    simp only [Task.ofItems, told_bind, told_itemAt readsView_asString, told_itemAt readsView_asTaskType,
      told_readOptional_item readsView_asBool, atMost_viewItems]

theorem readsView_recording : ReadsView recordingSchema Recording.ofValue := by
  apply readsView_asRecord
  · intro members
    simp only [Recording.ofMembers, told_bind, get?_view (show "ID" ∈ recordingSchema.keys by decide),
      get?_view (show "Size" ∈ recordingSchema.keys by decide),
      get?_view (show "Type" ∈ recordingSchema.keys by decide), told_readOptional readsView_asInt64,
      told_readOptional readsView_asString, told_readOptional readsView_asTaskType]
  · intro items
    simp only [Recording.ofItems, told_bind, told_itemAt readsView_asString,
      told_itemAt readsView_asTaskType, told_readOptional_item readsView_asInt64, atMost_viewItems]

theorem readsView_soleField {name field : String} {part : Schema} {readField : Value → Except ShapeFault α}
    (h : ReadsView part readField) :
    ReadsView (envelopeSchema [(field, part)]) (soleField name field readField) := by
  have hKnown : field ∈ (envelopeSchema [(field, part)]).keys := .head _
  have hField : (envelopeSchema [(field, part)]).field field = part := by
    simp [envelopeSchema, Schema.field]
  have hItem : ReadsView ((envelopeSchema [(field, part)]).item 0) readField := h
  apply readsView_asRecord
  · intro members
    rw [get?_view hKnown, hField, told_readOptional h]
  · intro items
    simp only [told_bind, told_readOptional_item hItem, atMost_viewItems]

theorem ReadsView.map {readPart : Value → Except ShapeFault α} (h : ReadsView schema readPart) (f : α → β) :
    ReadsView schema fun v => (readPart v).map f := by
  intro v
  rw [told_map, told_map, h v]

end Readers

theorem readsView_acknowledgement :
    ReadsView PayloadKind.acknowledgement.schema (Payload.ofValue (α := Acknowledgement)) := by
  apply readsView_asRecord
  · exact fun _ => rfl
  · intro items
    simp only [told_bind, atMost_viewItems]

theorem readsView_recordingCreated :
    ReadsView PayloadKind.recordingCreated.schema (Payload.ofValue (α := RecordingCreated)) :=
  (readsView_soleField readsView_asString).map _

theorem readsView_taskList : ReadsView PayloadKind.taskList.schema (Payload.ofValue (α := TaskList)) :=
  (readsView_soleField (readsView_asList readsView_task)).map _

theorem readsView_recordingList :
    ReadsView PayloadKind.recordingList.schema (Payload.ofValue (α := RecordingList)) :=
  (readsView_soleField (readsView_asList readsView_recording)).map _

/-! ## Answers -/

/-- Whether two answers are the same to who asked: the same payload, the same error of the service, or no
document of the payload's shape for a reason that is told in the same words. -/
inductive SameAnswer {α : Type} : Except EnvelopeFault α → Except EnvelopeFault α → Prop where
  | payload (a : α) : SameAnswer (.ok a) (.ok a)
  | server (message : String) : SameAnswer (.error (.server message)) (.error (.server message))
  | badShape {fault other : ShapeFault} (h : fault.message = other.message) :
      SameAnswer (.error (.malformed (.badShape fault))) (.error (.malformed (.badShape other)))

theorem sameAnswer_of_told {α : Type} {result other : Except ShapeFault α} (h : told result = told other) :
    SameAnswer (result.mapError (EnvelopeFault.malformed ∘ .badShape))
      (other.mapError (EnvelopeFault.malformed ∘ .badShape)) := by
  cases result with
  | ok a =>
      cases other with
      | ok b =>
          cases h
          exact .payload a
      | error fault => cases h
  | error fault =>
      cases other with
      | ok b => cases h
      | error fault => exact .badShape (Except.error.inj h)

/-- Whether two bodies are decoded to the same answer. -/
def PayloadKind.DecodesAlike (body other : List UInt8) : PayloadKind → Prop
  | acknowledgement =>
      SameAnswer (Envelope.decode body : Except EnvelopeFault Acknowledgement) (Envelope.decode other)
  | recordingCreated =>
      SameAnswer (Envelope.decode body : Except EnvelopeFault RecordingCreated) (Envelope.decode other)
  | taskList => SameAnswer (Envelope.decode body : Except EnvelopeFault TaskList) (Envelope.decode other)
  | recordingList =>
      SameAnswer (Envelope.decode body : Except EnvelopeFault RecordingList) (Envelope.decode other)

namespace Envelope

theorem reportedError?_view (kind : PayloadKind) (v : Value) :
    reportedError? (v.view kind.schema) = reportedError? v := by
  cases v with
  | object members =>
      have hKnown : "Error" ∈ kind.schema.keys := by cases kind <;> decide
      simp only [reportedError?, Value.view, Value.member?, get?_view hKnown]
      cases get? "Error" members with
      | none => rfl
      | some part => cases part <;> rfl
  | _ => rfl

theorem view_eq_null_iff {schema : Schema} {v : Value} : v.view schema = .null ↔ v = .null := by
  cases v <;> simp [Value.view]

/-- Documents with one view hold the same payload, the same error or the same fault. -/
theorem sameAnswer_payload {α : Type} [Payload α] {kind : PayloadKind}
    (hReads : ReadsView kind.schema (Payload.ofValue (α := α))) {v w : Value}
    (h : v.view kind.schema = w.view kind.schema) :
    SameAnswer (payload v : Except EnvelopeFault α) (payload w) := by
  have hNull : v = .null ↔ w = .null := by
    rw [← view_eq_null_iff, h, view_eq_null_iff]
  by_cases hv : v = .null
  · rw [hv, hNull.1 hv]
    exact .payload _
  · have hError : reportedError? v = reportedError? w := by
      rw [← reportedError?_view kind, h, reportedError?_view]
    have hTold : told (Payload.ofValue v : Except ShapeFault α) = told (Payload.ofValue w) := by
      rw [← hReads v, h, hReads w]
    rw [payload_of_ne_null hv, payload_of_ne_null (mt hNull.2 hv), hError]
    cases reportedError? w with
    | some message => exact .server message
    | none => exact sameAnswer_of_told hTold

theorem sameAnswer_decode {α : Type} [Payload α] {kind : PayloadKind}
    (hReads : ReadsView kind.schema (Payload.ofValue (α := α))) {body other : List UInt8} {v w : Value}
    (hRead : Json.read body = .ok v) (hReadOther : Json.read other = .ok w)
    (h : v.view kind.schema = w.view kind.schema) :
    SameAnswer (decode body : Except EnvelopeFault α) (decode other) := by
  rw [decode_of_read hRead, decode_of_read hReadOther]
  exact sameAnswer_payload hReads h

end Envelope

/-! ## A listing in two spellings -/

section Listing

open Text.Utf8 (bytes encode)

private def plainListing : Value :=
  .object [("Tasks", .array [.object [("Name", .string "a/b"), ("Type", .string "stream")]])]

/-- The same with members that are not declared where they stand. -/
private def paddedListing : Value :=
  .object
    [("Tasks", .array [.object [("Type", .string "stream"), ("Error", .object []), ("Size", .integer 7),
        ("Name", .string "a/b")]]),
      ("ID", .null)]

private theorem alike_listings : Alike PayloadKind.taskList.schema plainListing paddedListing := by
  have hTask : Alike taskSchema (.object [("Name", .string "a/b"), ("Type", .string "stream")])
      (.object [("Type", .string "stream"), ("Error", .object []), ("Size", .integer 7),
        ("Name", .string "a/b")]) :=
    .trans (.reordered (.swap _ _ _) (by decide))
      (.trans (.added [("Type", .string "stream")] [("Name", .string "a/b")] (.object []) (by decide))
        (.added [_, ("Error", .object [])] [_] (.integer 7) (by decide)))
  exact .trans (.member [] [] "Tasks" (.item [] [] hTask)) (.added [_] [] .null (by decide))

private theorem spelled_plainListing : plainListing.Spelled
    (bytes "\x7b\"Tasks\":[\x7b\"Name\":\"a/b\",\"Type\":\"stream\"\x7d]\x7d") := by
  have hNone := isBlank_nil
  have hTask := Spells.object (.members hNone (spells_quote "Name") hNone hNone
    (.string (spells_quote "a/b")) hNone
    (.member hNone (spells_quote "Type") hNone hNone (.string (spells_quote "stream")) hNone))
  have hTasks := Spells.object (.member hNone (spells_quote "Tasks") hNone hNone
    (.array (.item hNone hTask hNone)) hNone)
  exact ⟨[], _, [], by decide +kernel, hNone, hTasks, hNone⟩

private theorem spelled_paddedListing : paddedListing.Spelled
    (bytes (" \x7b \"\\u0054asks\" : [\x7b\"Type\":\"stream\",\"Error\":\x7b \x7d,\"Size\":7," ++
      "\"Name\":\"a\\/b\"\x7d\t],\n\"ID\":null\x7d")) := by
  have hNone := isBlank_nil
  have hSpace : IsBlank [32] := by simp [IsBlank, isSpace]
  have hTab : IsBlank [9] := by simp [IsBlank, isSpace]
  have hLine : IsBlank [10] := by simp [IsBlank, isSpace]
  have hKeyText : SpellsText ('T' :: "asks".toList)
      (92 :: 117 :: [48, 48, 53, 52] ++ encode ("asks".toList.flatMap escapeChar)) :=
    .cons (.code ⟨rfl, rfl⟩) (spells_escaped _)
  have hNameText : SpellsText ['a', '/', 'b'] (encode ['a'] ++ ([92, 47] ++ (encode ['b'] ++ []))) :=
    .cons (.itself (by decide) (by decide) (by decide))
      (.cons (.letter rfl) (.cons (.itself (by decide) (by decide) (by decide)) .nil))
  have hKey : SpellsString "Tasks" _ := ⟨_, rfl, hKeyText⟩
  have hName : SpellsString "a/b" _ := ⟨_, rfl, hNameText⟩
  have hSize : SpellsNumber (.integer 7) [55] := ⟨List.forall_mem_singleton.2 (by decide), rfl⟩
  have hSizeOn := Spells.members hNone (spells_quote "Size") hNone hNone (.number hSize) hNone
    (.member hNone (spells_quote "Name") hNone hNone (.string hName) hNone)
  have hErrorOn := Spells.members hNone (spells_quote "Error") hNone hNone (.emptyObject hSpace) hNone hSizeOn
  have hTask := Spells.object (.members hNone (spells_quote "Type") hNone hNone
    (.string (spells_quote "stream")) hNone hErrorOn)
  have hTasks := Spells.object (.members hSpace hKey hSpace hSpace (.array (.item hNone hTask hTab)) hNone
    (.member hLine (spells_quote "ID") hNone hNone .null hNone))
  exact ⟨[32], _, [], by decide +kernel, hSpace, hTasks, hNone⟩

end Listing

/-! ## Bodies -/

/-- **Bodies whose documents are alike are decoded to the same answer.** -/
theorem decode_of_alike {body other : List UInt8} {d e v w : Value} (hSpelled : d.Spelled body)
    (hOther : e.Spelled other) (hRead : Json.read body = .ok v) (hReadOther : Json.read other = .ok w)
    (kind : PayloadKind) (hAlike : Alike kind.schema d e) : kind.DecodesAlike body other := by
  obtain ⟨-, rfl⟩ := (read_spelled_iff hSpelled).1 hRead
  obtain ⟨-, rfl⟩ := (read_spelled_iff hOther).1 hReadOther
  have hView := view_eq_of_alike hAlike
  cases kind with
  | acknowledgement => exact Envelope.sameAnswer_decode readsView_acknowledgement hRead hReadOther hView
  | recordingCreated => exact Envelope.sameAnswer_decode readsView_recordingCreated hRead hReadOther hView
  | taskList => exact Envelope.sameAnswer_decode readsView_taskList hRead hReadOther hView
  | recordingList => exact Envelope.sameAnswer_decode readsView_recordingList hRead hReadOther hView

open Text.Utf8 (bytes) in
/-- A listing of one task, and the same with blanks, escapes, members in another order, and members that
are not declared where they stand: an `Error` and a `Size` of the task, and an `ID` of the envelope. -/
theorem decode_of_alike_listing :
    let body := bytes "\x7b\"Tasks\":[\x7b\"Name\":\"a/b\",\"Type\":\"stream\"\x7d]\x7d"
    let other := bytes (" \x7b \"\\u0054asks\" : [\x7b\"Type\":\"stream\",\"Error\":\x7b \x7d,\"Size\":7," ++
      "\"Name\":\"a\\/b\"\x7d\t],\n\"ID\":null\x7d")
    (∃ v, Json.read body = .ok v) ∧ (∃ v, Json.read other = .ok v) ∧
      PayloadKind.taskList.DecodesAlike body other := by
  have hRead := (read_spelled_iff spelled_plainListing).2 ⟨by decide, rfl⟩
  have hReadOther := (read_spelled_iff spelled_paddedListing).2 ⟨by decide, rfl⟩
  exact ⟨⟨_, hRead⟩, ⟨_, hReadOther⟩,
    decode_of_alike spelled_plainListing spelled_paddedListing hRead hReadOther .taskList alike_listings⟩

end ControlClient
