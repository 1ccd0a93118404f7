import ControlClient.Proofs.Envelope
import ControlClient.Proofs.Number.Int64
import ControlClient.Proofs.Text.Split

/-!
# Which documents are listings

What documents denote tasks, recordings and lists of them is said here by the form of the documents, for each
part by a relation between documents and values. The reader finds exactly what the relations relate. Tasks and
recordings have the same form: a name, a type, and a third part that may be left out, as the members of an
object in any order or as the items of an array. A list is read whole or not at all.

## Main results

* `asTaskType_eq_ok_iff`: what documents denote a task type.
* `ofValue_task_iff`, `ofValue_recording_iff`: what documents denote a task or a recording.
* `decode_listed`: what an answer without an error is decoded to as a list.
-/

namespace ControlClient

open Json

/-! ## The form -/

/-- What documents denote a task type: its two names and its code. -/
inductive DenotesType : Value → TaskType → Prop
  | streamer : DenotesType (.string "streamer") .stream
  | stream : DenotesType (.string "stream") .stream
  | zero : DenotesType (.integer 0) .stream
  | batcher : DenotesType (.string "batcher") .batch
  | batch : DenotesType (.string "batch") .batch
  | one : DenotesType (.integer 1) .batch

section Entries

variable {α β : Type} (key last : String) (write : β → Value) (absent : β) (make : String → TaskType → β → α)

/-- What documents denote an entry of a listing that is made of a name, a type and a last part: an object with
such members, of which the last may be absent, or an array of two or three items in this order. -/
inductive DenotesEntry : Value → α → Prop
  | object {members : Members} {name : String} {v : Value} {type : TaskType} {part : β} :
      get? key members = some (.string name) → get? "Type" members = some v → DenotesType v type →
      (get? last members = none ∧ part = absent ∨ get? last members = some (write part)) →
      DenotesEntry (.object members) (make name type part)
  | pair {name : String} {v : Value} {type : TaskType} : DenotesType v type →
      DenotesEntry (.array [.string name, v]) (make name type absent)
  | triple {name : String} {v : Value} {type : TaskType} {part : β} : DenotesType v type →
      DenotesEntry (.array [.string name, v, write part]) (make name type part)

end Entries

/-- What documents denote a task, which is not enabled if it does not say so. -/
def DenotesTask : Value → Task → Prop := DenotesEntry "Name" "Enabled" Value.bool false Task.mk

/-- What documents denote a recording, which is empty if it does not say its size. A size is an integer of
64 bits. -/
def DenotesRecording : Value → Recording → Prop :=
  DenotesEntry "ID" "Size" (fun size : Int64 => .integer size.toInt) 0 Recording.mk

/-- What a member of an answer denotes as a list: no items if it is absent or `null`, and otherwise an array
has one item after another. -/
inductive DenotesList {α : Type} (DenotesItem : Value → α → Prop) : Option Value → List α → Prop
  | absent : DenotesList DenotesItem none []
  | null : DenotesList DenotesItem (some .null) []
  | array {items : List Value} {as : List α} : List.Forall₂ DenotesItem items as →
      DenotesList DenotesItem (some (.array items)) as

/-! ## Parts -/

theorem asString_eq_ok_iff {v : Value} {s : String} : v.asString = .ok s ↔ v = .string s := by
  cases v <;> simp [Value.asString]

theorem asBool_eq_ok_iff {v : Value} {b : Bool} : v.asBool = .ok b ↔ v = .bool b := by
  cases v <;> simp [Value.asBool]

theorem asInt64_eq_ok_iff {v : Value} {n : Int64} : v.asInt64 = .ok n ↔ v = .integer n.toInt := by
  cases v with
  | integer i =>
      rw [Value.integer.injEq, ← Number.int64?_eq_some_iff, Value.asInt64]
      cases Number.int64? i <;> simp
  | _ => simp [Value.asInt64]

theorem typeOfCode?_eq_some_iff {code : Int64} {t : TaskType} :
    typeOfCode? code = some t ↔ code = 0 ∧ t = .stream ∨ code = 1 ∧ t = .batch := by
  unfold typeOfCode?
  split
  · next hZero => simp [hZero, eq_comm]
  · next hZero =>
      split
      · next hOne => simp [hOne, eq_comm]
      · next hOne => simp [hZero, hOne]

/-- **What documents denote a task type.** -/
theorem asTaskType_eq_ok_iff {v : Value} {t : TaskType} : v.asTaskType = .ok t ↔ DenotesType v t := by
  constructor
  · intro h
    cases v with
    | string s =>
        rw [Value.asTaskType] at h
        split at h
        · next hName =>
            cases h
            rcases TaskType.ofName?_eq_some_iff.1 hName with rfl | rfl
            · cases t <;> constructor
            · cases t <;> constructor
        · cases h
    | integer n =>
        rw [Value.asTaskType] at h
        split at h
        · next code hCode =>
            split at h
            · next hType =>
                cases h
                rw [Number.int64?_eq_some_iff.1 hCode]
                rcases typeOfCode?_eq_some_iff.1 hType with ⟨rfl, rfl⟩ | ⟨rfl, rfl⟩ <;> constructor
            · cases h
        · cases h
    | _ => cases h
  · intro h
    cases h <;> rfl

/-! ## Entries -/

section Entries

variable {α β : Type} {readPart : Value → Except ShapeFault β} {write : β → Value} {absent : β}

private theorem readOptional_eq_ok_iff {γ : Type} {readField : Value → Except ShapeFault γ}
    {field : Option Value} {result : Option γ} :
    readOptional readField field = .ok result ↔
      field = none ∧ result = none ∨ ∃ v a, field = some v ∧ readField v = .ok a ∧ result = some a := by
  cases field with
  | none => simp [readOptional, eq_comm]
  | some v =>
      rw [readOptional, map_eq_ok_iff]
      simp [eq_comm]

/-- A field that must be there is found and read. -/
private theorem required_iff {γ : Type} (readField : Value → Except ShapeFault γ) (name : String)
    {field : Option Value} {a : γ} :
    (∃ result, readOptional readField field = .ok result ∧ required name result = .ok a) ↔
      ∃ v, field = some v ∧ readField v = .ok a := by
  simp only [readOptional_eq_ok_iff]
  constructor
  · rintro ⟨result, ⟨-, rfl⟩ | ⟨v, b, hField, hRead, rfl⟩, hRequired⟩
    · cases hRequired
    · cases hRequired
      exact ⟨v, hField, hRead⟩
  · rintro ⟨v, hField, hRead⟩
    exact ⟨some a, .inr ⟨v, a, hField, hRead, rfl⟩, rfl⟩

/-- A part that may be left out is absent, or what is written of it. -/
private theorem optional_iff (hPart : ∀ v b, readPart v = .ok b ↔ v = write b) {field : Option Value}
    {b : β} :
    (∃ result, readOptional readPart field = .ok result ∧ result.getD absent = b) ↔
      field = none ∧ b = absent ∨ field = some (write b) := by
  simp only [readOptional_eq_ok_iff]
  constructor
  · rintro ⟨result, ⟨hField, rfl⟩ | ⟨v, c, hField, hRead, rfl⟩, rfl⟩
    · exact .inl ⟨hField, rfl⟩
    · rw [hField, (hPart v c).1 hRead]
      exact .inr rfl
  · rintro (⟨hField, rfl⟩ | hField)
    · exact ⟨none, .inl ⟨hField, rfl⟩, rfl⟩
    · exact ⟨some b, .inr ⟨write b, b, hField, (hPart _ _).2 rfl, rfl⟩, rfl⟩

private theorem itemAt_eq_ok_iff {γ : Type} {readItem : Value → Except ShapeFault γ} {items : List Value}
    {i : Nat} {expected : String} {a : γ} :
    itemAt readItem items i expected = .ok a ↔ ∃ v, items[i]? = some v ∧ readItem v = .ok a := by
  unfold itemAt
  cases items[i]? <;> simp

/-- The arrays that are entries, item by item. -/
private theorem denotesEntry_array_iff {key last : String} {make : String → TaskType → β → α}
    {items : List Value} {a : α} :
    DenotesEntry key last write absent make (.array items) a ↔
      ∃ name v type part, a = make name type part ∧ items[0]? = some (.string name) ∧
        items[1]? = some v ∧ DenotesType v type ∧
        (items[2]? = none ∧ part = absent ∨ items[2]? = some (write part)) ∧ items.length ≤ 3 := by
  constructor
  · intro h
    cases h with
    | pair hType => exact ⟨_, _, _, _, rfl, rfl, rfl, hType, .inl ⟨rfl, rfl⟩, by simp⟩
    | triple hType => exact ⟨_, _, _, _, rfl, rfl, rfl, hType, .inr rfl, by simp⟩
  · rintro ⟨name, v, type, part, rfl, hName, hSecond, hType, hLast, hLength⟩
    match items with
    | [] => cases hName
    | [_] => cases hSecond
    | [_, _] =>
        cases hName
        cases hSecond
        rcases hLast with ⟨-, rfl⟩ | hPresent
        · exact .pair hType
        · cases hPresent
    | [_, _, _] =>
        cases hName
        cases hSecond
        rcases hLast with ⟨hAbsent, -⟩ | hPresent
        · cases hAbsent
        · cases hPresent
          exact .triple hType
    | _ :: _ :: _ :: _ :: _ =>
        simp only [List.length_cons] at hLength
        omega

/-- An entry that is written as an array. -/
private theorem ofItems_iff {key last : String} {make : String → TaskType → β → α} (expected : String)
    (hPart : ∀ v b, readPart v = .ok b ↔ v = write b) (items : List Value) (a : α) :
    (do
      let name ← itemAt Value.asString items 0 expected
      let type ← itemAt Value.asTaskType items 1 expected
      let part? ← readOptional readPart items[2]?
      atMost 3 items
      return make name type (part?.getD absent)) = Except.ok (ε := ShapeFault) a ↔
    DenotesEntry key last write absent make (.array items) a := by
  simp only [bind_eq_ok_iff, itemAt_eq_ok_iff, asString_eq_ok_iff, asTaskType_eq_ok_iff, atMost_iff,
    denotesEntry_array_iff, ← optional_iff hPart]
  constructor
  · rintro ⟨name, ⟨_, hName, rfl⟩, type, ⟨v, hSecond, hType⟩, part?, hLast, -, hLength, hMade⟩
    cases hMade
    exact ⟨name, v, type, _, rfl, hName, hSecond, hType, ⟨part?, hLast, rfl⟩, hLength⟩
  · rintro ⟨name, v, type, _, rfl, hName, hSecond, hType, ⟨part?, hLast, rfl⟩, hLength⟩
    exact ⟨name, ⟨_, hName, rfl⟩, type, ⟨v, hSecond, hType⟩, part?, hLast, (), hLength, rfl⟩

/-- The objects that are entries, member by member. -/
private theorem denotesEntry_object_iff {key last : String} {make : String → TaskType → β → α}
    {members : Members} {a : α} :
    DenotesEntry key last write absent make (.object members) a ↔
      ∃ name type part, a = make name type part ∧
        (∃ v, get? key members = some v ∧ v.asString = .ok name) ∧
        (∃ v, get? "Type" members = some v ∧ v.asTaskType = .ok type) ∧
        (get? last members = none ∧ part = absent ∨ get? last members = some (write part)) := by
  simp only [asString_eq_ok_iff, asTaskType_eq_ok_iff]
  constructor
  · intro h
    cases h with
    | object hName hType hDenotes hLast =>
        exact ⟨_, _, _, rfl, ⟨_, hName, rfl⟩, ⟨_, hType, hDenotes⟩, hLast⟩
  · rintro ⟨name, type, part, rfl, ⟨_, hName, rfl⟩, ⟨v, hType, hDenotes⟩, hLast⟩
    exact .object hName hType hDenotes hLast

end Entries

private theorem ofMembers_task_iff (members : Members) (t : Task) :
    Task.ofMembers members = .ok t ↔ DenotesTask (.object members) t := by
  unfold Task.ofMembers DenotesTask
  rw [denotesEntry_object_iff]
  simp only [bind_eq_ok_iff, ← required_iff Value.asString "Name", ← required_iff Value.asTaskType "Type",
    ← optional_iff fun v b => asBool_eq_ok_iff]
  constructor
  · rintro ⟨enabled?, hEnabled, name?, hName, type?, hType, name, hNamed, type, hTyped, hMade⟩
    cases hMade
    exact ⟨name, type, _, rfl, ⟨name?, hName, hNamed⟩, ⟨type?, hType, hTyped⟩, enabled?, hEnabled, rfl⟩
  · rintro ⟨name, type, _, rfl, ⟨name?, hName, hNamed⟩, ⟨type?, hType, hTyped⟩, enabled?, hEnabled, rfl⟩
    exact ⟨enabled?, hEnabled, name?, hName, type?, hType, name, hNamed, type, hTyped, rfl⟩

private theorem ofMembers_recording_iff (members : Members) (r : Recording) :
    Recording.ofMembers members = .ok r ↔ DenotesRecording (.object members) r := by
  unfold Recording.ofMembers DenotesRecording
  rw [denotesEntry_object_iff]
  simp only [bind_eq_ok_iff, ← required_iff Value.asString "ID", ← required_iff Value.asTaskType "Type",
    ← optional_iff fun v b => asInt64_eq_ok_iff]
  constructor
  · rintro ⟨id?, hId, size?, hSize, type?, hType, id, hNamed, type, hTyped, hMade⟩
    cases hMade
    exact ⟨id, type, _, rfl, ⟨id?, hId, hNamed⟩, ⟨type?, hType, hTyped⟩, size?, hSize, rfl⟩
  · rintro ⟨id, type, _, rfl, ⟨id?, hId, hNamed⟩, ⟨type?, hType, hTyped⟩, size?, hSize, rfl⟩
    exact ⟨id?, hId, size?, hSize, type?, hType, id, hNamed, type, hTyped, rfl⟩

/-- **What documents denote a task.** -/
theorem ofValue_task_iff (v : Value) (t : Task) : Task.ofValue v = .ok t ↔ DenotesTask v t := by
  cases v with
  | object members => exact ofMembers_task_iff members t
  | array items => exact ofItems_iff _ (fun v b => asBool_eq_ok_iff) items t
  | _ =>
      constructor
      · intro h
        cases h
      · intro h
        cases h

/-- **What documents denote a recording.** -/
theorem ofValue_recording_iff (v : Value) (r : Recording) :
    Recording.ofValue v = .ok r ↔ DenotesRecording v r := by
  cases v with
  | object members => exact ofMembers_recording_iff members r
  | array items => exact ofItems_iff _ (fun v n => asInt64_eq_ok_iff) items r
  | _ =>
      constructor
      · intro h
        cases h
      · intro h
        cases h

/-! ## Lists -/

section Lists

variable {α : Type} {readItem : Value → Except ShapeFault α} {DenotesItem : Value → α → Prop}

theorem readAll_eq_ok_iff (hItem : ∀ v a, readItem v = .ok a ↔ DenotesItem v a) {items : List Value}
    {as : List α} : readAll readItem items = .ok as ↔ List.Forall₂ DenotesItem items as := by
  induction items generalizing as with
  | nil =>
      rw [List.forall₂_nil_left_iff]
      simp [readAll, eq_comm]
  | cons item rest ih =>
      rw [List.forall₂_cons_left_iff, readAll]
      simp only [bind_eq_ok_iff, hItem, ih]
      constructor
      · rintro ⟨a, hFirst, others, hRest, hMade⟩
        cases hMade
        exact ⟨a, others, hFirst, hRest, rfl⟩
      · rintro ⟨a, others, hFirst, hRest, rfl⟩
        exact ⟨a, hFirst, others, hRest, rfl⟩

/-- What is read of a member that is a list. -/
private theorem readList_iff (hItem : ∀ v a, readItem v = .ok a ↔ DenotesItem v a) {field : Option Value}
    {as : List α} :
    (∃ result, readOptional (Value.asList readItem) field = .ok result ∧ result.getD [] = as) ↔
      DenotesList DenotesItem field as := by
  simp only [readOptional_eq_ok_iff]
  constructor
  · rintro ⟨result, ⟨rfl, rfl⟩ | ⟨v, found, rfl, hRead, rfl⟩, rfl⟩
    · exact .absent
    · cases v with
      | null =>
          cases hRead
          exact .null
      | array items => exact .array ((readAll_eq_ok_iff hItem).1 hRead)
      | _ => cases hRead
  · intro h
    cases h with
    | absent => exact ⟨none, .inl ⟨rfl, rfl⟩, rfl⟩
    | null => exact ⟨some [], .inr ⟨_, [], rfl, rfl, rfl⟩, rfl⟩
    | array hAll => exact ⟨some as, .inr ⟨_, as, rfl, (readAll_eq_ok_iff hItem).2 hAll, rfl⟩, rfl⟩

end Lists

/-- Whether a member of an answer is a list of such items. -/
def IsListed {α : Type} (DenotesItem : Value → α → Prop) (field : Option Value) : Prop :=
  field = none ∨ field = some .null ∨
    ∃ items, field = some (.array items) ∧ ∀ item ∈ items, ∃ a, DenotesItem item a

theorem isListed_iff {α : Type} {DenotesItem : Value → α → Prop} {field : Option Value} :
    IsListed DenotesItem field ↔ ∃ as, DenotesList DenotesItem field as := by
  constructor
  · rintro (rfl | rfl | ⟨items, rfl, hAll⟩)
    · exact ⟨[], .absent⟩
    · exact ⟨[], .null⟩
    · obtain ⟨as, hItems⟩ := Text.exists_forall₂_iff.2 hAll
      exact ⟨as, .array hItems⟩
  · rintro ⟨as, h⟩
    cases h with
    | absent => exact .inl rfl
    | null => exact .inr (.inl rfl)
    | array hItems => exact .inr (.inr ⟨_, rfl, Text.exists_forall₂_iff.1 ⟨as, hItems⟩⟩)

/-- **All or nothing**: an answer is decoded to a list exactly if the member that is looked for is a list, and
then to its items in their order; any other answer is malformed. -/
structure DecodesList {α β : Type} [Payload β] (DenotesItem : Value → α → Prop) (make : List α → β)
    (field : Option Value) (body : List UInt8) : Prop where
  succeeds_iff : (∃ b : β, Envelope.decode body = .ok b) ↔ IsListed DenotesItem field
  ok_iff : ∀ as, Envelope.decode body = .ok (make as) ↔ DenotesList DenotesItem field as
  malformed : ¬IsListed DenotesItem field →
    ∃ m, (Envelope.decode body : Except EnvelopeFault β) = .error (.malformed m)

private theorem decodesList {α β : Type} [Payload β] {readItem : Value → Except ShapeFault α}
    {DenotesItem : Value → α → Prop} {make : List α → β} (hMake : ∀ as bs, make as = make bs → as = bs)
    (hItem : ∀ v a, readItem v = .ok a ↔ DenotesItem v a) {name field : String} {body : List UInt8}
    {members : Members} (hRead : Json.read body = .ok (.object members)) (hError : HasNoError members)
    (hPayload : Payload.ofValue (.object members) =
      (soleField name field (Value.asList readItem) (.object members)).map (make <| ·.getD [])) :
    DecodesList DenotesItem make (get? field members) body := by
  have hDecode := Envelope.decode_of_object (α := β) hRead
    ((reportedError?_eq_none_iff members).2 (.inl hError))
  have hField : soleField name field (Value.asList readItem) (.object members) =
      readOptional (Value.asList readItem) (get? field members) := rfl
  have hOk : ∀ b : β, Envelope.decode body = .ok b ↔
      ∃ as, DenotesList DenotesItem (get? field members) as ∧ make as = b := by
    intro b
    rw [hDecode, hPayload, hField, mapError_eq_ok_iff, map_eq_ok_iff]
    simp only [← readList_iff hItem]
    constructor
    · rintro ⟨result, hResult, hMade⟩
      exact ⟨_, ⟨result, hResult, rfl⟩, hMade⟩
    · rintro ⟨_, ⟨result, hResult, rfl⟩, hMade⟩
      exact ⟨result, hResult, hMade⟩
  have hSucceeds : (∃ b : β, Envelope.decode body = .ok b) ↔ IsListed DenotesItem (get? field members) := by
    simp only [isListed_iff, hOk]
    constructor
    · rintro ⟨b, as, hList, -⟩
      exact ⟨as, hList⟩
    · rintro ⟨as, hList⟩
      exact ⟨make as, as, hList, rfl⟩
  refine ⟨hSucceeds, ?_, ?_⟩
  · intro as
    rw [hOk]
    constructor
    · rintro ⟨bs, hList, hSame⟩
      rwa [← hMake bs as hSame]
    · intro hList
      exact ⟨as, hList, rfl⟩
  · intro hOther
    rw [← hSucceeds] at hOther
    rw [hDecode] at hOther ⊢
    cases hValue : (Payload.ofValue (.object members) : Except ShapeFault β) with
    | ok b => exact absurd ⟨b, by rw [hValue]; rfl⟩ hOther
    | error fault => exact ⟨.badShape fault, rfl⟩

/-- **What an answer without an error is decoded to as a list** of tasks, and as a list of recordings. -/
theorem decode_listed {body : List UInt8} {members : Members}
    (hRead : Json.read body = .ok (.object members)) (hError : HasNoError members) :
    DecodesList DenotesTask TaskList.mk (get? "Tasks" members) body ∧
      DecodesList DenotesRecording RecordingList.mk (get? "Recordings" members) body := by
  constructor
  · exact decodesList (fun as bs h => congrArg TaskList.tasks h) ofValue_task_iff hRead hError rfl
  · exact decodesList (fun as bs h => congrArg RecordingList.recordings h) ofValue_recording_iff hRead
      hError rfl

/-- Two tasks, an array and an object, and two recordings of which the second has a size that is no
integer. -/
theorem decode_listed_forms :
    ∃ body members,
      body = Text.Utf8.bytes ("\x7b\"Tasks\":[[\"b\",\"stream\",true],\x7b\"Type\":1,\"Name\":\"a\"\x7d]," ++
        "\"Recordings\":[[\"r\",0],[\"s\",0,null]]\x7d") ∧
      Json.read body = .ok (.object members) ∧ HasNoError members ∧
      Envelope.decode body = .ok (TaskList.mk [⟨"b", .stream, true⟩, ⟨"a", .batch, false⟩]) ∧
      ∃ m, (Envelope.decode body : Except EnvelopeFault RecordingList) = .error (.malformed m) := by
  have hRead : Json.read (Text.Utf8.bytes
        ("\x7b\"Tasks\":[[\"b\",\"stream\",true],\x7b\"Type\":1,\"Name\":\"a\"\x7d]," ++
          "\"Recordings\":[[\"r\",0],[\"s\",0,null]]\x7d")) =
      .ok (.object [
        ("Recordings", .array [.array [.string "r", .integer 0], .array [.string "s", .integer 0, .null]]),
        ("Tasks", .array [.array [.string "b", .string "stream", .bool true],
          .object [("Name", .string "a"), ("Type", .integer 1)]])]) := by rfl
  obtain ⟨hTasks, hRecordings⟩ := decode_listed hRead (.inl rfl)
  refine ⟨_, _, rfl, hRead, .inl rfl, ?_, ?_⟩
  · have hObject : DenotesTask (.object [("Name", .string "a"), ("Type", .integer 1)]) ⟨"a", .batch, false⟩ :=
      .object rfl rfl .one (.inl ⟨rfl, rfl⟩)
    exact (hTasks.ok_iff _).2 (.array (.cons (.triple .stream) (.cons hObject .nil)))
  · apply hRecordings.malformed
    rintro (hNone | hNull | ⟨items, hItems, hAll⟩)
    · cases hNone
    · cases hNull
    · cases hItems
      obtain ⟨r, hLast⟩ := hAll _ (.tail _ (.head _))
      cases hLast

end ControlClient
