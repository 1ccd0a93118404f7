import ControlClient.Listing
import ControlClient.Proofs.Envelope
import ControlClient.Proofs.Json.Documents
import ControlClient.Proofs.Number.Int64

/-!
# Listings read back

A listing in JSON is what the service could have sent: put into an envelope, it is decoded to the tasks or
recordings that were listed. The printer writes the members of an object in the order of the fields, and the
reader keeps them in the order of their keys; the fields are looked up by their keys, so this makes no
difference. That no item is lost or changed is an induction on the list, for any items that are read back one
by one (`readAll_written`).

## Main results

* `ofValue_task`, `ofValue_recording`: what is written of one item is read as the item.
* `decode_listing`: a listing in an envelope is decoded to what was listed.
-/

namespace ControlClient

open Json
open Text.Utf8 (encode encode_append)

/-! ## Items -/

section Items

private theorem readOptional_name (type : TaskType) :
    readOptional Value.asTaskType (some (.string type.documentName)) = .ok (some type) := by
  rw [readOptional, Value.asTaskType]
  simp only [TaskType.ofName?_documentName]
  rfl

private theorem readOptional_size (size : Int64) :
    readOptional Value.asInt64 (some (.integer size.toInt)) = .ok (some size) := by
  rw [readOptional, Value.asInt64]
  simp only [Number.int64?_toInt]
  rfl

/-- **What is written of a task is read as the task.** -/
theorem ofValue_task (t : Task) : Task.ofValue t.toValue.sorted = .ok t := by
  have hSorted : t.toValue.sorted = .object [("Enabled", .bool t.enabled), ("Name", .string t.name),
      ("Type", .string t.type.documentName)] := rfl
  rw [hSorted]
  show (readOptional Value.asTaskType (some (.string t.type.documentName)) >>= fun type? => _) = _
  rw [readOptional_name]
  rfl

/-- **What is written of a recording is read as the recording.** -/
theorem ofValue_recording (r : Recording) : Recording.ofValue r.toValue.sorted = .ok r := by
  have hSorted : r.toValue.sorted = .object [("ID", .string r.id), ("Size", .integer r.size.toInt),
      ("Type", .string r.type.documentName)] := rfl
  rw [hSorted]
  show (readOptional Value.asInt64 (some (.integer r.size.toInt)) >>= fun size? =>
    readOptional Value.asTaskType (some (.string r.type.documentName)) >>= fun type? => _) = _
  rw [readOptional_size, readOptional_name]
  rfl

theorem fits_task (t : Task) {room : Nat} (hRoom : 0 < room) : t.toValue.Fits room :=
  ⟨hRoom, trivial, trivial, trivial, trivial⟩

theorem fits_recording (r : Recording) {room : Nat} (hRoom : 0 < room) : r.toValue.Fits room := by
  have hHigh : r.size.toInt < 0x10000000000000000 := Int.lt_trans r.size.toInt_lt (by decide)
  exact ⟨hRoom, trivial, trivial, ⟨r.size.le_toInt, hHigh⟩, trivial⟩

end Items

/-! ## Lists of items -/

section Lists

variable {α : Type} {write : α → Value} {readItem : Value → Except ShapeFault α}

/-- Items that are read back one by one are read back as a list. -/
theorem readAll_written (h : ∀ a, readItem (write a).sorted = .ok a) (as : List α) :
    readAll readItem (sortedItems (as.map write)) = .ok as := by
  induction as with
  | nil => rfl
  | cons a rest ih =>
      rw [List.map_cons, sortedItems, readAll, h, ih]
      rfl

theorem itemsFit_written {room : Nat} (h : ∀ a, (write a).Fits room) (as : List α) :
    ItemsFit room (as.map write) := by
  induction as with
  | nil => trivial
  | cons a rest ih => exact ⟨h a, ih⟩

/-- A list of written items is the one field of an object. -/
theorem soleField_written (h : ∀ a, readItem (write a).sorted = .ok a) (as : List α)
    (name field : String) (members : Members) :
    soleField name field (Value.asList readItem)
      (.object (insert field (Value.array (as.map write)).sorted members)) = .ok (some as) := by
  have hList : Value.asList readItem (Value.array (as.map write)).sorted = .ok as :=
    readAll_written h as
  show readOptional _ (get? field (insert field _ members)) = _
  rw [get?_insert_self, readOptional, hList]
  rfl

end Lists

/-! ## Envelopes -/

namespace Listing

variable {blanks : List UInt8}

private theorem decode_object {α : Type} [Payload α] {body : List UInt8} {members : Members} {a : α}
    (hRead : Json.read body = .ok (.object members))
    (hError : Envelope.reportedError? (.object members) = none)
    (hPayload : Payload.ofValue (.object members) = (.ok a : Except ShapeFault α)) :
    Envelope.decode body = (.ok a : Except EnvelopeFault α) := by
  rw [Envelope.decode_of_object hRead hError, hPayload]
  rfl

/-- A listing as the last member of an object, whose text ends in the member's key. -/
private theorem read_listing (front key : String) (head : List UInt8) {members : Members} {s : State}
    {v : Value} (hFront : encode front.toList = head ++ encode (quote key ++ [':']))
    (hHead : State.start.Reads head s)
    (hKey : State.ExpectsKey s members []) (hFits : v.Fits (depthLimit - 1))
    (hBlanks : ∀ byte ∈ blanks, isSpace byte = true) :
    Json.read (Text.Utf8.bytes (front ++ v.text) ++ blanks ++ Text.Utf8.bytes "\x7d") =
      .ok (.object (insert key v.sorted members)) := by
  have hText : Text.Utf8.bytes (front ++ v.text) ++ blanks ++ Text.Utf8.bytes "\x7d" =
      head ++ (encode (quote key ++ [':']) ++ (encode (print 0 v) ++ (blanks ++ [125]))) := by
    show encode (front ++ v.text).toList ++ blanks ++ [125] = _
    rw [String.toList_append, encode_append, hFront, Value.text, String.toList_ofList]
    simp only [List.append_assoc]
  rw [hText]
  exact read_lastMember hHead hKey key hFits hBlanks

/-- The start of an object whose first member is an error without characters. -/
private theorem reads_noError :
    State.start.Reads (123 :: (encode (quote "Error" ++ [':']) ++ (encode (quote "") ++ [44])))
      ⟨.objectKey [("Error", .string "")], []⟩ := by
  have hError : State.Reads ⟨.value, [.object [] "Error"]⟩ (encode (quote "") ++ [44])
      ⟨.objectKey [("Error", .string "")], []⟩ :=
    (State.reads_string (.value _) (spells_quote "")).append (.cons (fun _ => rfl) .nil)
  have hMember := State.reads_key (.first []) isBlank_nil (spells_quote "Error") isBlank_nil hError
  apply State.Reads.cons (t := ⟨.objectStart, []⟩) fun _ => rfl
  rwa [encode_append, List.append_assoc]

/-- **A listing in an envelope is decoded to what was listed**, with or without blanks behind the listing,
such as the end of its last line. -/
theorem decode_listing [Text.Measure] (hBlanks : ∀ byte ∈ blanks, isSpace byte = true) :
    (∀ ts : List Task,
      Envelope.decode (Text.Utf8.bytes ("\x7b\"Error\":\"\",\"Tasks\":" ++ tasks .json ts) ++ blanks ++
        Text.Utf8.bytes "\x7d") = (.ok ⟨ts⟩ : Except EnvelopeFault TaskList)) ∧
    ∀ rs : List Recording,
      Envelope.decode (Text.Utf8.bytes ("\x7b\"Recordings\":" ++ recordings .json rs) ++ blanks ++
        Text.Utf8.bytes "\x7d") = (.ok ⟨rs⟩ : Except EnvelopeFault RecordingList) := by
  constructor
  · intro ts
    have hFits : (Value.array (ts.map Task.toValue)).Fits (depthLimit - 1) :=
      ⟨by decide, itemsFit_written (fun t => fits_task t (by decide)) ts⟩
    have hRead := read_listing "\x7b\"Error\":\"\",\"Tasks\":" "Tasks" _ (by decide) reads_noError
      (.next _ _) hFits hBlanks
    apply decode_object hRead rfl
    show (soleField "TaskList" "Tasks" (Value.asList Task.ofValue) _).map _ = _
    rw [soleField_written ofValue_task]
    rfl
  · intro rs
    have hFits : (Value.array (rs.map Recording.toValue)).Fits (depthLimit - 1) :=
      ⟨by decide, itemsFit_written (fun r => fits_recording r (by decide)) rs⟩
    have hRead := read_listing "\x7b\"Recordings\":" "Recordings" [123] (by decide)
      (.cons (fun _ => rfl) .nil) (.first _) hFits hBlanks
    apply decode_object hRead rfl
    show (soleField "RecordingList" "Recordings" (Value.asList Recording.ofValue) _).map _ = _
    rw [soleField_written ofValue_recording]
    rfl

section

attribute [local instance] Text.Measure.byCharacters

/-- Names that have to be escaped, one without characters, and the least size, each listing with the end of
its last line. -/
theorem decode_listing_escaped :
    (∀ byte ∈ [10], isSpace byte = true) ∧
    Envelope.decode (Text.Utf8.bytes ("\x7b\"Error\":\"\",\"Tasks\":" ++
        tasks .json [⟨"a\"\\\n\x01é😀", .stream, true⟩, ⟨"", .batch, false⟩]) ++ [10] ++
          Text.Utf8.bytes "\x7d") =
      (.ok ⟨[⟨"a\"\\\n\x01é😀", .stream, true⟩, ⟨"", .batch, false⟩]⟩ : Except EnvelopeFault TaskList) ∧
    Envelope.decode (Text.Utf8.bytes ("\x7b\"Recordings\":" ++
        recordings .json [⟨"r", .batch, Int64.minValue⟩]) ++ [10] ++ Text.Utf8.bytes "\x7d") =
      (.ok ⟨[⟨"r", .batch, Int64.minValue⟩]⟩ : Except EnvelopeFault RecordingList) := by
  have hLineEnd : ∀ byte ∈ [10], isSpace byte = true := List.forall_mem_singleton.2 rfl
  exact ⟨hLineEnd, (decode_listing hLineEnd).1 _, (decode_listing hLineEnd).2 _⟩

end

end Listing

end ControlClient
