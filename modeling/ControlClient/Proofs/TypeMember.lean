import ControlClient.CommandLine.Command
import ControlClient.Proofs.Catalog
import ControlClient.Proofs.Json.Alike

/-!
# The member of a task type

The entries of a listing are objects with a member `Type`. Which type an entry has depends on what this
member holds, and on nothing else; whether the answer is taken for a listing at all depends on what the
member holds, and on everything around it. The two are told apart here: an answer is a document with a
place for the member, and what it is decoded to is a condition on the place and a condition on what
stands in it (`gives_iff`). The place is free, with entries around the entry, members around the member
and members around the list.

## Main results

* `hasType_object_iff`: an entry has the type that its member denotes, if its other members are right.
* `givesType_iff`: an entry of a list is read as what it is, if the other entries are entries.
* `TypeMember.gives_iff`: which strings in a place are read as which type.
-/

namespace ControlClient

open Json

/-! ## A member in its place -/

namespace Json

variable {key other : String} {front back : List (String × Value)} {v : Value}

theorem get?_of_not_mem {members : Members} (h : key ∉ members.map Prod.fst) : get? key members = none := by
  induction members with
  | nil => rfl
  | cons member rest ih =>
      rw [List.map_cons, List.mem_cons, not_or] at h
      rw [get?, if_neg (Ne.symm h.1), ih h.2]

/-- A member is found if no member behind it has its key. -/
theorem get?_sortedMembers_self (hLast : key ∉ back.map Prod.fst) :
    get? key (sortedMembers [] (front ++ (key, v) :: back)) = some v.sorted := by
  have hBehind : get? key back.reverse = none := get?_of_not_mem (by simpa using hLast)
  rw [get?_sortedMembers, List.reverse_append, List.reverse_cons, get?_append, get?_append, hBehind]
  simp [get?]

/-- Where other keys are looked up, a member is passed over. -/
theorem get?_sortedMembers_of_ne (hOther : other ≠ key) :
    get? other (sortedMembers [] (front ++ (key, v) :: back)) =
      get? other (sortedMembers [] (front ++ back)) := by
  simp [get?_sortedMembers, get?_append, get?, Ne.symm hOther]

theorem itemsDepth_append (items more : List Value) :
    itemsDepth (items ++ more) = max (itemsDepth items) (itemsDepth more) := by
  induction items with
  | nil => simp [itemsDepth]
  | cons v rest ih => rw [List.cons_append, itemsDepth, itemsDepth, ih, Nat.max_assoc]

theorem membersDepth_append (members more : List (String × Value)) :
    membersDepth (members ++ more) = max (membersDepth members) (membersDepth more) := by
  induction members with
  | nil => simp [membersDepth]
  | cons member rest ih =>
      obtain ⟨key, v⟩ := member
      rw [List.cons_append, membersDepth, membersDepth, ih, Nat.max_assoc]

end Json

/-! ## Entries and their types -/

namespace ListKind

/-- The field of an answer that holds the list. -/
def field : ListKind → String
  | tasks => "Tasks"
  | recordings => "Recordings"

/-- Whether a document denotes an entry of a type. -/
def HasType (v : Value) (t : TaskType) : ListKind → Prop
  | tasks => ∃ task, DenotesTask v task ∧ task.type = t
  | recordings => ∃ recording, DenotesRecording v recording ∧ recording.type = t

/-- Whether the members of an entry are right, its type apart. -/
def HasRest (members : Members) : ListKind → Prop
  | tasks =>
      (∃ name, get? "Name" members = some (.string name)) ∧
        (get? "Enabled" members = none ∨ ∃ b, get? "Enabled" members = some (.bool b))
  | recordings =>
      (∃ id, get? "ID" members = some (.string id)) ∧
        (get? "Size" members = none ∨ ∃ size : Int64, get? "Size" members = some (.integer size.toInt))

/-- Whether a body is decoded to a list with an entry of a type in this place. -/
def GivesType (body : List UInt8) (place : Nat) (t : TaskType) : ListKind → Prop
  | tasks =>
      ∃ (list : TaskList) (task : Task),
        Envelope.decode body = .ok list ∧ list.tasks[place]? = some task ∧ task.type = t
  | recordings =>
      ∃ (list : RecordingList) (recording : Recording),
        Envelope.decode body = .ok list ∧ list.recordings[place]? = some recording ∧ recording.type = t

end ListKind

section Entries

variable {α β : Type} {DenotesItem : Value → α → Prop} {typeOf : α → TaskType} {t : TaskType}

/-- An object is an entry of the type that its member denotes. -/
private theorem denotesEntry_type_iff {key last : String} {write : β → Value} {absent : β}
    {make : String → TaskType → β → α} (hType : ∀ name type part, typeOf (make name type part) = type)
    {members : Members} :
    (∃ a, DenotesEntry key last write absent make (.object members) a ∧ typeOf a = t) ↔
      ((∃ name, get? key members = some (.string name)) ∧
        (get? last members = none ∨ ∃ part, get? last members = some (write part))) ∧
      ∃ v, get? "Type" members = some v ∧ DenotesType v t := by
  constructor
  · rintro ⟨a, hEntry, hTyped⟩
    cases hEntry with
    | object hName hFound hDenotes hLast =>
        rw [hType] at hTyped
        subst hTyped
        exact ⟨⟨⟨_, hName⟩, hLast.imp And.left fun h => ⟨_, h⟩⟩, _, hFound, hDenotes⟩
  · rintro ⟨⟨⟨name, hName⟩, hLast⟩, v, hFound, hDenotes⟩
    rcases hLast with hAbsent | ⟨part, hPart⟩
    · exact ⟨_, .object hName hFound hDenotes (.inl ⟨hAbsent, rfl⟩), hType _ _ _⟩
    · exact ⟨_, .object hName hFound hDenotes (.inr hPart), hType _ _ _⟩

/-- **An entry has the type that its member denotes**, if its other members are right. -/
theorem hasType_object_iff (kind : ListKind) {members : Members} :
    kind.HasType (.object members) t ↔
      kind.HasRest members ∧ ∃ v, get? "Type" members = some v ∧ DenotesType v t := by
  cases kind with
  | tasks => exact denotesEntry_type_iff fun _ _ _ => rfl
  | recordings => exact denotesEntry_type_iff fun _ _ _ => rfl

/-- What stands in a place of a list, of which all other items are right. -/
private theorem exists_forall₂_getElem?_iff {front back : List Value} {item : Value} {a : α} :
    (∃ as, List.Forall₂ DenotesItem (front ++ item :: back) as ∧ as[front.length]? = some a) ↔
      (∀ other ∈ front ++ back, ∃ b, DenotesItem other b) ∧ DenotesItem item a := by
  induction front with
  | nil =>
      simp only [List.nil_append, List.length_nil, List.forall₂_cons_left_iff]
      rw [← Text.exists_forall₂_iff]
      constructor
      · rintro ⟨_, ⟨b, bs, hItem, hBack, rfl⟩, hFirst⟩
        cases hFirst
        exact ⟨⟨bs, hBack⟩, hItem⟩
      · rintro ⟨⟨bs, hBack⟩, hItem⟩
        exact ⟨a :: bs, ⟨a, bs, hItem, hBack, rfl⟩, rfl⟩
  | cons other rest ih =>
      simp only [List.cons_append, List.length_cons, List.forall₂_cons_left_iff]
      rw [List.forall_mem_cons, and_assoc, ← ih]
      constructor
      · rintro ⟨_, ⟨b, bs, hOther, hRest, rfl⟩, hPlace⟩
        exact ⟨⟨b, hOther⟩, bs, hRest, hPlace⟩
      · rintro ⟨⟨b, hOther⟩, bs, hRest, hPlace⟩
        exact ⟨b :: bs, ⟨b, bs, hOther, hRest, rfl⟩, hPlace⟩

/-- What an answer is decoded to whose list is an array. -/
private theorem decode_items_iff [Payload β] {readItem : Value → Except ShapeFault α} (make : List α → β)
    (hItem : ∀ v a, readItem v = .ok a ↔ DenotesItem v a) {name field : String} {body : List UInt8}
    {members : Members} {items : List Value} (hRead : Json.read body = .ok (.object members))
    (hList : get? field members = some (.array items))
    (hPayload : Payload.ofValue (.object members) =
      (soleField name field (Value.asList readItem) (.object members)).map (make <| ·.getD []))
    {list : β} :
    Envelope.decode body = .ok list ↔
      Envelope.reportedError? (.object members) = none ∧
        ∃ as, List.Forall₂ DenotesItem items as ∧ make as = list := by
  have hField : soleField name field (Value.asList readItem) (.object members) =
      (readAll readItem items).map some := by
    show readOptional _ (get? field members) = _
    rw [hList]
    rfl
  rw [Envelope.decode_of_read hRead, Envelope.payload_of_ne_null (by simp), hPayload, hField]
  cases Envelope.reportedError? (.object members) with
  | some message => simp
  | none =>
      simp only [mapError_eq_ok_iff, map_eq_ok_iff, readAll_eq_ok_iff hItem]
      constructor
      · rintro ⟨_, ⟨as, hItems, rfl⟩, hMade⟩
        exact ⟨trivial, as, hItems, hMade⟩
      · rintro ⟨-, as, hItems, hMade⟩
        exact ⟨_, ⟨as, hItems, rfl⟩, hMade⟩

/-- The type of one entry of a list that is decoded. -/
private theorem exists_entry_iff [Payload β] {make : List α → β} (entries : β → List α) {body : List UInt8}
    {members : Members} {front back : List Value} {item : Value}
    (hEntries : ∀ as, entries (make as) = as)
    (hDecode : ∀ {list : β}, Envelope.decode body = .ok list ↔
      Envelope.reportedError? (.object members) = none ∧
        ∃ as, List.Forall₂ DenotesItem (front ++ item :: back) as ∧ make as = list) :
    (∃ (list : β) (a : α),
        Envelope.decode body = .ok list ∧ (entries list)[front.length]? = some a ∧ typeOf a = t) ↔
      Envelope.reportedError? (.object members) = none ∧
        (∀ other ∈ front ++ back, ∃ u a, DenotesItem other a ∧ typeOf a = u) ∧
        ∃ a, DenotesItem item a ∧ typeOf a = t := by
  simp only [hDecode]
  constructor
  · rintro ⟨_, a, ⟨hError, as, hItems, rfl⟩, hPlace, hTyped⟩
    rw [hEntries] at hPlace
    obtain ⟨hOthers, hItem⟩ := exists_forall₂_getElem?_iff.1 ⟨as, hItems, hPlace⟩
    refine ⟨hError, fun other hMem => ?_, a, hItem, hTyped⟩
    obtain ⟨b, hOther⟩ := hOthers other hMem
    exact ⟨_, b, hOther, rfl⟩
  · rintro ⟨hError, hOthers, a, hItem, hTyped⟩
    have hAll : ∀ other ∈ front ++ back, ∃ b, DenotesItem other b := fun other hMem =>
      let ⟨_, b, hOther, _⟩ := hOthers other hMem
      ⟨b, hOther⟩
    obtain ⟨as, hItems, hPlace⟩ := exists_forall₂_getElem?_iff.2 ⟨hAll, hItem⟩
    exact ⟨_, a, ⟨hError, as, hItems, rfl⟩, by rwa [hEntries], hTyped⟩

/-- **An entry of a list is read as what it is**, if all other entries are entries and the answer reports no
error. -/
theorem givesType_iff (kind : ListKind) {body : List UInt8} {members : Members} {front back : List Value}
    {item : Value} (hRead : Json.read body = .ok (.object members))
    (hList : get? kind.field members = some (.array (front ++ item :: back))) :
    kind.GivesType body front.length t ↔
      Envelope.reportedError? (.object members) = none ∧
        (∀ other ∈ front ++ back, ∃ u, kind.HasType other u) ∧ kind.HasType item t := by
  cases kind with
  | tasks =>
      exact exists_entry_iff TaskList.tasks (fun _ => rfl)
        (decode_items_iff TaskList.mk ofValue_task_iff hRead hList rfl)
  | recordings =>
      exact exists_entry_iff RecordingList.recordings (fun _ => rfl)
        (decode_items_iff RecordingList.mk ofValue_recording_iff hRead hList rfl)

/-- What is decoded as a list with an entry is a document. -/
theorem exists_read_of_givesType {kind : ListKind} {body : List UInt8} {place : Nat}
    (h : kind.GivesType body place t) : ∃ v, Json.read body = .ok v := by
  by_contra hNone
  have hAbsent : ∀ {γ : Type} [Payload γ] {a : γ}, Envelope.decode body = .ok a → a = Payload.absent := by
    intro γ _ a hDecode
    unfold Envelope.decode at hDecode
    split at hDecode
    · exact (Except.ok.inj hDecode).symm
    · split at hDecode
      · next v hRead => exact absurd ⟨v, hRead⟩ hNone
      · cases hDecode
  cases kind with
  | tasks =>
      obtain ⟨list, task, hDecode, hPlace, -⟩ := h
      rw [hAbsent hDecode] at hPlace
      cases hPlace
  | recordings =>
      obtain ⟨list, recording, hDecode, hPlace, -⟩ := h
      rw [hAbsent hDecode] at hPlace
      cases hPlace

end Entries

/-- The strings that denote a task type. -/
theorem denotesType_string_iff {s : String} {t : TaskType} :
    DenotesType (.string s) t ↔ TaskType.ofName? s = some t := by
  rw [← asTaskType_eq_ok_iff, Value.asTaskType]
  cases TaskType.ofName? s <;> simp

/-! ## The member in its place -/

/-- The place of a member `Type` in an answer: what stands around the list, around the entry in the list,
and around the member in the entry. No later member takes the place of one on the way to it. -/
structure TypeMember (kind : ListKind) where
  listFront : List (String × Value)
  listBack : List (String × Value)
  entryFront : List Value
  entryBack : List Value
  front : List (String × Value)
  back : List (String × Value)
  list_last : kind.field ∉ listBack.map Prod.fst
  last : "Type" ∉ back.map Prod.fst

namespace TypeMember

variable {kind : ListKind} (p : TypeMember kind)

/-- The entry whose member holds this. -/
def entry (v : Value) : Value := .object (p.front ++ ("Type", v) :: p.back)

/-- The answer in which the member holds this. -/
def answer (v : Value) : Value :=
  .object (p.listFront ++ (kind.field, .array (p.entryFront ++ p.entry v :: p.entryBack)) :: p.listBack)

/-- Whether the entry has a type in the list to which a body is decoded. -/
def Gives (body : List UInt8) (t : TaskType) : Prop := kind.GivesType body p.entryFront.length t

/-- Whether with some name in the place a body is decoded to a list in which the entry has a type. -/
def IsPlace : Prop :=
  ∃ name body t, (p.answer (.string name)).Spelled body ∧ p.Gives body t

/-- Whether all that stands around the member is right. -/
structure Fits : Prop where
  depth : (p.answer .null).depth ≤ depthLimit
  error : Envelope.reportedError? (p.answer .null).sorted = none
  entries : ∀ other ∈ p.entryFront ++ p.entryBack, ∃ u, kind.HasType other.sorted u
  rest : kind.HasRest (sortedMembers [] (p.front ++ p.back))

theorem depth_answer (s : String) : (p.answer (.string s)).depth = (p.answer .null).depth := by
  simp only [answer, entry, Value.depth, membersDepth_append, membersDepth, itemsDepth_append, itemsDepth]

theorem reportedError?_answer (v : Value) :
    Envelope.reportedError? (p.answer v).sorted = Envelope.reportedError? (p.answer .null).sorted := by
  have hOther : "Error" ≠ kind.field := by cases kind <;> decide
  simp only [answer, Value.sorted, Envelope.reportedError?, Value.member?,
    get?_sortedMembers_of_ne hOther]

theorem hasRest_sortedMembers (v : Value) :
    kind.HasRest (sortedMembers [] (p.front ++ ("Type", v) :: p.back)) ↔
      kind.HasRest (sortedMembers [] (p.front ++ p.back)) := by
  cases kind <;> simp [ListKind.HasRest, get?_sortedMembers_of_ne]

theorem hasType_entry_iff {s : String} {t : TaskType} :
    kind.HasType (p.entry (.string s)).sorted t ↔
      kind.HasRest (sortedMembers [] (p.front ++ p.back)) ∧ TaskType.ofName? s = some t := by
  rw [entry, Value.sorted, hasType_object_iff, hasRest_sortedMembers, get?_sortedMembers_self p.last,
    ← denotesType_string_iff]
  simp [Value.sorted]

/-- What a body is decoded to that spells the answer, if it is read. -/
theorem gives_of_read {s : String} {body : List UInt8} {t : TaskType}
    (hRead : Json.read body = .ok (p.answer (.string s)).sorted) :
    p.Gives body t ↔ Envelope.reportedError? (p.answer .null).sorted = none ∧
      (∀ other ∈ p.entryFront ++ p.entryBack, ∃ u, kind.HasType other.sorted u) ∧
      kind.HasType (p.entry (.string s)).sorted t := by
  have hList : get? kind.field (sortedMembers [] (p.listFront ++ (kind.field,
      .array (p.entryFront ++ p.entry (.string s) :: p.entryBack)) :: p.listBack)) =
      some (.array (p.entryFront.map Value.sorted ++
        (p.entry (.string s)).sorted :: p.entryBack.map Value.sorted)) := by
    rw [get?_sortedMembers_self p.list_last, Value.sorted, sortedItems_eq, List.map_append, List.map_cons]
  have hGives := givesType_iff kind (t := t) hRead hList
  rw [List.length_map, ← List.map_append, List.forall_mem_map] at hGives
  rw [Gives, hGives, ← p.reportedError?_answer (.string s)]
  rfl

/-- **Which strings in the place are read as which type**, however they are spelled. -/
theorem gives_iff {s : String} {body : List UInt8} (hSpelled : (p.answer (.string s)).Spelled body)
    {t : TaskType} : p.Gives body t ↔ p.Fits ∧ TaskType.ofName? s = some t := by
  constructor
  · intro h
    obtain ⟨v, hRead⟩ := exists_read_of_givesType h
    obtain ⟨hDepth, rfl⟩ := (read_spelled_iff hSpelled).1 hRead
    obtain ⟨hError, hOthers, hEntry⟩ := (p.gives_of_read hRead).1 h
    obtain ⟨hRest, hName⟩ := p.hasType_entry_iff.1 hEntry
    exact ⟨⟨by rwa [← p.depth_answer s], hError, hOthers, hRest⟩, hName⟩
  · rintro ⟨hFits, hName⟩
    have hRead := (read_spelled_iff hSpelled).2 ⟨by rw [p.depth_answer]; exact hFits.depth, rfl⟩
    exact (p.gives_of_read hRead).2 ⟨hFits.error, hFits.entries, p.hasType_entry_iff.2 ⟨hFits.rest, hName⟩⟩

/-- In a place for a name of a type, a string is read as the type it is a name of. -/
theorem gives_iff_ofName? {s : String} {body : List UInt8} (h : p.IsPlace)
    (hSpelled : (p.answer (.string s)).Spelled body) {t : TaskType} :
    p.Gives body t ↔ TaskType.ofName? s = some t := by
  obtain ⟨name, other, u, hOther, hGives⟩ := h
  obtain ⟨hFits, -⟩ := (p.gives_iff hOther).1 hGives
  rw [p.gives_iff hSpelled]
  exact and_iff_right hFits

end TypeMember

end ControlClient
