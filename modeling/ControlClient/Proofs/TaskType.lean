import ControlClient.Listing
import ControlClient.Proofs.CommandLine.TypeOption
import ControlClient.Proofs.Listing
import ControlClient.Proofs.TypeMember
import ControlClient.Request

/-!
# Readers of task types

A task type is read in three places, each with a table of its own: by its name, as the value of an
option, and as the member of an entry, where the string may be spelled with any escapes. It is written
in three as well: as its name, in the query of a request, and in a listing in JSON. The readers agree on
every string, and each takes what is written anywhere for the type that was written.

## Main results

* `isReadAs_iff`: a name of a type is read as the type wherever types are read.
* `readers_agree`: all readers take the same strings for the same types, and take what is written.
-/

namespace ControlClient.TaskType

open Json

/-! ## Reading -/

/-- Whether a string is read as a type wherever types are read: as a name, as the value of the option in any
command line that has a place for it, and in any place for it in an answer, however it is spelled there. -/
structure IsReadAs (s : String) (t : TaskType) : Prop where
  name : ofName? s = some t
  option : ∀ env before after, CommandLine.IsTypePlace env before after →
    CommandLine.TakesType env before after s t
  member : ∀ (kind : ListKind) (p : TypeMember kind), p.IsPlace →
    ∀ body, (p.answer (.string s)).Spelled body → p.Gives body t

theorem takesType_iff_ofName? {env : CommandLine.Environment} {before after : List CommandLine.Word}
    (h : CommandLine.IsTypePlace env before after) {s : String} {t : TaskType} :
    CommandLine.TakesType env before after s t ↔ ofName? s = some t := by
  rw [CommandLine.takesType_iff h, ofChoice?_eq_ofName?]

/-- **A name of a type is read as the type** wherever types are read. -/
theorem isReadAs_iff {s : String} {t : TaskType} : IsReadAs s t ↔ ofName? s = some t := by
  constructor
  · exact IsReadAs.name
  · intro hName
    exact ⟨hName, fun env before after hPlace => (takesType_iff_ofName? hPlace).2 hName,
      fun kind p hPlace body hSpelled => (p.gives_iff_ofName? hPlace hSpelled).2 hName⟩

/-! ## Writing -/

/-- Whether what a request gives for a key is read as a type. -/
def IsSent (o : Operation) (key : String) (t : TaskType) : Prop :=
  ∃ s, o.request.pairs.lookup key = some s ∧ IsReadAs s t

/-- Whether a text is a JSON array whose items have strings as types that are read as these types. -/
def AreListed (text : String) (types : List TaskType) : Prop :=
  ∃ items, Json.read (Text.Utf8.bytes text) = .ok (.array items) ∧
    List.Forall₂ (fun item t => ∃ s, item.member? "Type" = some (.string s) ∧ IsReadAs s t) items types

theorem areListed_written {α : Type} {write : α → Value} {typeOf : α → TaskType}
    (hFits : ∀ a, (write a).Fits (depthLimit - 1))
    (hType : ∀ a, (write a).sorted.member? "Type" = some (.string (typeOf a).documentName)) (as : List α) :
    AreListed (Value.array (as.map write)).text (as.map typeOf) := by
  have hArray : (Value.array (as.map write)).Fits depthLimit := ⟨by decide, itemsFit_written hFits as⟩
  have hRead := read_print hArray (List.forall_mem_nil _)
  refine ⟨(as.map write).map Value.sorted, ?_, ?_⟩
  · rw [List.append_nil, Value.sorted, sortedItems_eq] at hRead
    rw [← hRead, Text.Utf8.bytes, Value.text, String.toList_ofList]
  · rw [List.map_map, List.forall₂_map_left_iff, List.forall₂_map_right_iff, List.forall₂_same]
    exact fun a _ => ⟨_, hType a, isReadAs_iff.2 (ofName?_documentName _)⟩

/-! ## Agreement -/

/-- **All readers take the same strings for the same types**, and each takes what is written anywhere for the
type that was written. -/
theorem readers_agree [Text.Measure] :
    (∀ (s : String) (t : TaskType),
      (∀ env before after, CommandLine.IsTypePlace env before after →
        (CommandLine.TakesType env before after s t ↔ ofName? s = some t)) ∧
      ∀ (kind : ListKind) (p : TypeMember kind), p.IsPlace →
        ∀ body, (p.answer (.string s)).Spelled body → (p.Gives body t ↔ ofName? s = some t)) ∧
    (∀ t : TaskType, IsReadAs t.name t) ∧
    (∀ name t script, IsSent (.define name t script) "type" t) ∧
    (∀ query t address, IsSent (.record (.query query t address)) "qtype" t) ∧
    (∀ ts, AreListed (Listing.tasks .json ts) (ts.map Task.type)) ∧
    ∀ rs, AreListed (Listing.recordings .json rs) (rs.map Recording.type) := by
  have hName : ∀ t : TaskType, IsReadAs t.name t := fun t => isReadAs_iff.2 (ofName?_name t)
  refine ⟨fun s t => ⟨?_, ?_⟩, hName, ?_, ?_, ?_, ?_⟩
  · exact fun env before after hPlace => takesType_iff_ofName? hPlace
  · exact fun kind p hPlace body hSpelled => p.gives_iff_ofName? hPlace hSpelled
  · exact fun name t script => ⟨t.name, rfl, hName t⟩
  · exact fun query t address => ⟨t.name, rfl, hName t⟩
  · exact areListed_written (fun t => fits_task t (by decide)) fun t => rfl
  · exact areListed_written (fun r => fits_recording r (by decide)) fun r => rfl

/-! ## Places -/

/-- The place of the type of the second task of an answer, between the name of the task and its state. -/
private def secondPlace : TypeMember .tasks where
  listFront := [("Error", .string "")]
  listBack := []
  entryFront := [.array [.string "a", .integer 0]]
  entryBack := []
  front := [("Name", .string "b")]
  back := [("Enabled", .bool true)]
  list_last := by decide
  last := by decide

private theorem fits_secondPlace : secondPlace.Fits where
  depth := by decide
  error := rfl
  entries := by
    intro other hMem
    rw [List.mem_singleton.1 hMem]
    exact ⟨.stream, _, .pair .zero, rfl⟩
  rest := ⟨⟨"b", rfl⟩, .inr ⟨true, rfl⟩⟩

private theorem isPlace_secondPlace : secondPlace.IsPlace := by
  have hText : (secondPlace.answer (.string "streamer")).Fits depthLimit := by
    simp [secondPlace, TypeMember.answer, TypeMember.entry, Value.Fits, ItemsFit, MembersFit, depthLimit,
      digitsBound]
  have hSpelled : (secondPlace.answer (.string "streamer")).Spelled
      (Text.Utf8.encode (print 0 (secondPlace.answer (.string "streamer")))) :=
    ⟨[], _, [], by simp, isBlank_nil, spells_print _ 0 hText, isBlank_nil⟩
  exact ⟨_, _, .stream, hSpelled, (secondPlace.gives_iff hSpelled).2 ⟨fits_secondPlace, rfl⟩⟩

private theorem spelled_secondPlace : (secondPlace.answer (.string "batch")).Spelled
    (Text.Utf8.bytes ("\x7b\"Error\":\"\",\"Tasks\":[[\"a\",0],\x7b\"Name\":\"b\"," ++
      "\"Type\":\"\\u0062atch\",\"Enabled\":true\x7d]\x7d")) := by
  have hNone := isBlank_nil
  have hType : SpellsText ('b' :: "atch".toList)
      (92 :: 117 :: [48, 48, 54, 50] ++ Text.Utf8.encode ("atch".toList.flatMap escapeChar)) :=
    .cons (.code ⟨rfl, rfl⟩) (spells_escaped _)
  have hString : SpellsString "batch" _ := ⟨_, rfl, hType⟩
  have hZero : SpellsNumber (.integer 0) [48] := ⟨List.forall_mem_singleton.2 (by decide), rfl⟩
  have hFirst := Spells.array (.items hNone (.string (spells_quote "a")) hNone
    (.item hNone (.number hZero) hNone))
  have hSecond := Spells.object (.members hNone (spells_quote "Name") hNone hNone
    (.string (spells_quote "b")) hNone (.members hNone (spells_quote "Type") hNone hNone (.string hString)
      hNone (.member hNone (spells_quote "Enabled") hNone hNone .yes hNone)))
  have hAnswer := Spells.object (.members hNone (spells_quote "Error") hNone hNone
    (.string (spells_quote "")) hNone (.member hNone (spells_quote "Tasks") hNone hNone
      (.array (.items hNone hFirst hNone (.item hNone hSecond hNone))) hNone))
  exact ⟨[], _, [], by decide +kernel, hNone, hAnswer, hNone⟩

section

attribute [local instance] Text.Measure.byCharacters

open CommandLine in
/-- Places in two command lines and in an answer. The start of a name is no name, nor is a name in capitals;
a name may be spelled with an escape. -/
theorem readers_agree_places :
    let define := ["-d", "define", "--name", "t"].map Text.Utf8.bytes
    let record := ["record"].map Text.Utf8.bytes
    let query := ["query", "--query=q"].map Text.Utf8.bytes
    (IsTypePlace ⟨none⟩ define [] ∧ IsTypePlace ⟨none⟩ record query) ∧
      (TakesType ⟨none⟩ define [] "stream" .stream ∧ TakesType ⟨none⟩ record query "batcher" .batch) ∧
      (∀ t, ¬TakesType ⟨none⟩ define [] "str" t ∧ ¬TakesType ⟨none⟩ record query "BATCH" t) ∧
      ∃ (p : TypeMember .tasks) (body : List UInt8), body = Text.Utf8.bytes
          ("\x7b\"Error\":\"\",\"Tasks\":[[\"a\",0],\x7b\"Name\":\"b\"," ++
            "\"Type\":\"\\u0062atch\",\"Enabled\":true\x7d]\x7d") ∧
        p.IsPlace ∧ (p.answer (.string "batch")).Spelled body ∧ p.Gives body .batch := by
  have hDefine : IsTypePlace ⟨none⟩ (["-d", "define", "--name", "t"].map Text.Utf8.bytes) [] :=
    ⟨"streamer", .stream, _, by rfl, rfl⟩
  have hRecord : IsTypePlace ⟨none⟩ (["record"].map Text.Utf8.bytes)
      (["query", "--query=q"].map Text.Utf8.bytes) :=
    ⟨"streamer", .stream, _, by rfl, rfl⟩
  have hOption := fun s t => (readers_agree.1 s t).1
  refine ⟨⟨hDefine, hRecord⟩, ⟨?_, ?_⟩, fun t => ⟨?_, ?_⟩, secondPlace, _, rfl, isPlace_secondPlace,
    spelled_secondPlace, ?_⟩
  · exact (hOption _ _ _ _ _ hDefine).2 rfl
  · exact (hOption _ _ _ _ _ hRecord).2 rfl
  · rw [hOption _ _ _ _ _ hDefine]
    exact nofun
  · rw [hOption _ _ _ _ _ hRecord]
    exact nofun
  · exact ((readers_agree.1 _ _).2 _ _ isPlace_secondPlace _ spelled_secondPlace).2 rfl

end

end ControlClient.TaskType
