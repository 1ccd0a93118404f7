import ControlClient.Proofs.Json.Spelling

/-!
# Documents read back

A document that was written spells itself, so it is read as itself, up to the order of members: they are
written as they stand and read in increasing order of their keys. This holds within the limits of the reader,
which are that containers nest so deep at most and that a number is an integer that is kept.

## Main results

* `spells_print`: the text of a document spells it.
* `read_print`: a document that was written is read, whatever blanks follow.
* `read_lastMember`: a document that was written is read as the last member of an object.
-/

namespace ControlClient.Json

open Text.Utf8 (encode encode_append)

/-! ## What reads back as what -/

mutual

/-- Whether a document is within the limits of the reader, if containers may nest so deep. -/
def Value.Fits (room : Nat) : Value → Prop
  | .integer n => -0x8000000000000000 ≤ n ∧ n < (digitsBound : Int)
  | .fractional _ => False
  | .array items => 0 < room ∧ ItemsFit (room - 1) items
  | .object members => 0 < room ∧ MembersFit (room - 1) members
  | _ => True

/-- Whether all items are within the limits. -/
def ItemsFit (room : Nat) : List Value → Prop
  | [] => True
  | v :: rest => v.Fits room ∧ ItemsFit room rest

/-- Whether all members are within the limits. -/
def MembersFit (room : Nat) : List (String × Value) → Prop
  | [] => True
  | (_, v) :: rest => v.Fits room ∧ MembersFit room rest

end

mutual

theorem depth_le_of_fits {room : Nat} (v : Value) (h : v.Fits room) : v.depth ≤ room := by
  cases v with
  | array items =>
      have hItems := itemsDepth_le_of_fit items h.2
      have hRoom := h.1
      rw [Value.depth]
      omega
  | object members =>
      have hMembers := membersDepth_le_of_fit members h.2
      have hRoom := h.1
      rw [Value.depth]
      omega
  | _ => exact Nat.zero_le _

theorem itemsDepth_le_of_fit {room : Nat} (items : List Value) (h : ItemsFit room items) :
    itemsDepth items ≤ room := by
  cases items with
  | nil => exact Nat.zero_le _
  | cons v rest => exact Nat.max_le.2 ⟨depth_le_of_fits v h.1, itemsDepth_le_of_fit rest h.2⟩

theorem membersDepth_le_of_fit {room : Nat} (members : List (String × Value)) (h : MembersFit room members) :
    membersDepth members ≤ room := by
  cases members with
  | nil => exact Nat.zero_le _
  | cons member rest => exact Nat.max_le.2 ⟨depth_le_of_fits member.2 h.1, membersDepth_le_of_fit rest h.2⟩

end

/-! ## What is written -/

theorem isBlank_newLine (depth : Nat) : IsBlank (encode (newLine depth)) := by
  intro byte h
  obtain ⟨c, hc, hByte⟩ := List.mem_flatMap.1 h
  rcases List.mem_cons.1 hc with rfl | hBlank
  · rw [List.mem_singleton.1 hByte]
    decide
  · rw [List.eq_of_mem_replicate hBlank] at hByte
    rw [List.mem_singleton.1 hByte]
    decide

private theorem isBlank_space : IsBlank [32] := by simp [IsBlank, isSpace]

mutual

/-- **The text of a document spells it.** -/
theorem spells_print (v : Value) (depth : Nat) {room : Nat} (hFits : v.Fits room) :
    Spells (.value v) (encode (print depth v)) := by
  cases v with
  | null => exact .null
  | bool b =>
      cases b with
      | true => exact .yes
      | false => exact .no
  | integer n => exact .number (spellsNumber_intText hFits.1 hFits.2)
  | fractional x => cases hFits
  | string string => exact .string (spells_quote string)
  | array items =>
      cases items with
      | nil => exact .emptyArray isBlank_nil
      | cons item rest =>
          have hItems := spells_printItems rest depth (spells_print item (depth + 1) hFits.2.1) hFits.2.2
          have hText : encode (print depth (.array (item :: rest))) =
              91 :: (encode (newLine (depth + 1) ++ print (depth + 1) item ++ printItems depth rest) ++
                [93]) := by
            simp only [print, encode_append, List.append_assoc]
            rfl
          rw [hText]
          exact .array hItems
  | object members =>
      cases members with
      | nil => exact .emptyObject isBlank_nil
      | cons member rest =>
          have hMembers := spells_printMembers rest depth member.1
            (spells_print member.2 (depth + 1) hFits.2.1) hFits.2.2
          have hText : encode (print depth (.object (member :: rest))) =
              123 :: (encode (newLine (depth + 1) ++ quote member.1 ++ [':', ' '] ++
                print (depth + 1) member.2 ++ printMembers depth rest) ++ [125]) := by
            simp only [print, encode_append, List.append_assoc]
            rfl
          rw [hText]
          exact .object hMembers

theorem spells_printItems (rest : List Value) (depth : Nat) {item : Value} {room : Nat}
    (hItem : Spells (.value item) (encode (print (depth + 1) item))) (hFit : ItemsFit room rest) :
    Spells (.items (item :: rest))
      (encode (newLine (depth + 1) ++ print (depth + 1) item ++ printItems depth rest)) := by
  rw [encode_append, encode_append, List.append_assoc]
  cases rest with
  | nil => exact .item (isBlank_newLine _) hItem (isBlank_newLine _)
  | cons v rest =>
      have hRest := spells_printItems rest depth (spells_print v (depth + 1) hFit.1) hFit.2
      have hText : encode (printItems depth (v :: rest)) = [] ++ 44 ::
          encode (newLine (depth + 1) ++ print (depth + 1) v ++ printItems depth rest) := by
        rw [printItems]
        rfl
      rw [hText]
      exact .items (isBlank_newLine _) hItem isBlank_nil hRest

theorem spells_printMembers (rest : List (String × Value)) (depth : Nat) (key : String) {v : Value}
    {room : Nat} (hValue : Spells (.value v) (encode (print (depth + 1) v)))
    (hFit : MembersFit room rest) :
    Spells (.members ((key, v) :: rest))
      (encode (newLine (depth + 1) ++ quote key ++ [':', ' '] ++ print (depth + 1) v ++
        printMembers depth rest)) := by
  have hText : encode (newLine (depth + 1) ++ quote key ++ [':', ' '] ++ print (depth + 1) v ++
      printMembers depth rest) = encode (newLine (depth + 1)) ++ (encode (quote key) ++ ([] ++ 58 ::
        ([32] ++ (encode (print (depth + 1) v) ++ encode (printMembers depth rest))))) := by
    simp only [encode_append, List.append_assoc]
    rfl
  rw [hText]
  cases rest with
  | nil =>
      exact .member (isBlank_newLine _) (spells_quote key) isBlank_nil isBlank_space hValue
        (isBlank_newLine _)
  | cons member rest =>
      have hRest := spells_printMembers rest depth member.1 (spells_print member.2 (depth + 1) hFit.1) hFit.2
      have hText : encode (printMembers depth (member :: rest)) = [] ++ 44 ::
          encode (newLine (depth + 1) ++ quote member.1 ++ [':', ' '] ++ print (depth + 1) member.2 ++
            printMembers depth rest) := by
        rw [printMembers]
        rfl
      rw [hText]
      exact .members (isBlank_newLine _) (spells_quote key) isBlank_nil isBlank_space hValue isBlank_nil hRest

end

/-- **A document that was written is read**, with its members in order, whatever blanks follow. -/
theorem read_print {v : Value} (hFits : v.Fits depthLimit) {spaces : List UInt8}
    (hSpaces : ∀ byte ∈ spaces, isSpace byte = true) :
    read (encode (print 0 v) ++ spaces) = .ok v.sorted := by
  have hSpelled : v.Spelled (encode (print 0 v) ++ spaces) :=
    ⟨[], _, spaces, rfl, isBlank_nil, spells_print v 0 hFits, hSpaces⟩
  exact (read_spelled_iff hSpelled).2 ⟨depth_le_of_fits v hFits, rfl⟩

/-- An object is read whose last member holds a printed document, whatever stands in front of the
member's key. -/
theorem read_lastMember {front : List UInt8} {members : Members} {s : State}
    (hFront : State.start.Reads front s) (hKey : State.ExpectsKey s members []) (key : String) {v : Value}
    (hFits : v.Fits (depthLimit - 1)) {spaces : List UInt8}
    (hSpaces : ∀ byte ∈ spaces, isSpace byte = true) :
    read (front ++ (encode (quote key ++ [':']) ++ (encode (print 0 v) ++ (spaces ++ [125])))) =
      .ok (.object (insert key v.sorted members)) := by
  have hMember : Spells (.members [(key, v)])
      (encode (quote key ++ [':']) ++ (encode (print 0 v) ++ spaces)) := by
    rw [encode_append, List.append_assoc]
    exact .member isBlank_nil (spells_quote key) isBlank_nil isBlank_nil (spells_print v 0 hFits) hSpaces
  have hDepth : membersDepth [(key, v)] < depthLimit := by
    have hValue := depth_le_of_fits v hFits
    have hLimit : 0 < depthLimit := by decide
    rw [membersDepth, membersDepth, Nat.max_zero]
    omega
  have hPasses := hFront.passes (State.passes_spelled hMember hKey (by decide)) 0 []
    (.object (insert key v.sorted members))
  rw [List.append_nil] at hPasses
  rw [read_eq_ok_iff]
  simpa using hPasses.2 ⟨by rw [List.length_nil]; omega, rfl⟩

end ControlClient.Json
