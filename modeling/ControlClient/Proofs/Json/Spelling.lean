import ControlClient.Proofs.Json.Numbers
import ControlClient.Proofs.Json.Strings

/-!
# Documents and the bytes that spell them

A document can be written in many ways: with blanks between its tokens, with other escapes in its
strings, and with its members in any order. That is said here as a relation between documents and bytes
(`Spells`), in which the members of an object stand as they are written. Bytes that spell a document are
read as that document with its members in increasing order of their keys, of two members with one key
the later one, unless containers are nested too deep.

The induction is on the spelling, with the containers around it as they are. What stands in the way is
that neither end of a value is sharp. Several states expect a value, and do the same with its first byte
(`Expects`); and after a number the reader does not know yet that the number is complete (`Holds`). A
container that is too deep stops the reader in the middle of a spelling, so what is followed is not
where bytes lead, but when a run over them can still succeed and how it goes on then (`Passes`).

## Main results

* `passes_spelled`: what spells a part of a document leads over that part.
* `read_spelled_iff`: what bytes are read as that spell a document.
-/

namespace ControlClient.Json

/-! ## How a document is spelled -/

/-- A part of a document: a value, or what stands between the brackets of a container that is not empty. -/
inductive Part where
  | value (v : Value)
  | items (items : List Value)
  | members (members : List (String × Value))

/-- Bytes between tokens. -/
def IsBlank (bytes : List UInt8) : Prop := ∀ byte ∈ bytes, isSpace byte = true

theorem isBlank_nil : IsBlank [] := by simp [IsBlank]

/-- How a part of a document is written. Blanks may stand around what is between brackets, commas and
colons. -/
inductive Spells : Part → List UInt8 → Prop where
  | null : Spells (.value .null) [110, 117, 108, 108]
  | yes : Spells (.value (.bool true)) [116, 114, 117, 101]
  | no : Spells (.value (.bool false)) [102, 97, 108, 115, 101]
  | number {v : Value} {bytes : List UInt8} (h : SpellsNumber v bytes) : Spells (.value v) bytes
  | string {s : String} {bytes : List UInt8} (h : SpellsString s bytes) : Spells (.value (.string s)) bytes
  | emptyArray {gap : List UInt8} (hGap : IsBlank gap) : Spells (.value (.array [])) (91 :: (gap ++ [93]))
  | array {items : List Value} {bytes : List UInt8} (h : Spells (.items items) bytes) :
      Spells (.value (.array items)) (91 :: (bytes ++ [93]))
  | emptyObject {gap : List UInt8} (hGap : IsBlank gap) :
      Spells (.value (.object [])) (123 :: (gap ++ [125]))
  | object {members : List (String × Value)} {bytes : List UInt8} (h : Spells (.members members) bytes) :
      Spells (.value (.object members)) (123 :: (bytes ++ [125]))
  | item {v : Value} {before bytes after : List UInt8} (hBefore : IsBlank before)
      (h : Spells (.value v) bytes) (hAfter : IsBlank after) :
      Spells (.items [v]) (before ++ (bytes ++ after))
  | items {v : Value} {rest : List Value} {before bytes after more : List UInt8} (hBefore : IsBlank before)
      (h : Spells (.value v) bytes) (hAfter : IsBlank after) (hRest : Spells (.items rest) more) :
      Spells (.items (v :: rest)) (before ++ (bytes ++ (after ++ 44 :: more)))
  | member {key : String} {v : Value} {front name back before bytes after : List UInt8}
      (hFront : IsBlank front) (hKey : SpellsString key name) (hBack : IsBlank back)
      (hBefore : IsBlank before) (h : Spells (.value v) bytes) (hAfter : IsBlank after) :
      Spells (.members [(key, v)]) (front ++ (name ++ (back ++ 58 :: (before ++ (bytes ++ after)))))
  | members {key : String} {v : Value} {rest : List (String × Value)}
      {front name back before bytes after more : List UInt8}
      (hFront : IsBlank front) (hKey : SpellsString key name) (hBack : IsBlank back)
      (hBefore : IsBlank before) (h : Spells (.value v) bytes) (hAfter : IsBlank after)
      (hRest : Spells (.members rest) more) :
      Spells (.members ((key, v) :: rest))
        (front ++ (name ++ (back ++ 58 :: (before ++ (bytes ++ (after ++ 44 :: more))))))

/-- How a document is written that stands alone. -/
def Value.Spelled (v : Value) (body : List UInt8) : Prop :=
  ∃ before bytes after, body = before ++ (bytes ++ after) ∧ IsBlank before ∧ Spells (.value v) bytes ∧
    IsBlank after

/-! ## What is read -/

mutual

/-- A document with its members in increasing order of their keys, each key once. -/
def Value.sorted : Value → Value
  | .array items => .array (sortedItems items)
  | .object members => .object (sortedMembers [] members)
  | v => v

/-- The items of an array, each sorted. -/
def sortedItems : List Value → List Value
  | [] => []
  | v :: rest => v.sorted :: sortedItems rest

/-- Members and others that are put in their places. -/
def sortedMembers (members : Members) : List (String × Value) → Members
  | [] => members
  | (key, v) :: rest => sortedMembers (insert key v.sorted members) rest

end

mutual

/-- How deep containers are nested in a document. -/
def Value.depth : Value → Nat
  | .array items => itemsDepth items + 1
  | .object members => membersDepth members + 1
  | _ => 0

/-- How deep containers are nested in items. -/
def itemsDepth : List Value → Nat
  | [] => 0
  | v :: rest => max v.depth (itemsDepth rest)

/-- How deep containers are nested in the values of members. -/
def membersDepth : List (String × Value) → Nat
  | [] => 0
  | (_, v) :: rest => max v.depth (membersDepth rest)

end

namespace State

variable {s t u : State} {frames : List Frame} {byte : UInt8} {bytes more : List UInt8} {P Q : Prop}

/-! ## Bytes that lead somewhere -/

/-- Bytes lead from a state to another, wherever they stand. -/
def Reads (s : State) (bytes : List UInt8) (t : State) : Prop := ∀ taken, Leads Goes s taken bytes t

theorem Reads.nil : Reads s [] s := fun _ => .done

theorem Reads.append (h : Reads s bytes t) (hMore : Reads t more u) : Reads s (bytes ++ more) u :=
  fun taken => (h taken).append (hMore _)

theorem Reads.cons (h : ∀ taken, s.step taken byte = .ok t) (hMore : Reads t more u) :
    Reads s (byte :: more) u :=
  fun taken => .next (h taken) (hMore _)

/-- A run over bytes can succeed under a condition, and then it goes on from a state. -/
def Passes (s : State) (bytes : List UInt8) (t : State) (P : Prop) : Prop :=
  ∀ taken rest v, s.run taken (bytes ++ rest) = .ok v ↔ P ∧ t.run (taken + bytes.length) rest = .ok v

theorem Reads.passes (h : Reads s bytes t) (hMore : Passes t more u P) : Passes s (bytes ++ more) u P := by
  intro taken rest v
  rw [List.append_assoc, run_of_leads (h taken), hMore, List.length_append, Nat.add_assoc]

theorem Passes.append (h : Passes s bytes t P) (hMore : P → Passes t more u Q) :
    Passes s (bytes ++ more) u (P ∧ Q) := by
  intro taken rest v
  rw [List.append_assoc, h, and_assoc]
  apply and_congr_right
  intro hP
  rw [hMore hP, List.length_append, Nat.add_assoc]

theorem Reads.passes_self (h : Reads s bytes t) : Passes s bytes t True := by
  intro taken rest v
  rw [run_of_leads (h taken), true_and]

theorem Passes.reads (h : Passes s bytes t P) (hMore : Reads t more u) : Passes s (bytes ++ more) u P := by
  have hPasses := h.append fun _ => hMore.passes_self
  rwa [and_true] at hPasses

theorem Passes.iff (h : Passes s bytes t P) (hIff : P ↔ Q) : Passes s bytes t Q := by
  intro taken rest v
  rw [h, hIff]

/-- A state that passes over blanks. -/
def IsPatient (s : State) : Prop := ∀ taken byte, isSpace byte = true → s.step taken byte = .ok s

theorem isPatient_of_step {others : Nat → UInt8 → Except Fault State}
    (h : ∀ taken byte, s.step taken byte = if isSpace byte then .ok s else others taken byte) :
    s.IsPatient := by
  intro taken byte hSpace
  rw [h, if_pos hSpace]

theorem reads_blank (hPatient : s.IsPatient) (h : IsBlank bytes) : Reads s bytes s := by
  induction bytes with
  | nil => exact .nil
  | cons byte rest ih =>
      obtain ⟨hByte, hRest⟩ := List.forall_mem_cons.1 h
      exact .cons (fun taken => hPatient taken byte hByte) (ih hRest)

/-! ## Where a value or a key starts -/

/-- A state in which a value may start, inside some containers. -/
inductive Expects : State → List Frame → Prop where
  | value (frames : List Frame) : Expects ⟨.value, frames⟩ frames
  | first (frames : List Frame) : Expects ⟨.arrayStart, frames⟩ (.array [] :: frames)
  | item (items : List Value) (frames : List Frame) :
      Expects ⟨.arrayItem items, frames⟩ (.array items :: frames)

theorem Expects.isPatient (h : Expects s frames) : s.IsPatient := by
  cases h <;> exact isPatient_of_step fun _ _ => rfl

theorem Expects.step (h : Expects s frames) (hSpace : isSpace byte = false) (hBracket : byte ≠ 93)
    (taken : Nat) : s.step taken byte = begin frames taken byte := by
  cases h <;> simp [State.step, hSpace, hBracket]

theorem Expects.opens (h : Expects s frames) (hSpace : isSpace byte = false) (hBracket : byte ≠ 93)
    (hBegin : ∀ taken, begin frames taken byte = .ok t) (hMore : Reads t more u) :
    Reads s (byte :: more) u := by
  apply Reads.cons _ hMore
  intro taken
  rw [h.step hSpace hBracket, hBegin]

/-- A container is opened if there is room for it. -/
theorem Expects.passes_open (h : Expects s frames) (hSpace : isSpace byte = false) (hBracket : byte ≠ 93)
    {mode : Mode} (hBegin : ∀ taken, begin frames taken byte = openContainer frames taken mode) :
    Passes s [byte] ⟨mode, frames⟩ (frames.length < depthLimit) := by
  intro taken rest v
  rw [List.singleton_append, run, h.step hSpace hBracket, hBegin, openContainer]
  by_cases hRoom : frames.length < depthLimit
  · simp [hRoom]
  · simp [hRoom]

/-- A state in which a key may start, behind some members. -/
inductive ExpectsKey : State → Members → List Frame → Prop where
  | first (frames : List Frame) : ExpectsKey ⟨.objectStart, frames⟩ [] frames
  | next (members : Members) (frames : List Frame) :
      ExpectsKey ⟨.objectKey members, frames⟩ members frames

theorem ExpectsKey.isPatient {members : Members} (h : ExpectsKey s members frames) : s.IsPatient := by
  cases h <;> exact isPatient_of_step fun _ _ => rfl

theorem ExpectsKey.step_quote {members : Members} (h : ExpectsKey s members frames) (taken : Nat) :
    s.step taken 34 = .ok ⟨.key members .start, frames⟩ := by
  cases h <;> rfl

/-! ## Where a value is complete -/

/-- A state in which a value is complete, or a number that no byte has ended yet. -/
inductive Holds : State → List Frame → Value → Prop where
  | settled (frames : List Frame) (v : Value) : Holds (complete frames v) frames v
  | number {n : NumberState} {v : Value} (hValue : n.value = .ok v) (frames : List Frame) :
      Holds ⟨.number n, frames⟩ frames v

theorem step_complete (frames : List Frame) (v : Value) (taken : Nat) (byte : UInt8) :
    (complete frames v).step taken byte = between (complete frames v) taken byte := by
  cases frames with
  | nil => rfl
  | cons frame outer => cases frame <;> rfl

theorem isPatient_complete (frames : List Frame) (v : Value) : (complete frames v).IsPatient := by
  intro taken byte hSpace
  rw [step_complete, between, if_pos hSpace]

theorem Holds.step {v : Value} (h : Holds s frames v) (hEnds : EndsNumber byte) (taken : Nat) :
    s.step taken byte = (complete frames v).step taken byte := by
  cases h with
  | settled => rfl
  | number hValue =>
      rw [step_complete]
      simp only [State.step, NumberState.step_ends hValue hEnds, hValue]

theorem endsNumber_of_isSpace (h : isSpace byte = true) : EndsNumber byte := by
  simp only [isSpace, Bool.or_eq_true, decide_eq_true_eq] at h
  rcases h with ((rfl | rfl) | rfl) | rfl <;> exact ⟨rfl, by decide, rfl⟩

/-- Behind a value come blanks and then a byte that does not go on with a number. -/
theorem Holds.reads {v : Value} (h : Holds s frames v) (hBlank : IsBlank bytes) (hEnds : EndsNumber byte)
    (hStep : ∀ taken, (complete frames v).step taken byte = .ok t) : Reads s (bytes ++ [byte]) t := by
  intro taken
  cases bytes with
  | nil =>
      refine .next ?_ .done
      exact (h.step hEnds taken).trans (hStep taken)
  | cons space rest =>
      obtain ⟨hSpace, hRest⟩ := List.forall_mem_cons.1 hBlank
      have hPatient := isPatient_complete frames v
      refine .next ?_ ((reads_blank hPatient hRest).append (.cons hStep .nil) _)
      exact (h.step (endsNumber_of_isSpace hSpace) taken).trans (hPatient taken space hSpace)

theorem Holds.finish {v : Value} (h : Holds s [] v) (taken : Nat) : s.finish taken = .ok v := by
  cases h with
  | settled => rfl
  | number hValue =>
      simp only [State.finish, hValue]
      rfl

/-- The document is complete where its value is, whatever blanks follow. -/
theorem Holds.run {v : Value} (h : Holds s [] v) (hBlank : IsBlank bytes) (taken : Nat) :
    s.run taken bytes = .ok v := by
  cases bytes with
  | nil => exact h.finish taken
  | cons space rest =>
      obtain ⟨hSpace, hRest⟩ := List.forall_mem_cons.1 hBlank
      have hPatient := isPatient_complete [] v
      have hEnd := run_of_leads (reads_blank hPatient hRest (taken + 1)) []
      rw [List.append_nil] at hEnd
      rw [State.run, h.step (endsNumber_of_isSpace hSpace), hPatient taken space hSpace]
      dsimp only
      rw [hEnd]
      rfl

/-! ## Values without parts -/

private theorem scalar_of_spellsNumber {v : Value} (h : SpellsNumber v bytes) :
    v.sorted = v ∧ v.depth = 0 := by
  obtain ⟨byte, rest, n, m, -, -, -, hValue⟩ := spellsNumber_iff.1 h
  obtain ⟨i, rfl⟩ | ⟨x, rfl⟩ := NumberState.value_cases hValue
  · exact ⟨rfl, rfl⟩
  · exact ⟨rfl, rfl⟩

private theorem reads_word (h : Expects s frames) {word : List UInt8} {v : Value}
    (hSpace : isSpace byte = false) (hBracket : byte ≠ 93)
    (hBegin : ∀ taken, begin frames taken byte = .ok ⟨.word word v, frames⟩)
    (hWord : Reads ⟨.word word v, frames⟩ word (complete frames v)) :
    ∃ t, Holds t frames v ∧ Reads s (byte :: word) t :=
  ⟨complete frames v, .settled frames v, h.opens hSpace hBracket hBegin hWord⟩

private theorem reads_number (h : Expects s frames) {v : Value} (hNumber : SpellsNumber v bytes) :
    ∃ t, Holds t frames v ∧ Reads s bytes t := by
  obtain ⟨byte, rest, n, m, rfl, hFirst, hLeads, hValue⟩ := spellsNumber_iff.1 hNumber
  have hByte := isNumberByte_of_begin? hFirst
  have hBracket : byte ≠ 93 := by
    rintro rfl
    cases hByte
  refine ⟨_, .number hValue frames, ?_⟩
  apply h.opens (isSpace_of_isNumberByte hByte) hBracket (begin_number hFirst)
  exact fun taken => leads_number frames (NumberState.leads_anywhere hLeads taken)

/-- A string up to its closing quote, by a state that reads one. -/
private theorem reads_quoted (inside : StringState → State) (done : String → State)
    (hInside : ∀ {cs ds : StringState} {taken : Nat} {bytes : List UInt8},
      Leads StringState.Goes cs taken bytes ds → Leads Goes (inside cs) taken bytes (inside ds))
    (hQuote : ∀ cs taken,
      (inside (.after cs)).step taken 34 = .ok (done (String.ofList cs.reverse)))
    {string : String} (hText : SpellsText string.toList bytes) :
    Reads (inside .start) (bytes ++ [34]) (done string) := by
  intro taken
  apply (hInside (StringState.leads_spelled hText [] taken)).append
  refine .next ?_ .done
  show State.step _ _ _ = _
  rw [hQuote, List.append_nil, List.reverse_reverse, String.ofList_toList]

/-- A string as a value. -/
theorem reads_string (h : Expects s frames) {string : String} (hString : SpellsString string bytes) :
    Reads s bytes (complete frames (.string string)) := by
  obtain ⟨inner, rfl, hText⟩ := hString
  apply h.opens rfl (by decide) fun _ => rfl
  exact reads_quoted (⟨.string ·, frames⟩) (fun string => complete frames (.string string))
    (leads_string frames) (fun _ _ => rfl) hText

/-- A key and its colon, with the blanks around them, after which the value of the member is expected. -/
theorem reads_key {members : Members} (h : ExpectsKey s members frames) {key : String}
    {front name back : List UInt8} (hFront : IsBlank front) (hKey : SpellsString key name)
    (hBack : IsBlank back) (hMore : Reads ⟨.value, .object members key :: frames⟩ more t) :
    Reads s (front ++ (name ++ (back ++ 58 :: more))) t := by
  obtain ⟨inner, rfl, hText⟩ := hKey
  have hName : Reads ⟨.key members .start, frames⟩ (inner ++ [34]) ⟨.colon members key, frames⟩ :=
    reads_quoted (⟨.key members ·, frames⟩) (fun key => ⟨.colon members key, frames⟩)
      (leads_key frames members) (fun _ _ => rfl) hText
  apply (reads_blank h.isPatient hFront).append
  apply Reads.append (.cons h.step_quote hName)
  apply (reads_blank (isPatient_of_step fun _ _ => rfl) hBack).append
  exact .cons (fun _ => rfl) hMore

/-! ## Whole documents -/

/-- What the reader does over bytes that spell a part: it passes them if the containers fit, and then holds
the value, or has closed the container whose items or members they are. -/
def PassesPart : Part → List UInt8 → Prop
  | .value v, bytes => ∀ {s frames}, Expects s frames → frames.length ≤ depthLimit →
      ∃ t, Holds t frames v.sorted ∧ Passes s bytes t (frames.length + v.depth ≤ depthLimit)
  | .items items, bytes => ∀ {s frames done}, Expects s (.array done :: frames) →
      frames.length < depthLimit →
      Passes s (bytes ++ [93]) (complete frames (.array (done.reverse ++ sortedItems items)))
        (frames.length + 1 + itemsDepth items ≤ depthLimit)
  | .members members, bytes => ∀ {s frames done}, ExpectsKey s done frames → frames.length < depthLimit →
      Passes s (bytes ++ [125]) (complete frames (.object (sortedMembers done members)))
        (frames.length + 1 + membersDepth members ≤ depthLimit)

private theorem Holds.scalar {v : Value} (h : ∃ t, Holds t frames v ∧ Reads s bytes t)
    (hSorted : v.sorted = v) (hDepth : v.depth = 0) (hRoom : frames.length ≤ depthLimit) :
    ∃ t, Holds t frames v.sorted ∧ Passes s bytes t (frames.length + v.depth ≤ depthLimit) := by
  obtain ⟨t, hHolds, hReads⟩ := h
  rw [hSorted]
  exact ⟨t, hHolds, hReads.passes_self.iff (by simp [hDepth, hRoom])⟩

private theorem Holds.container {v : Value} {mode : Mode} (h : Expects s frames)
    (hSpace : isSpace byte = false) (hBracket : byte ≠ 93)
    (hBegin : ∀ taken, begin frames taken byte = openContainer frames taken mode)
    (hInside : frames.length < depthLimit →
      Passes ⟨mode, frames⟩ bytes (complete frames v.sorted) (frames.length + v.depth ≤ depthLimit))
    (hDepth : 0 < v.depth) :
    ∃ t, Holds t frames v.sorted ∧ Passes s (byte :: bytes) t (frames.length + v.depth ≤ depthLimit) :=
  ⟨_, .settled _ _, ((h.passes_open hSpace hBracket hBegin).append hInside).iff (by omega)⟩

/-- Brackets with nothing but blanks between them. -/
private theorem passes_empty {mode : Mode} (hPatient : IsPatient ⟨mode, frames⟩) (hGap : IsBlank bytes)
    (hClosing : ∀ taken, step ⟨mode, frames⟩ taken byte = .ok t) (hRoom : frames.length < depthLimit) :
    Passes ⟨mode, frames⟩ (bytes ++ [byte]) t (frames.length + 1 ≤ depthLimit) := by
  have hReads : Reads ⟨mode, frames⟩ (bytes ++ [byte]) t :=
    (reads_blank hPatient hGap).append (.cons hClosing .nil)
  exact hReads.passes_self.iff (iff_of_true trivial hRoom)

/-- A value among blanks and the byte behind them, which is no part of it. -/
private theorem passes_amongBlanks {v : Value} {before after : List UInt8}
    (hValue : PassesPart (.value v) bytes) (h : Expects s frames) (hRoom : frames.length ≤ depthLimit)
    (hBefore : IsBlank before) (hAfter : IsBlank after) (hEnds : EndsNumber byte)
    (hStep : ∀ taken, (complete frames v.sorted).step taken byte = .ok u) :
    Passes s (before ++ (bytes ++ (after ++ [byte]))) u (frames.length + v.depth ≤ depthLimit) := by
  obtain ⟨t, hHolds, hPasses⟩ := hValue h hRoom
  exact (reads_blank h.isPatient hBefore).passes (hPasses.reads (hHolds.reads hAfter hEnds hStep))

/-- **What spells a part of a document leads over that part.** -/
theorem passes_spelled {part : Part} (h : Spells part bytes) : PassesPart part bytes := by
  induction h with
  | null =>
      intro s frames h hRoom
      refine Holds.scalar (reads_word h rfl (by decide) (fun _ => rfl) fun _ => ?_) rfl rfl hRoom
      exact .next rfl (.next rfl (.next rfl .done))
  | yes =>
      intro s frames h hRoom
      refine Holds.scalar (reads_word h rfl (by decide) (fun _ => rfl) fun _ => ?_) rfl rfl hRoom
      exact .next rfl (.next rfl (.next rfl .done))
  | no =>
      intro s frames h hRoom
      refine Holds.scalar (reads_word h rfl (by decide) (fun _ => rfl) fun _ => ?_) rfl rfl hRoom
      exact .next rfl (.next rfl (.next rfl (.next rfl .done)))
  | number hNumber =>
      intro s frames h hRoom
      obtain ⟨hSorted, hDepth⟩ := scalar_of_spellsNumber hNumber
      exact Holds.scalar (reads_number h hNumber) hSorted hDepth hRoom
  | string hString =>
      intro s frames h hRoom
      exact Holds.scalar ⟨_, .settled _ _, reads_string h hString⟩ rfl rfl hRoom
  | emptyArray hGap =>
      intro s frames h _
      refine Holds.container h rfl (by decide) (fun _ => rfl) ?_ (Nat.succ_pos _)
      exact passes_empty (isPatient_of_step fun _ _ => rfl) hGap fun _ => rfl
  | array h ih =>
      intro s frames h _
      refine Holds.container h rfl (by decide) (fun _ => rfl) (fun hRoom => ?_) (Nat.succ_pos _)
      exact (ih (.first frames) hRoom).iff (by rw [Value.depth]; omega)
  | emptyObject hGap =>
      intro s frames h _
      refine Holds.container h rfl (by decide) (fun _ => rfl) ?_ (Nat.succ_pos _)
      exact passes_empty (isPatient_of_step fun _ _ => rfl) hGap fun _ => rfl
  | object h ih =>
      intro s frames h _
      refine Holds.container h rfl (by decide) (fun _ => rfl) (fun hRoom => ?_) (Nat.succ_pos _)
      exact (ih (.first frames) hRoom).iff (by rw [Value.depth]; omega)
  | @item v before bytes after hBefore _ hAfter ih =>
      intro s frames done h hRoom
      rw [List.append_assoc, List.append_assoc, itemsDepth, itemsDepth, Nat.max_zero]
      refine passes_amongBlanks ih h hRoom hBefore hAfter (by decide) fun taken => ?_
      rw [sortedItems, sortedItems, ← List.reverse_cons]
      rfl
  | @items v rest before bytes after more hBefore _ hAfter _ ih ihRest =>
      intro s frames done h hRoom
      have hComma : Passes s (before ++ (bytes ++ (after ++ [44]))) ⟨.arrayItem (v.sorted :: done), frames⟩
          (frames.length + 1 + v.depth ≤ depthLimit) :=
        passes_amongBlanks ih h hRoom hBefore hAfter (by decide) fun _ => rfl
      have hOthers := ihRest (.item (v.sorted :: done) frames) hRoom
      rw [List.reverse_cons, List.append_assoc] at hOthers
      have hText : before ++ (bytes ++ (after ++ 44 :: more)) ++ [93] =
          before ++ (bytes ++ (after ++ [44])) ++ (more ++ [93]) := by simp
      rw [hText]
      have hAll := hComma.append fun _ => hOthers
      exact hAll.iff (by rw [itemsDepth]; omega)
  | @member key v front name back before bytes after hFront hKey hBack hBefore _ hAfter ih =>
      intro s frames done h hRoom
      have hName := reads_key h hFront hKey hBack .nil
      have hEnd : Passes ⟨.value, .object done key :: frames⟩ (before ++ (bytes ++ (after ++ [125])))
          (complete frames (.object (insert key v.sorted done))) (frames.length + 1 + v.depth ≤ depthLimit) :=
        passes_amongBlanks ih (.value _) hRoom hBefore hAfter (by decide) fun _ => rfl
      have hText : front ++ (name ++ (back ++ 58 :: (before ++ (bytes ++ after)))) ++ [125] =
          front ++ (name ++ (back ++ [58])) ++ (before ++ (bytes ++ (after ++ [125]))) := by simp
      rw [hText, membersDepth, membersDepth, Nat.max_zero]
      exact hName.passes hEnd
  | @members key v rest front name back before bytes after more hFront hKey hBack hBefore _ hAfter _ ih
      ihRest =>
      intro s frames done h hRoom
      have hName := reads_key h hFront hKey hBack .nil
      have hComma : Passes ⟨.value, .object done key :: frames⟩ (before ++ (bytes ++ (after ++ [44])))
          ⟨.objectKey (insert key v.sorted done), frames⟩ (frames.length + 1 + v.depth ≤ depthLimit) :=
        passes_amongBlanks ih (.value _) hRoom hBefore hAfter (by decide) fun _ => rfl
      have hOthers := ihRest (.next (insert key v.sorted done) frames) hRoom
      have hText : front ++ (name ++ (back ++ 58 :: (before ++ (bytes ++ (after ++ 44 :: more))))) ++ [125] =
          front ++ (name ++ (back ++ [58])) ++ (before ++ (bytes ++ (after ++ [44])) ++ (more ++ [125])) := by
        simp
      rw [hText]
      have hAll := hName.passes (hComma.append fun _ => hOthers)
      exact hAll.iff (by rw [membersDepth]; omega)

end State

/-- **What bytes are read as that spell a document**: as the document with its members in order, if containers
are nested so deep at most. -/
theorem read_spelled_iff {d v : Value} {body : List UInt8} (h : d.Spelled body) :
    read body = .ok v ↔ d.depth ≤ depthLimit ∧ d.sorted = v := by
  obtain ⟨before, bytes, after, rfl, hBefore, hSpells, hAfter⟩ := h
  obtain ⟨t, hHolds, hPasses⟩ := State.passes_spelled hSpells (.value []) (Nat.zero_le _)
  have hStart : State.start.IsPatient := (State.Expects.value []).isPatient
  have hAll := (State.reads_blank hStart hBefore).passes hPasses 0 after v
  rw [List.append_assoc] at hAll
  rw [read_eq_ok_iff, hAll, hHolds.run hAfter, Except.ok.injEq, List.length_nil, Nat.zero_add]

end ControlClient.Json
