import ControlClient.Proofs.Json.InsideStrings
import ControlClient.Proofs.Json.Spelling

/-!
# What is read is spelled

Every body that the reader accepts spells some document, so nothing is missing from the relation between
documents and bytes. The induction is on the bytes that are still to come: what takes a state to the end
of a document (`Closes`) is known for the state behind a byte, and so it is for the state in front of
it. For that it has to be said of every state what may follow it. How a run reaches the end is therefore
known from the end on, while the containers around a value are known from the front.

## Main results

* `closes_of_run`: a run that succeeds is over bytes that take its state to the end of a document.
* `exists_spelled_of_read`: a body that is read spells a document.
* `read_iff_spelled`: what bodies are read, and as what.
-/

namespace ControlClient.Json

/-! ## What may follow -/

/-- What follows the start of a number. -/
def NumberState.Closes (n : NumberState) (rest : List UInt8) : Prop :=
  ∃ m v, Leads NumberState.Goes n 0 rest m ∧ m.value = .ok v

/-- The items of an array that is not empty. -/
def IsItems (bytes : List UInt8) : Prop := ∃ items, Spells (.items items) bytes

/-- The members of an object that is not empty. -/
def IsMembers (bytes : List UInt8) : Prop := ∃ members, Spells (.members members) bytes

section Follows

variable (IsInside : List UInt8 → Prop) (bracket : UInt8) (After : List UInt8 → Prop) (rest : List UInt8)

/-- What is inside brackets up to the closing one, and what comes after it. -/
def Fills : Prop := ∃ bytes more, rest = bytes ++ bracket :: more ∧ IsInside bytes ∧ After more

/-- What follows an opening bracket. -/
def FollowsOpening : Prop := Fills IsBlank bracket After rest ∨ Fills IsInside bracket After rest

/-- What comes behind blanks. -/
def FollowsGap : Prop := ∃ gap more, rest = gap ++ more ∧ IsBlank gap ∧ After more

/-- What follows a complete item or member: the closing bracket, or a comma and others. -/
def FollowsPart : Prop :=
  FollowsGap (fun more => ∃ byte tail, more = byte :: tail ∧
    (byte = bracket ∧ After tail ∨ byte = 44 ∧ Fills IsInside bracket After tail)) rest

/-- A value and what comes after it. -/
def StartsValue : Prop := ∃ v bytes more, rest = bytes ++ more ∧ Spells (.value v) bytes ∧ After more

/-- What follows a key: a colon, and then a value. -/
def FollowsKey : Prop :=
  FollowsGap (fun more => ∃ tail, more = 58 :: tail ∧ FollowsGap (StartsValue After) tail) rest

end Follows

/-- What follows a complete value inside some containers. -/
def Follows : List Frame → List UInt8 → Prop
  | [], rest => IsBlank rest
  | .array _ :: outer, rest => FollowsPart IsItems 93 (Follows outer) rest
  | .object _ _ :: outer, rest => FollowsPart IsMembers 125 (Follows outer) rest

section Follows

variable {IsInside After : List UInt8 → Prop} {bracket byte : UInt8} {bytes rest : List UInt8}

theorem FollowsGap.space (hSpace : isSpace byte = true) (h : FollowsGap After rest) :
    FollowsGap After (byte :: rest) := by
  obtain ⟨gap, more, rfl, hGap, hAfter⟩ := h
  exact ⟨byte :: gap, more, rfl, List.forall_mem_cons.2 ⟨hSpace, hGap⟩, hAfter⟩

theorem FollowsGap.here (h : After rest) : FollowsGap After rest := ⟨[], rest, rfl, isBlank_nil, h⟩

private theorem IsItems.space (hSpace : isSpace byte = true) (h : IsItems bytes) :
    IsItems (byte :: bytes) := by
  obtain ⟨items, hItems⟩ := h
  cases hItems with
  | item hBefore h hAfter =>
      exact ⟨_, .item (List.forall_mem_cons.2 ⟨hSpace, hBefore⟩) h hAfter⟩
  | items hBefore h hAfter hRest =>
      exact ⟨_, .items (List.forall_mem_cons.2 ⟨hSpace, hBefore⟩) h hAfter hRest⟩

private theorem IsMembers.space (hSpace : isSpace byte = true) (h : IsMembers bytes) :
    IsMembers (byte :: bytes) := by
  obtain ⟨members, hMembers⟩ := h
  cases hMembers with
  | member hFront hKey hBack hBefore h hAfter =>
      exact ⟨_, .member (List.forall_mem_cons.2 ⟨hSpace, hFront⟩) hKey hBack hBefore h hAfter⟩
  | members hFront hKey hBack hBefore h hAfter hRest =>
      exact ⟨_, .members (List.forall_mem_cons.2 ⟨hSpace, hFront⟩) hKey hBack hBefore h hAfter hRest⟩

private theorem Fills.space (hInside : ∀ {bytes}, IsInside bytes → IsInside (byte :: bytes))
    (h : Fills IsInside bracket After rest) : Fills IsInside bracket After (byte :: rest) := by
  obtain ⟨bytes, more, rfl, hBytes, hAfter⟩ := h
  exact ⟨byte :: bytes, more, rfl, hInside hBytes, hAfter⟩

private theorem FollowsOpening.space (hSpace : isSpace byte = true)
    (hInside : ∀ {bytes}, IsInside bytes → IsInside (byte :: bytes))
    (h : FollowsOpening IsInside bracket After rest) :
    FollowsOpening IsInside bracket After (byte :: rest) :=
  h.imp (Fills.space fun hBlank => List.forall_mem_cons.2 ⟨hSpace, hBlank⟩) (Fills.space hInside)

/-- A value is the first of the items that follow. -/
private theorem StartsValue.items (h : StartsValue (FollowsPart IsItems 93 After) rest) :
    Fills IsItems 93 After rest := by
  obtain ⟨v, bytes, more, rfl, hValue, gap, others, rfl, hGap, byte, tail, rfl, hPart⟩ := h
  obtain ⟨rfl, hAfter⟩ | ⟨rfl, inside, more, rfl, ⟨items, hItems⟩, hAfter⟩ := hPart
  · exact ⟨bytes ++ gap, tail, by simp, ⟨_, .item isBlank_nil hValue hGap⟩, hAfter⟩
  · exact ⟨bytes ++ (gap ++ 44 :: inside), more, by simp, ⟨_, .items isBlank_nil hValue hGap hItems⟩, hAfter⟩

/-- A key and its value are the first of the members that follow. -/
private theorem FollowsKey.members {key : String} {name : List UInt8} (hKey : SpellsString key name)
    (h : FollowsKey (FollowsPart IsMembers 125 After) rest) : Fills IsMembers 125 After (name ++ rest) := by
  obtain ⟨back, _, rfl, hBack, _, rfl, before, _, rfl, hBefore, v, bytes, more, rfl, hValue, gap, others, rfl,
    hGap, byte, tail, rfl, hPart⟩ := h
  obtain ⟨rfl, hAfter⟩ | ⟨rfl, inside, more, rfl, ⟨members, hMembers⟩, hAfter⟩ := hPart
  · exact ⟨name ++ (back ++ 58 :: (before ++ (bytes ++ gap))), tail, by simp,
      ⟨_, .member isBlank_nil hKey hBack hBefore hValue hGap⟩, hAfter⟩
  · exact ⟨name ++ (back ++ 58 :: (before ++ (bytes ++ (gap ++ 44 :: inside)))), more, by simp,
      ⟨_, .members isBlank_nil hKey hBack hBefore hValue hGap hMembers⟩, hAfter⟩

end Follows

/-! ## Documents -/

namespace State

/-- What takes a state to the end of a document. -/
def Closes (s : State) (rest : List UInt8) : Prop :=
  match s.mode with
  | .value => FollowsGap (StartsValue (Follows s.frames)) rest
  | .arrayStart => FollowsOpening IsItems 93 (Follows s.frames) rest
  | .arrayItem _ => Fills IsItems 93 (Follows s.frames) rest
  | .arrayNext _ => FollowsPart IsItems 93 (Follows s.frames) rest
  | .objectStart => FollowsOpening IsMembers 125 (Follows s.frames) rest
  | .objectKey _ => Fills IsMembers 125 (Follows s.frames) rest
  | .key _ t => Fills t.Closes 34 (FollowsKey (FollowsPart IsMembers 125 (Follows s.frames))) rest
  | .colon _ _ => FollowsKey (FollowsPart IsMembers 125 (Follows s.frames)) rest
  | .objectNext _ => FollowsPart IsMembers 125 (Follows s.frames) rest
  | .word toCome _ => ∃ more, rest = toCome ++ more ∧ Follows s.frames more
  | .number n => ∃ bytes more, rest = bytes ++ more ∧ n.Closes bytes ∧ Follows s.frames more
  | .string t => Fills t.Closes 34 (Follows s.frames) rest
  | .finished _ => IsBlank rest

variable {s t : State} {frames : List Frame} {taken : Nat} {byte : UInt8} {rest : List UInt8} {v : Value}

private theorem closes_complete : (complete frames v).Closes rest ↔ Follows frames rest := by
  cases frames with
  | nil => rfl
  | cons frame outer => cases frame <;> rfl

/-- A state in which a part of a document is complete. -/
inductive IsSettled : State → Prop where
  | item (items : List Value) (frames : List Frame) : IsSettled ⟨.arrayNext items, frames⟩
  | member (members : Members) (frames : List Frame) : IsSettled ⟨.objectNext members, frames⟩
  | document (v : Value) (frames : List Frame) : IsSettled ⟨.finished v, frames⟩

private theorem isSettled_complete : (complete frames v).IsSettled := by
  cases frames with
  | nil => exact .document v []
  | cons frame outer =>
      cases frame with
      | array items => exact .item _ _
      | object members key => exact .member _ _

/-- In front of a token a blank changes nothing. -/
private theorem closes_of_token {next : Except Fault State}
    (hStep : (if isSpace byte then .ok s else next) = .ok t) (h : t.Closes rest)
    (hBlank : isSpace byte = true → s.Closes rest → s.Closes (byte :: rest))
    (hToken : next = .ok t → s.Closes (byte :: rest)) : s.Closes (byte :: rest) := by
  split at hStep
  · next hSpace =>
      cases hStep
      exact hBlank hSpace h
  · exact hToken hStep

/-- Behind a part of a container comes a comma with another part, or the closing bracket. -/
private theorem followsPart_of_step {IsInside After : List UInt8 → Prop} {bracket : UInt8}
    {another closed : State} {fault : Fault}
    (hStep : (if byte = 44 then .ok another else if byte = bracket then .ok closed else .error fault) =
      Except.ok t)
    (h : t.Closes rest) (hAnother : another.Closes rest → Fills IsInside bracket After rest)
    (hClosed : closed.Closes rest → After rest) : FollowsPart IsInside bracket After (byte :: rest) := by
  split at hStep
  · next hComma =>
      cases hStep
      exact .here ⟨byte, rest, rfl, .inr ⟨hComma, hAnother h⟩⟩
  · split at hStep
    · next hBracket =>
        cases hStep
        exact .here ⟨byte, rest, rfl, .inl ⟨hBracket, hClosed h⟩⟩
    · cases hStep

private theorem closes_of_between (hSettled : s.IsSettled) (hStep : between s taken byte = .ok t)
    (h : t.Closes rest) : s.Closes (byte :: rest) := by
  cases hSettled with
  | item items frames =>
      refine closes_of_token hStep h FollowsGap.space fun hStep => ?_
      exact followsPart_of_step hStep h id closes_complete.1
  | member members frames =>
      refine closes_of_token hStep h FollowsGap.space fun hStep => ?_
      exact followsPart_of_step hStep h id closes_complete.1
  | document v frames =>
      refine closes_of_token hStep h (fun hSpace hRest => List.forall_mem_cons.2 ⟨hSpace, hRest⟩) ?_
      exact nofun

/-! ### Values -/

private theorem spellsNumber_of_closes {n : NumberState} {bytes : List UInt8}
    (hFirst : NumberState.begin? byte = some n) (h : n.Closes bytes) :
    ∃ v, SpellsNumber v (byte :: bytes) := by
  obtain ⟨m, v, hLeads, hValue⟩ := h
  exact ⟨v, spellsNumber_iff.2 ⟨byte, bytes, n, m, rfl, hFirst, NumberState.leads_anywhere hLeads 1, hValue⟩⟩

private theorem spellsString_of_closes {inner : List UInt8} (h : StringState.start.Closes inner) :
    ∃ s, SpellsString s (34 :: (inner ++ [34])) := by
  obtain ⟨-, cs, hText⟩ := h
  refine ⟨String.ofList cs, inner, rfl, ?_⟩
  rwa [String.toList_ofList]

/-- A key and what follows it are the members that follow. -/
private theorem members_of_key {After : List UInt8 → Prop}
    (h : Fills StringState.start.Closes 34 (FollowsKey (FollowsPart IsMembers 125 After)) rest) :
    Fills IsMembers 125 After (34 :: rest) := by
  obtain ⟨inner, more, rfl, hInner, hMore⟩ := h
  obtain ⟨key, hKey⟩ := spellsString_of_closes hInner
  simpa using hMore.members hKey

private theorem startsValue_of_number {n : NumberState} (hFirst : NumberState.begin? byte = some n)
    (h : Closes ⟨.number n, frames⟩ rest) : StartsValue (Follows frames) (byte :: rest) := by
  obtain ⟨bytes, more, rfl, hNumber, hMore⟩ := h
  obtain ⟨v, hSpells⟩ := spellsNumber_of_closes hFirst hNumber
  exact ⟨v, byte :: bytes, more, rfl, .number hSpells, hMore⟩

private theorem startsValue_of_word {toCome : List UInt8} (hSpells : Spells (.value v) (byte :: toCome))
    (h : Closes ⟨.word toCome v, frames⟩ rest) : StartsValue (Follows frames) (byte :: rest) := by
  obtain ⟨more, rfl, hMore⟩ := h
  exact ⟨v, byte :: toCome, more, rfl, hSpells, hMore⟩

private theorem byte_of_char {c : Char} (h : Char.ofNat byte.toNat = c) : byte = UInt8.ofNat c.toNat := by
  have hByte : byte.toNat < 256 := byte.toNat_lt
  rw [← h, Text.Utf8.toNat_ofNat_of_valid (by omega), UInt8.ofNat_toNat]

/-- An opening bracket, what fills the brackets and the closing one are a value. -/
private theorem startsValue_of_fills {IsInside After : List UInt8 → Prop} {bracket : UInt8}
    (hSpells : ∀ {bytes}, IsInside bytes → ∃ v, Spells (.value v) (byte :: (bytes ++ [bracket])))
    (h : Fills IsInside bracket After rest) : StartsValue After (byte :: rest) := by
  obtain ⟨bytes, more, rfl, hBytes, hMore⟩ := h
  obtain ⟨v, hValue⟩ := hSpells hBytes
  exact ⟨v, byte :: (bytes ++ [bracket]), more, by simp, hValue, hMore⟩

private theorem startsValue_of_string (h : Closes ⟨.string StringState.start, frames⟩ rest) :
    StartsValue (Follows frames) (34 :: rest) := by
  refine startsValue_of_fills (fun hInner => ?_) h
  obtain ⟨s, hString⟩ := spellsString_of_closes hInner
  exact ⟨.string s, .string hString⟩

private theorem startsValue_of_array (h : Closes ⟨.arrayStart, frames⟩ rest) :
    StartsValue (Follows frames) (91 :: rest) := by
  obtain hBlank | hItems := h
  · exact startsValue_of_fills (fun hGap => ⟨_, .emptyArray hGap⟩) hBlank
  · exact startsValue_of_fills (fun ⟨_, hInside⟩ => ⟨_, .array hInside⟩) hItems

private theorem startsValue_of_object (h : Closes ⟨.objectStart, frames⟩ rest) :
    StartsValue (Follows frames) (123 :: rest) := by
  obtain hBlank | hMembers := h
  · exact startsValue_of_fills (fun hGap => ⟨_, .emptyObject hGap⟩) hBlank
  · exact startsValue_of_fills (fun ⟨_, hInside⟩ => ⟨_, .object hInside⟩) hMembers

private theorem eq_of_openContainer {mode : Mode} (h : openContainer frames taken mode = .ok t) :
    ⟨mode, frames⟩ = t := by
  unfold openContainer at h
  split at h
  · exact Except.ok.inj h
  · cases h

/-- A byte with which a value begins, and what follows the state behind it. -/
private theorem startsValue_of_begin (hBegin : begin frames taken byte = .ok t) (h : t.Closes rest) :
    StartsValue (Follows frames) (byte :: rest) := by
  unfold begin at hBegin
  split at hBegin
  · next d hDigit =>
      cases hBegin
      exact startsValue_of_number (by rw [NumberState.begin?, hDigit]) h
  · next hChar _ =>
      cases hBegin
      obtain rfl := byte_of_char hChar
      exact startsValue_of_number rfl h
  · next hChar _ =>
      cases hBegin
      obtain rfl := byte_of_char hChar
      exact startsValue_of_string h
  · next hChar _ =>
      obtain rfl := eq_of_openContainer hBegin
      obtain rfl := byte_of_char hChar
      exact startsValue_of_array h
  · next hChar _ =>
      obtain rfl := eq_of_openContainer hBegin
      obtain rfl := byte_of_char hChar
      exact startsValue_of_object h
  · next hChar _ =>
      cases hBegin
      obtain rfl := byte_of_char hChar
      exact startsValue_of_word .null h
  · next hChar _ =>
      cases hBegin
      obtain rfl := byte_of_char hChar
      exact startsValue_of_word .yes h
  · next hChar _ =>
      cases hBegin
      obtain rfl := byte_of_char hChar
      exact startsValue_of_word .no h
  · cases hBegin

/-! ### Steps -/

private theorem closes_of_word {toCome : List UInt8}
    (hStep : step ⟨.word toCome v, frames⟩ taken byte = .ok t) (h : t.Closes rest) :
    Closes ⟨.word toCome v, frames⟩ (byte :: rest) := by
  cases toCome with
  | nil => exact ⟨byte :: rest, rfl, closes_complete.1 (closes_of_between isSettled_complete hStep h)⟩
  | cons letter toCome =>
      simp only [step] at hStep
      split at hStep
      · next hLetter =>
          cases hStep
          cases toCome with
          | nil => exact ⟨rest, by rw [hLetter]; rfl, closes_complete.1 h⟩
          | cons next toCome =>
              obtain ⟨more, rfl, hMore⟩ := h
              exact ⟨more, by rw [hLetter]; rfl, hMore⟩
      · cases hStep

private theorem closes_of_number {n : NumberState} (hStep : step ⟨.number n, frames⟩ taken byte = .ok t)
    (h : t.Closes rest) : Closes ⟨.number n, frames⟩ (byte :: rest) := by
  simp only [step] at hStep
  split at hStep
  · next m hGoes =>
      cases hStep
      obtain ⟨bytes, more, rfl, ⟨last, v, hLeads, hValue⟩, hMore⟩ := h
      exact ⟨byte :: bytes, more, rfl, ⟨last, v, .next hGoes (NumberState.leads_anywhere hLeads 1), hValue⟩,
        hMore⟩
  · cases hStep
  · split at hStep
    · next v hValue =>
        have hFollows := closes_complete.1 (closes_of_between isSettled_complete hStep h)
        exact ⟨[], byte :: rest, rfl, ⟨n, v, .done, hValue⟩, hFollows⟩
    · cases hStep

/-- Inside a string a byte goes on with it or is its closing quote. -/
private theorem fills_of_string {After : List UInt8 → Prop} {u : StringState} {inside : StringState → State}
    {done : String → State}
    (hStep : (match u.step taken byte with
      | .goes v => .ok (inside v)
      | .ends text => .ok (done text)
      | .fails fault => .error fault) = Except.ok t)
    (h : t.Closes rest) (hInside : ∀ v, (inside v).Closes rest → Fills v.Closes 34 After rest)
    (hDone : ∀ text, (done text).Closes rest → After rest) : Fills u.Closes 34 After (byte :: rest) := by
  split at hStep
  · next v hGoes =>
      cases hStep
      obtain ⟨inner, more, rfl, hInner, hMore⟩ := hInside v h
      exact ⟨byte :: inner, more, rfl, StringState.closes_of_goes hGoes hInner, hMore⟩
  · next text hEnds =>
      cases hStep
      obtain ⟨rfl, hInner⟩ := StringState.closes_of_ends hEnds
      exact ⟨[], rest, rfl, hInner, hDone text h⟩
  · cases hStep

private theorem closes_of_arrayStart (hStep : step ⟨.arrayStart, frames⟩ taken byte = .ok t)
    (h : t.Closes rest) : Closes ⟨.arrayStart, frames⟩ (byte :: rest) := by
  refine closes_of_token hStep h (fun hSpace => FollowsOpening.space hSpace (IsItems.space hSpace)) ?_
  intro hStep
  split at hStep
  · next hBracket =>
      cases hStep
      subst hBracket
      exact .inl ⟨[], rest, rfl, isBlank_nil, closes_complete.1 h⟩
  · exact .inr (startsValue_of_begin hStep h).items

private theorem closes_of_arrayItem {items : List Value}
    (hStep : step ⟨.arrayItem items, frames⟩ taken byte = .ok t) (h : t.Closes rest) :
    Closes ⟨.arrayItem items, frames⟩ (byte :: rest) := by
  refine closes_of_token hStep h (fun hSpace => Fills.space (IsItems.space hSpace)) ?_
  intro hStep
  split at hStep
  · cases hStep
  · exact (startsValue_of_begin hStep h).items

private theorem closes_of_objectStart (hStep : step ⟨.objectStart, frames⟩ taken byte = .ok t)
    (h : t.Closes rest) : Closes ⟨.objectStart, frames⟩ (byte :: rest) := by
  refine closes_of_token hStep h (fun hSpace => FollowsOpening.space hSpace (IsMembers.space hSpace)) ?_
  intro hStep
  split at hStep
  · next hBracket =>
      cases hStep
      subst hBracket
      exact .inl ⟨[], rest, rfl, isBlank_nil, closes_complete.1 h⟩
  · split at hStep
    · next hQuote =>
        cases hStep
        subst hQuote
        exact .inr (members_of_key h)
    · cases hStep

private theorem closes_of_objectKey {members : Members}
    (hStep : step ⟨.objectKey members, frames⟩ taken byte = .ok t) (h : t.Closes rest) :
    Closes ⟨.objectKey members, frames⟩ (byte :: rest) := by
  refine closes_of_token hStep h (fun hSpace => Fills.space (IsMembers.space hSpace)) ?_
  intro hStep
  split at hStep
  · next hQuote =>
      cases hStep
      subst hQuote
      exact members_of_key h
  · split at hStep <;> cases hStep

private theorem closes_of_colon {members : Members} {key : String}
    (hStep : step ⟨.colon members key, frames⟩ taken byte = .ok t) (h : t.Closes rest) :
    Closes ⟨.colon members key, frames⟩ (byte :: rest) := by
  refine closes_of_token hStep h FollowsGap.space fun hStep => ?_
  split at hStep
  · next hColon =>
      cases hStep
      subst hColon
      exact .here ⟨rest, rfl, h⟩
  · cases hStep

/-- What follows the state behind a byte follows, behind the byte, the state in front of it. -/
theorem closes_of_step (hStep : s.step taken byte = .ok t) (h : t.Closes rest) : s.Closes (byte :: rest) := by
  obtain ⟨mode, frames⟩ := s
  cases mode with
  | value =>
      refine closes_of_token hStep h FollowsGap.space fun hBegin => ?_
      exact .here (startsValue_of_begin hBegin h)
  | arrayStart => exact closes_of_arrayStart hStep h
  | arrayItem items => exact closes_of_arrayItem hStep h
  | arrayNext items => exact closes_of_between (.item items frames) hStep h
  | objectStart => exact closes_of_objectStart hStep h
  | objectKey members => exact closes_of_objectKey hStep h
  | key members u => exact fills_of_string hStep h (fun _ => id) fun _ => id
  | colon members key => exact closes_of_colon hStep h
  | objectNext members => exact closes_of_between (.member members frames) hStep h
  | word toCome v => exact closes_of_word hStep h
  | number n => exact closes_of_number hStep h
  | string u => exact fills_of_string hStep h (fun _ => id) fun _ => closes_complete.1
  | finished v => exact closes_of_between (.document v frames) hStep h

theorem closes_of_finish (h : s.finish taken = .ok v) : s.Closes [] := by
  obtain ⟨mode, frames⟩ := s
  cases mode with
  | number n =>
      simp only [finish] at h
      cases hValue : n.value with
      | error defect =>
          rw [hValue] at h
          cases h
      | ok w =>
          rw [hValue] at h
          cases frames with
          | nil => exact ⟨[], [], rfl, ⟨n, w, .done, hValue⟩, isBlank_nil⟩
          | cons frame outer => cases frame <;> cases h
  | finished v => exact isBlank_nil
  | _ => cases h

/-- **A run that succeeds is over bytes that take its state to the end of a document.** -/
theorem closes_of_run {bytes : List UInt8} (h : s.run taken bytes = .ok v) : s.Closes bytes := by
  induction bytes generalizing s taken with
  | nil => exact closes_of_finish h
  | cons byte rest ih =>
      unfold run at h
      split at h
      · next t hStep => exact closes_of_step hStep (ih h)
      · cases h

end State

/-- **A body that is read spells a document.** -/
theorem exists_spelled_of_read {body : List UInt8} {v : Value} (h : read body = .ok v) :
    ∃ d : Value, d.Spelled body := by
  obtain ⟨before, _, rfl, hBefore, d, bytes, after, rfl, hValue, hAfter⟩ :=
    State.closes_of_run (read_eq_ok_iff.1 h)
  exact ⟨d, before, bytes, after, rfl, hBefore, hValue, hAfter⟩

/-- **What bodies are read**: those that spell a document in which containers are nested so deep at most. -/
theorem read_iff_spelled {body : List UInt8} {v : Value} :
    read body = .ok v ↔ ∃ d : Value, d.Spelled body ∧ d.depth ≤ depthLimit ∧ d.sorted = v := by
  constructor
  · intro h
    obtain ⟨d, hSpelled⟩ := exists_spelled_of_read h
    exact ⟨d, hSpelled, (read_spelled_iff hSpelled).1 h⟩
  · rintro ⟨d, hSpelled, hFits⟩
    exact (read_spelled_iff hSpelled).2 hFits

end ControlClient.Json
