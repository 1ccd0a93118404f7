import ControlClient.Proofs.Text.Split
import ControlClient.Url.Address
import Mathlib

/-!
# Internet addresses read back

Both kinds of address are written so that reading gives the same address: the short kind in four
decimal parts, the long kind with the first of its longest runs of zeros left out. The long kind is
read group by group, so its lemmas follow the list of groups, with whatever stands behind them.

## Main results

* `ipv4?_ipv4Text`, `ipv4?_lt`: a short address reads back, and has 32 bits.
* `ipv6?_ipv6Text`, `ipv6?_groups`: a long address reads back, and has eight groups of 16 bits.
-/

namespace ControlClient.Url

/-! ## Numerals -/

theorem hexDigitValue?_digitChar {d : Nat} (h : d < 16) : hexDigitValue? (Nat.digitChar d) = some d := by
  have hAll : ∀ e < 16, hexDigitValue? (Nat.digitChar e) = some e := by decide
  exact hAll d h

private theorem numberIn?_append_singleton (base : Nat) (cs : List Char) (c : Char) :
    numberIn? base (cs ++ [c]) = (numberIn? base cs).bind fun n =>
      (hexDigitValue? c).bind fun d => if d < base then some (n * base + d) else none := by
  simp [numberIn?, List.foldlM_append]

/-- A numeral reads back in its base. -/
theorem numberIn?_toDigits {base : Nat} (hLow : 1 < base) (hHigh : base ≤ 16) (n : Nat) :
    numberIn? base (Nat.toDigits base n) = some n := by
  induction n using Nat.strongRecOn with
  | _ n ih =>
      rw [Nat.toDigits_eq_if hLow]
      split
      · next hLt =>
          simp [numberIn?, hexDigitValue?_digitChar (show n < 16 by omega), hLt]
      · next hGe =>
          have hMod : n % base < base := Nat.mod_lt _ (by omega)
          have hDiv : n / base < n := Nat.div_lt_self (by omega) hLow
          rw [numberIn?_append_singleton, ih _ hDiv, Option.bind_some,
            hexDigitValue?_digitChar (by omega), Option.bind_some, if_pos hMod]
          rw [Nat.mul_comm, Nat.div_add_mod]

/-- The digits of a numeral to base 16 are digits. -/
theorem exists_digit_of_mem_toDigits {n : Nat} {c : Char} (h : c ∈ Nat.toDigits 16 n) :
    ∃ d < 16, c = Nat.digitChar d := by
  induction n using Nat.strongRecOn with
  | _ n ih =>
      rw [Nat.toDigits_eq_if (by decide)] at h
      split at h
      · next hLt => exact ⟨n, hLt, by simpa using h⟩
      · next hGe =>
          rcases List.mem_append.mp h with hFront | hLast
          · exact ih _ (Nat.div_lt_self (by omega) (by decide)) hFront
          · exact ⟨n % 16, Nat.mod_lt _ (by decide), by simpa using hLast⟩

private theorem numberIn?_lt {base : Nat} {cs : List Char} {n m : Nat}
    (h : cs.foldlM (fun n c => do
      let digit ← hexDigitValue? c
      if digit < base then some (n * base + digit) else none) m = some n) :
    n < (m + 1) * base ^ cs.length := by
  induction cs generalizing m with
  | nil =>
      cases h
      simp
  | cons c cs ih =>
      rw [List.foldlM_cons] at h
      simp only [Option.bind_eq_bind, Option.bind_eq_some_iff] at h
      obtain ⟨k, ⟨digit, -, hStep⟩, hRest⟩ := h
      split at hStep
      · next hLt =>
          cases hStep
          refine Nat.lt_of_lt_of_le (ih hRest) ?_
          rw [List.length_cons, Nat.pow_succ', ← Nat.mul_assoc]
          refine Nat.mul_le_mul_right _ ?_
          rw [Nat.add_mul]
          omega
      · cases hStep

/-! ## Four bytes -/

/-- A part of a short address reads back as it is written. -/
theorem addressPart?_digits {n : Nat} (h : n < 256) : addressPart? (Text.digits n) = some n := by
  have hAll : ∀ n < 256, addressPart? (Text.digits n) = some n := by decide +kernel
  exact hAll n h

/-- The parts that a short address is written in. -/
def addressParts (address : Nat) : List Nat :=
  [address / 0x1000000 % 256, address / 0x10000 % 256, address / 0x100 % 256, address % 256]

theorem ipv4Text_eq (address : Nat) :
    ipv4Text address = Text.joinWith '.' ((addressParts address).map Text.digits) := by
  simp [ipv4Text, addressParts, Text.joinWith]

theorem isDigit_ne_dot {c : Char} (h : c.isDigit = true) : c ≠ '.' := by
  rintro rfl
  exact absurd h (by decide)

private theorem dottedParts_ipv4Text (address : Nat) :
    dottedParts (ipv4Text address) = (addressParts address).map Text.digits := by
  have hSplit : Text.splitAll '.' (ipv4Text address) = (addressParts address).map Text.digits := by
    rw [ipv4Text_eq]
    refine Text.splitAll_joinWith (by simp [addressParts]) fun piece hp hDot => ?_
    obtain ⟨n, -, rfl⟩ := List.mem_map.mp hp
    exact isDigit_ne_dot (Text.isDigit_of_mem_digits hDot) rfl
  simp [dottedParts, hSplit, addressParts, Text.digits_ne_nil]

private theorem mapM_addressPart? {ns : List Nat} (h : ∀ n ∈ ns, n < 256) :
    (ns.map Text.digits).mapM addressPart? = some ns := by
  induction ns with
  | nil => rfl
  | cons n rest ih =>
      rw [List.map_cons, List.mapM_cons, addressPart?_digits (h n (by simp)),
        ih fun m hm => h m (by simp [hm])]
      rfl

private theorem addressParts_lt {address : Nat} : ∀ n ∈ addressParts address, n < 256 := by
  intro n hn
  simp only [addressParts, List.mem_cons, List.not_mem_nil, or_false] at hn
  omega

/-- **A short address reads back.** -/
theorem ipv4?_ipv4Text {address : Nat} (h : address < 2 ^ 32) :
    ipv4? (ipv4Text address) = some address := by
  have hRead : (dottedParts (ipv4Text address)).mapM addressPart? = some (addressParts address) := by
    rw [dottedParts_ipv4Text]
    exact mapM_addressPart? addressParts_lt
  have hSmall : ∀ n ∈ addressParts address, n < 256 := addressParts_lt
  have hLength : ¬ (dottedParts (ipv4Text address)).length > 4 := by
    simp [dottedParts_ipv4Text, addressParts]
  simp only [ipv4?, hRead, if_neg hLength, Option.bind_eq_bind, Option.bind_some]
  simp only [addressParts, List.mem_cons, forall_eq_or_imp, List.not_mem_nil, false_imp_iff,
    implies_true, and_true] at hSmall
  obtain ⟨h₁, h₂, h₃, h₄⟩ := hSmall
  simp [addressParts, h₁, h₂, h₃, h₄]
  omega

/-- The last part of a short address is a number. -/
theorem endsInNumber_ipv4Text (address : Nat) : endsInNumber (ipv4Text address) = true := by
  have hLast : (dottedParts (ipv4Text address)).getLast? = some (Text.digits (address % 256)) := by
    simp [dottedParts_ipv4Text, addressParts]
  have hPart : addressPart? (Text.digits (address % 256)) = some (address % 256) :=
    addressPart?_digits (Nat.mod_lt _ (by decide))
  simp [endsInNumber, hLast, hPart]

theorem mem_ipv4Text {address : Nat} {c : Char} (h : c ∈ ipv4Text address) :
    c.isDigit = true ∨ c = '.' := by
  rw [ipv4Text_eq] at h
  rcases Text.mem_joinWith h with hDot | ⟨piece, hp, hc⟩
  · exact .inr hDot
  · obtain ⟨n, -, rfl⟩ := List.mem_map.mp hp
    exact .inl (Text.isDigit_of_mem_digits hc)

private theorem foldl_bytes_lt {ns : List Nat} (h : ∀ n ∈ ns, n < 256) (m : Nat) :
    ns.foldl (fun n part => n * 256 + part) m < (m + 1) * 256 ^ ns.length := by
  induction ns generalizing m with
  | nil => simp
  | cons n rest ih =>
      have hn : n < 256 := h n (by simp)
      refine Nat.lt_of_lt_of_le (ih (fun k hk => h k (by simp [hk])) _) ?_
      rw [List.length_cons, Nat.pow_succ', ← Nat.mul_assoc]
      refine Nat.mul_le_mul_right _ ?_
      dsimp only
      omega

/-- A short address has 32 bits. -/
theorem ipv4?_lt {cs : List Char} {address : Nat} (h : ipv4? cs = some address) :
    address < 2 ^ 32 := by
  simp only [ipv4?, Option.bind_eq_bind] at h
  split at h
  · cases h
  · next hParts =>
      simp only [Option.bind_eq_some_iff] at h
      obtain ⟨numbers, hNumbers, last, hLast, hAddress⟩ := h
      split at hAddress
      · next hSmall =>
          cases hAddress
          have hLength : numbers.length ≤ 4 := by
            rw [← (Text.mapM_eq_some_iff.mp hNumbers).length_eq]
            omega
          have hFront : numbers.dropLast.length ≤ 3 := by
            rw [List.length_dropLast]
            omega
          simp only [Bool.and_eq_true, List.all_eq_true, decide_eq_true_eq] at hSmall
          have hFold := foldl_bytes_lt hSmall.1 0
          rw [Nat.zero_add, Nat.one_mul] at hFold
          calc _ < (numbers.dropLast.foldl (fun n part => n * 256 + part) 0 + 1) *
                256 ^ (4 - numbers.dropLast.length) := by
                rw [Nat.add_mul, Nat.one_mul]
                exact Nat.add_lt_add_left hSmall.2 _
            _ ≤ 256 ^ numbers.dropLast.length * 256 ^ (4 - numbers.dropLast.length) :=
                Nat.mul_le_mul_right _ hFold
            _ = 256 ^ 4 := by
                rw [← Nat.pow_add, Nat.add_sub_cancel' (by omega)]
            _ = 2 ^ 32 := by decide
      · cases hAddress

/-! ## Eight groups -/

private theorem isHex_of_mem_groupText (group : Nat) :
    ∀ c ∈ groupText group, (hexDigitValue? c).isSome = true := by
  intro c hc
  obtain ⟨d, hd, rfl⟩ := exists_digit_of_mem_toDigits hc
  rw [hexDigitValue?_digitChar hd]
  rfl

private theorem groupText_length_le {group : Nat} (h : group < 2 ^ 16) :
    (groupText group).length ≤ 4 :=
  (Nat.length_toDigits_le_iff (by decide) (by decide)).mpr h

private theorem groupText_eq_cons (group : Nat) :
    ∃ c cs, groupText group = c :: cs ∧ c ≠ ':' := by
  obtain ⟨c, cs, hText⟩ := List.exists_cons_of_ne_nil (Nat.toDigits_ne_nil (n := group) (b := 16))
  refine ⟨c, cs, hText, ?_⟩
  rintro rfl
  have hHex := isHex_of_mem_groupText group ':' (by rw [groupText, hText]; simp)
  exact absurd hHex (by decide)

/-- Up to four digits are taken, and no more stand in front of a colon or of the end. -/
private theorem takeWhile_groupText {group : Nat} (h : group < 2 ^ 16) (after : List Char)
    (hAfter : ∀ c ∈ after.head?, c = ':') :
    ((groupText group ++ after).take 4).takeWhile (fun d => (hexDigitValue? d).isSome) =
      groupText group := by
  have hTake : (groupText group ++ after).take 4 =
      groupText group ++ after.take (4 - (groupText group).length) := by
    rw [List.take_append, List.take_of_length_le (groupText_length_le h)]
  rw [hTake, List.takeWhile_append_of_pos (isHex_of_mem_groupText group)]
  cases after with
  | nil => simp
  | cons c rest =>
      obtain rfl : c = ':' := hAfter c (by simp)
      cases 4 - (groupText group).length with
      | zero => simp
      | succ n =>
          have hColon : (hexDigitValue? ':').isSome = false := by decide
          simp [hColon]

section Groups

variable {turns group : Nat} {g : Groups}

/-- The last group. -/
private theorem readGroups_last (h : group < 2 ^ 16) (hRoom : g.groups.length < 8) :
    readGroups (turns + 1) g (groupText group) =
      Groups.fill { g with groups := g.groups ++ [group] } := by
  have hDigits := takeWhile_groupText h [] (by simp)
  obtain ⟨c, cs, hText, hc⟩ := groupText_eq_cons group
  have hNumber : numberIn? 16 (groupText group) = some group :=
    numberIn?_toDigits (by decide) (by decide) group
  rw [List.append_nil] at hDigits
  rw [hText] at hDigits hNumber ⊢
  simp only [readGroups, if_neg (Nat.not_le_of_lt hRoom), if_neg hc, hDigits, hNumber,
    List.drop_length, Option.getD_some]

/-- A group with a colon behind it. -/
private theorem readGroups_group (h : group < 2 ^ 16) (hRoom : g.groups.length < 8)
    {more : List Char} (hMore : more ≠ []) :
    readGroups (turns + 1) g (groupText group ++ ':' :: more) =
      readGroups turns { g with groups := g.groups ++ [group] } more := by
  have hDigits := takeWhile_groupText h (':' :: more) (by simp)
  have hDrop : (groupText group ++ ':' :: more).drop (groupText group).length = ':' :: more :=
    List.drop_left
  obtain ⟨c, cs, hText, hc⟩ := groupText_eq_cons group
  have hNumber : numberIn? 16 (groupText group) = some group :=
    numberIn?_toDigits (by decide) (by decide) group
  rw [hText, List.cons_append] at hDigits hDrop
  rw [hText] at hNumber ⊢
  have hIsEmpty : more.isEmpty = false := by simpa using hMore
  simp only [List.cons_append, readGroups, if_neg (Nat.not_le_of_lt hRoom), if_neg hc, hDigits,
    hDrop, hNumber, Option.getD_some, hIsEmpty, Bool.false_eq_true, if_false]

private theorem groupsText_cons_cons (group next : Nat) (rest : List Nat) :
    groupsText (group :: next :: rest) = groupText group ++ ':' :: groupsText (next :: rest) := rfl

private theorem groupsText_ne_nil (group : Nat) (rest : List Nat) :
    groupsText (group :: rest) ≠ [] := by
  obtain ⟨c, cs, hText, -⟩ := groupText_eq_cons group
  cases rest with
  | nil => simp [groupsText, hText]
  | cons next rest => simp [groupsText, hText]

/-- All groups that are left. -/
private theorem readGroups_groupsText (turns : Nat) {groups : List Nat}
    (hGroups : ∀ x ∈ groups, x < 2 ^ 16)
    (hRoom : g.groups.length + groups.length ≤ 8) (hTurns : groups.length ≤ turns) :
    readGroups turns g (groupsText groups) = Groups.fill { g with groups := g.groups ++ groups } := by
  induction groups generalizing turns g with
  | nil => cases turns <;> simp [groupsText, readGroups]
  | cons group rest ih =>
      simp only [List.length_cons] at hRoom hTurns
      obtain ⟨turns, rfl⟩ : ∃ n, turns = n + 1 := ⟨turns - 1, by omega⟩
      have hGroup : group < 2 ^ 16 := hGroups group (by simp)
      cases rest with
      | nil => exact readGroups_last hGroup (by omega)
      | cons next rest =>
          rw [groupsText_cons_cons, readGroups_group hGroup (by omega) (groupsText_ne_nil next rest),
            ih turns (fun x hx => hGroups x (List.mem_cons_of_mem _ hx))
              (by simp only [List.length_append, List.length_cons, List.length_nil] at hRoom ⊢; omega)
              (by omega)]
          simp

/-- Groups in front of a run of zeros that is left out. -/
private theorem readGroups_gap (turns : Nat) {groups : List Nat} (done : List Nat)
    (hNe : groups ≠ []) (hGroups : ∀ x ∈ groups, x < 2 ^ 16) (hRoom : done.length + groups.length < 8)
    (rest : List Char) :
    readGroups (turns + groups.length + 1) ⟨done, none⟩ (groupsText groups ++ ':' :: ':' :: rest) =
      readGroups turns ⟨done ++ groups ++ [0], some (done.length + groups.length + 1)⟩ rest := by
  induction groups generalizing done with
  | nil => exact absurd rfl hNe
  | cons group others ih =>
      have hGroup : group < 2 ^ 16 := hGroups group (by simp)
      simp only [List.length_cons] at hRoom
      have hDone : done.length < 8 := by omega
      cases others with
      | nil =>
          have hText : groupsText [group] = groupText group := rfl
          have hRoom' : ¬ (done ++ [group]).length ≥ 8 := by
            simp only [List.length_append, List.length_cons, List.length_nil] at hRoom ⊢
            omega
          rw [hText, readGroups_group hGroup hDone (by simp)]
          simp only [List.length_cons, List.length_nil, readGroups, if_neg hRoom', if_true,
            Option.isSome_none, Bool.false_eq_true, if_false]
          simp
      | cons next others =>
          rw [groupsText_cons_cons, List.append_assoc, List.cons_append,
            readGroups_group hGroup hDone (by simp)]
          have hNext := ih (done ++ [group]) (by simp)
            (fun x hx => hGroups x (List.mem_cons_of_mem _ hx))
            (by simp only [List.length_append, List.length_cons, List.length_nil] at hRoom ⊢; omega)
          simp only [List.length_append, List.length_cons, List.length_nil, List.append_assoc,
            List.singleton_append] at hNext ⊢
          rw [show turns + (others.length + 1 + 1) = turns + (others.length + 1) + 1 by omega, hNext]
          simp only [List.cons_append, Nat.add_comm, Nat.add_left_comm]

end Groups

/-! ## The run of zeros that is left out -/

/-- Where a run of zeros starts, and how long it is. -/
def IsRun (groups : List Nat) (run : Nat × Nat) : Prop :=
  groups.take run.1 ++ List.replicate run.2 0 ++ groups.drop (run.1 + run.2) = groups

private theorem isRun_takeWhile (groups : List Nat) (start : Nat) :
    IsRun groups (start, ((groups.drop start).takeWhile (· == 0)).length) := by
  generalize hTail : groups.drop start = tail
  have hZeros : List.replicate (tail.takeWhile (· == 0)).length 0 = tail.takeWhile (· == 0) := by
    refine (List.eq_replicate_of_mem fun x hx => ?_).symm
    simpa using List.mem_takeWhile_imp hx
  have hRest : groups.drop (start + (tail.takeWhile (· == 0)).length) =
      tail.dropWhile (· == 0) := by
    rw [← List.drop_drop, hTail]
    calc tail.drop (tail.takeWhile (· == 0)).length
        = (tail.takeWhile (· == 0) ++ tail.dropWhile (· == 0)).drop
            (tail.takeWhile (· == 0)).length := by rw [List.takeWhile_append_dropWhile]
      _ = tail.dropWhile (· == 0) := List.drop_left
  rw [IsRun, hZeros, hRest, List.append_assoc, List.takeWhile_append_dropWhile, ← hTail,
    List.take_append_drop]

/-- The groups are those in front of the run, zeros, and those behind it. -/
private theorem isRun_longestZeros (groups : List Nat) : IsRun groups (longestZeros groups) := by
  unfold longestZeros
  refine List.foldlRecOn (motive := IsRun groups) _ _ (by simp [IsRun]) fun best hBest start _ => ?_
  dsimp only
  split
  · exact isRun_takeWhile groups start
  · exact hBest

private theorem length_le_groupsText (groups : List Nat) :
    groups.length ≤ (groupsText groups).length := by
  induction groups with
  | nil => simp
  | cons group rest ih =>
      have hText : 1 ≤ (groupText group).length := Nat.length_toDigits_pos
      cases rest with
      | nil => simpa [groupsText] using hText
      | cons next rest =>
          rw [groupsText_cons_cons]
          simp only [List.length_append, List.length_cons] at ih ⊢
          omega

private theorem ipv6?_groupsText (group : Nat) (rest : List Nat) (after : List Char)
    (hAfter : 1 < (groupsText (group :: rest) ++ after).length) :
    ipv6? (groupsText (group :: rest) ++ after) =
      readGroups (groupsText (group :: rest) ++ after).length ⟨[], none⟩
        (groupsText (group :: rest) ++ after) := by
  obtain ⟨c, cs, hText, hc⟩ : ∃ c cs, groupsText (group :: rest) ++ after = c :: cs ∧ c ≠ ':' := by
    obtain ⟨c, cs, hText, hc⟩ := groupText_eq_cons group
    cases rest with
    | nil => exact ⟨c, cs ++ after, by simp [groupsText, hText], hc⟩
    | cons next rest => exact ⟨c, _, by rw [groupsText_cons_cons, hText]; rfl, hc⟩
  rw [hText] at hAfter ⊢
  cases cs with
  | nil => simp at hAfter
  | cons d cs =>
      unfold ipv6?
      split <;> simp_all

/-- What a long address is made of: eight groups of 16 bits. -/
def IsGroups (groups : List Nat) : Prop := groups.length = 8 ∧ ∀ x ∈ groups, x < 2 ^ 16

private theorem fill_gap (front back : List Nat) (h : front.length + back.length < 8) :
    Groups.fill ⟨front ++ [0] ++ back, some (front.length + 1)⟩ =
      some (front ++ List.replicate (8 - front.length - back.length) 0 ++ back) := by
  have hTake : (front ++ [0] ++ back).take (front.length + 1) = front ++ [0] :=
    List.take_left' (by simp)
  have hDrop : (front ++ [0] ++ back).drop (front.length + 1) = back :=
    List.drop_left' (by simp)
  have hCount : 8 - front.length - back.length = (8 - (front ++ [0] ++ back).length) + 1 := by
    simp only [List.length_append, List.length_cons, List.length_nil]
    omega
  simp only [Groups.fill]
  rw [hTake, hDrop, hCount, List.replicate_succ]
  simp

/-- All groups are written. -/
private theorem ipv6?_whole {groups : List Nat} (h : IsGroups groups) :
    ipv6? (groupsText groups) = some groups := by
  obtain ⟨hLength, hGroups⟩ := h
  cases groups with
  | nil => simp at hLength
  | cons group rest =>
      have hText := length_le_groupsText (group :: rest)
      have hRead := ipv6?_groupsText group rest [] (by
        rw [List.append_nil]
        omega)
      rw [List.append_nil] at hRead
      rw [hRead, readGroups_groupsText _ hGroups (by simp [hLength]) hText]
      simp [Groups.fill, hLength]

/-- Two colons stand for the groups that are left out. -/
private theorem ipv6?_gap {front back : List Nat} (hFront : ∀ x ∈ front, x < 2 ^ 16)
    (hBack : ∀ x ∈ back, x < 2 ^ 16) (hLength : front.length + back.length < 8) :
    ipv6? (groupsText front ++ [':', ':'] ++ groupsText back) =
      some (front ++ List.replicate (8 - front.length - back.length) 0 ++ back) := by
  have hFill := fill_gap front back hLength
  have hText := length_le_groupsText back
  cases front with
  | nil =>
      have hRead : ipv6? (groupsText [] ++ [':', ':'] ++ groupsText back) =
          readGroups ((groupsText back).length + 2) ⟨[0], some 1⟩ (groupsText back) := rfl
      simp only [List.length_nil] at hLength
      rw [hRead, readGroups_groupsText _ hBack (by simp only [List.length_cons, List.length_nil]; omega)
        (by omega), ← hFill]
      rfl
  | cons group rest =>
      have hLe := length_le_groupsText (group :: rest)
      rw [List.append_assoc]
      rw [ipv6?_groupsText group rest _ (by
        simp only [List.length_append, List.length_cons] at hLe ⊢
        omega)]
      simp only [List.cons_append, List.nil_append, List.length_append, List.length_cons]
      obtain ⟨turns, hTurns⟩ : ∃ turns, (groupsText (group :: rest)).length +
          ((groupsText back).length + 1 + 1) = turns + (group :: rest).length + 1 ∧
          back.length ≤ turns := by
        refine ⟨(groupsText (group :: rest)).length + ((groupsText back).length + 1 + 1) -
          ((group :: rest).length + 1), ?_, ?_⟩ <;>
        omega
      have hGap := readGroups_gap turns [] (by simp) hFront
        (by simp only [List.length_nil]; omega) (groupsText back)
      have hEnd := readGroups_groupsText turns
        (g := ⟨group :: rest ++ [0], some ((group :: rest).length + 1)⟩) hBack
        (by simp only [List.length_append, List.length_cons, List.length_nil] at hLength ⊢; omega)
        hTurns.2
      rw [List.nil_append, List.length_nil, Nat.zero_add, hEnd] at hGap
      rw [hTurns.1, hGap, ← List.cons_append, ← List.cons_append]
      simpa using hFill

/-- **A long address reads back.** -/
theorem ipv6?_ipv6Text {groups : List Nat} (h : IsGroups groups) :
    ipv6? (ipv6Text groups) = some groups := by
  have hWhole := ipv6?_whole h
  obtain ⟨hLength, hGroups⟩ := h
  have hRun := isRun_longestZeros groups
  unfold ipv6Text
  generalize longestZeros groups = run at hRun ⊢
  obtain ⟨start, count⟩ := run
  rw [IsRun] at hRun
  dsimp only at hRun ⊢
  split
  · exact hWhole
  · next hCount =>
      generalize groups.take start = front at hRun ⊢
      generalize groups.drop (start + count) = back at hRun ⊢
      subst hRun
      simp only [List.length_append, List.length_replicate] at hLength
      have hGap := ipv6?_gap (fun x hx => hGroups x (by simp [hx]))
        (fun x hx => hGroups x (by simp [hx])) (show front.length + back.length < 8 by omega)
      rwa [show 8 - front.length - back.length = count by omega] at hGap

theorem mem_ipv6Text {groups : List Nat} {c : Char} (h : c ∈ ipv6Text groups) :
    (∃ d < 16, c = Nat.digitChar d) ∨ c = ':' := by
  have hGroups : ∀ {gs : List Nat}, c ∈ groupsText gs → (∃ d < 16, c = Nat.digitChar d) ∨ c = ':' := by
    intro gs hc
    induction gs with
    | nil => simp [groupsText] at hc
    | cons group rest ih =>
        cases rest with
        | nil => exact .inl (exists_digit_of_mem_toDigits hc)
        | cons next rest =>
            rw [groupsText_cons_cons, List.mem_append, List.mem_cons] at hc
            rcases hc with hGroup | hColon | hRest
            · exact .inl (exists_digit_of_mem_toDigits hGroup)
            · exact .inr hColon
            · exact ih hRest
  unfold ipv6Text at h
  dsimp only at h
  split at h
  · exact hGroups h
  · simp only [List.mem_append, List.mem_cons, List.not_mem_nil, or_false, or_self] at h
    rcases h with (hFront | hColon) | hBack
    · exact hGroups hFront
    · exact .inr hColon
    · exact hGroups hBack

/-! ## What is read is an address -/

/-- Groups that leave room for eight and have 16 bits. -/
def Groups.Fits (g : Groups) : Prop := g.groups.length ≤ 8 ∧ ∀ x ∈ g.groups, x < 2 ^ 16

private theorem Groups.Fits.append {g : Groups} {more : List Nat} {gap? : Option Nat}
    (h : g.Fits) (hRoom : g.groups.length + more.length ≤ 8) (hMore : ∀ x ∈ more, x < 2 ^ 16) :
    (⟨g.groups ++ more, gap?⟩ : Groups).Fits := by
  refine ⟨by rwa [List.length_append], fun x hx => ?_⟩
  rcases List.mem_append.mp hx with hOld | hNew
  · exact h.2 x hOld
  · exact hMore x hNew

private theorem Groups.Fits.push {g : Groups} {group : Nat} (h : g.Fits) (gap? : Option Nat)
    (hRoom : g.groups.length < 8) (hGroup : group < 2 ^ 16) :
    (⟨g.groups ++ [group], gap?⟩ : Groups).Fits :=
  h.append hRoom fun _ hx => List.mem_singleton.mp hx ▸ hGroup

private theorem isGroups_fill {g : Groups} {groups : List Nat} (hFits : g.Fits)
    (h : g.fill = some groups) : IsGroups groups := by
  obtain ⟨hLength, hGroups⟩ := hFits
  unfold Groups.fill at h
  split at h
  · next gap =>
      cases h
      refine ⟨?_, fun x hx => ?_⟩
      · simp only [List.length_append, List.length_take, List.length_replicate, List.length_drop]
        omega
      · simp only [List.mem_append, List.mem_replicate] at hx
        rcases hx with (hTake | hZero) | hDrop
        · exact hGroups x (List.mem_of_mem_take hTake)
        · omega
        · exact hGroups x (List.mem_of_mem_drop hDrop)
  · split at h
    · next hEight =>
        cases h
        exact ⟨hEight, hGroups⟩
    · cases h

private theorem octet?_lt {cs : List Char} {n : Nat} (h : octet? cs = some n) : n < 256 := by
  unfold octet? at h
  split at h
  · cases h
  · next hSmall =>
      cases h
      simp only [Bool.or_eq_true, decide_eq_true_eq, not_or] at hSmall
      omega

private theorem embedded?_lt {cs : List Char} {pair : List Nat} (h : embedded? cs = some pair) :
    pair.length = 2 ∧ ∀ x ∈ pair, x < 2 ^ 16 := by
  unfold embedded? at h
  split at h
  · next a b c d hOctets =>
      cases h
      have hLt : ∀ x ∈ [a, b, c, d], x < 256 := by
        intro x hx
        obtain ⟨_, -, hOctet⟩ := Text.exists_of_mem_mapM hOctets hx
        exact octet?_lt hOctet
      simp only [List.mem_cons, forall_eq_or_imp, List.not_mem_nil, false_imp_iff, implies_true,
        and_true] at hLt
      refine ⟨rfl, ?_⟩
      simp only [List.mem_cons, forall_eq_or_imp, List.not_mem_nil, false_imp_iff, implies_true,
        and_true]
      omega
  · cases h

/-- The number of up to four digits. -/
private theorem numberIn?_getD_lt {digits : List Char} (h : digits.length ≤ 4) :
    (numberIn? 16 digits).getD 0 < 2 ^ 16 := by
  cases hValue : numberIn? 16 digits with
  | none => decide
  | some n =>
      have hLt := numberIn?_lt hValue
      rw [Nat.zero_add, Nat.one_mul] at hLt
      exact Nat.lt_of_lt_of_le hLt (Nat.pow_le_pow_right (by decide) h)

private theorem isGroups_readGroups {turns : Nat} {g : Groups} {cs : List Char} {groups : List Nat}
    (hFits : g.Fits) (h : readGroups turns g cs = some groups) : IsGroups groups := by
  induction turns generalizing g cs with
  | zero =>
      cases cs with
      | nil => exact isGroups_fill hFits h
      | cons c rest => simp [readGroups] at h
  | succ turns ih =>
      cases cs with
      | nil => exact isGroups_fill hFits h
      | cons c rest =>
          unfold readGroups at h
          split at h
          · cases h
          next hFull =>
          have hRoom : g.groups.length < 8 := Nat.lt_of_not_ge hFull
          split at h
          · split at h
            · cases h
            · exact ih (hFits.push _ hRoom (by decide)) h
          dsimp only at h
          have hTaken : (((c :: rest).take 4).takeWhile
              fun d => (hexDigitValue? d).isSome).length ≤ 4 :=
            Nat.le_trans (List.takeWhile_sublist _).length_le (List.length_take_le _ _)
          have hPush := hFits.push g.gap? hRoom (numberIn?_getD_lt hTaken)
          split at h
          · exact isGroups_fill hPush h
          · split at h
            · cases h
            · next hSix =>
                simp only [Option.bind_eq_bind, Option.bind_eq_some_iff] at h
                obtain ⟨pair, hPair, hFill⟩ := h
                obtain ⟨hTwo, hSmall⟩ := embedded?_lt hPair
                simp only [Bool.or_eq_true, decide_eq_true_eq, not_or] at hSix
                exact isGroups_fill (hFits.append (by omega) hSmall) hFill
          · split at h
            · cases h
            · exact ih hPush h
          · cases h

/-- A long address has eight groups of 16 bits. -/
theorem ipv6?_groups {cs : List Char} {groups : List Nat} (h : ipv6? cs = some groups) :
    IsGroups groups := by
  have hNone : (⟨[], none⟩ : Groups).Fits := by simp [Groups.Fits]
  have hGap : (⟨[0], some 1⟩ : Groups).Fits := by simp [Groups.Fits]
  unfold ipv6? at h
  split at h
  · exact isGroups_readGroups hGap h
  · cases h
  · cases h
  · cases h
  · exact isGroups_readGroups hNone h

end ControlClient.Url
