import ControlClient.CommandLine.Read
import Mathlib.Data.List.Nodup

/-!
# What was given

A command is made from the values of its arguments, each looked up on its own. So of the order in which
arguments were given only the order of the values of one argument counts, and arguments that were given
once each may be given in any order.

## Main results

* `values_eq_of_perm`: arguments that were given once each have the same values in any order.
* `command_congr`: the same values make the same command.
* `settingsOf_eq_append`, `settingsOf_congr`: the settings are made from what both levels give.
-/

namespace ControlClient.CommandLine

/-- Whether an argument can be given in every level. -/
def Arg.isGlobal (a : Arg) : Bool := globalOptions.any (·.arg = a)

/-- If one of two levels does not give the address, and yet both can have it, the variable is text. -/
theorem Environment.isText_of_serves {env : Environment} {g h : Given}
    (hApart : g.has .url = false ∨ h.has .url = false) (hFirst : env.Serves g) (hSecond : env.Serves h) :
    env.isText = true := by
  rcases hApart with hNone | hNone
  · exact hFirst.resolve_left (by simp [hNone])
  · exact hSecond.resolve_left (by simp [hNone])

namespace Given

variable {g h : Given} {a : Arg}

/-! ## Looking up -/

@[simp] theorem values_append (g h : Given) (a : Arg) :
    Given.values (g ++ h) a = Given.values g a ++ Given.values h a := by
  simp [Given.values]

/-- Some arguments keep their values if the others are left out. -/
theorem values_filter (P : Arg → Bool) (g : Given) (a : Arg) :
    Given.values (g.filter (P ·.1)) a = if P a then g.values a else [] := by
  unfold Given.values
  rw [List.filter_filter]
  split
  · rename_i hP
    congr 1
    apply List.filter_congr
    intro e _
    by_cases hArg : e.1 = a <;> simp [hArg, hP]
  · rename_i hP
    rw [List.filter_eq_nil_iff.2, List.map_nil]
    intro e _
    by_cases hArg : e.1 = a <;> simp [hArg, hP]

theorem value?_eq_head? (g : Given) (a : Arg) : g.value? a = (g.values a).head? := by
  rw [Given.value?, Given.values, List.head?_map, List.head?_filter]

theorem has_eq_isEmpty (g : Given) (a : Arg) : g.has a = !(g.values a).isEmpty := by
  induction g with
  | nil => rfl
  | cons e rest ih =>
      rw [Given.has, Given.values] at ih ⊢
      by_cases hEq : e.1 = a <;> simp_all

theorem has_append (g h : Given) (a : Arg) : Given.has (g ++ h) a = (g.has a || h.has a) := by
  simp [Given.has]

/-- What was not given has no value. -/
theorem has_eq_false_iff : g.has a = false ↔ a ∉ g.map (·.1) := by
  rw [Given.has, List.any_eq_false, List.mem_map, not_exists]
  exact forall_congr' fun e => by simp

/-! ## Single arguments -/

/-- An argument that is given unless its value is the default. -/
def unlessDefault (isDefault : Prop) [Decidable isDefault] (a : Arg) (d : Datum) : Given :=
  if isDefault then [] else [(a, d)]

/-- A text that is given unless it is empty. -/
def ofText (a : Arg) (s : String) : Given := unlessDefault (s = "") a (.text s)

/-- An argument that is given if it has a value. -/
def ofOption {α : Type} (a : Arg) (datum : α → Datum) (value? : Option α) : Given :=
  (value?.map fun v => (a, datum v)).toList

section Values

variable {isDefault : Prop} [Decidable isDefault] {b : Arg}

@[simp] theorem values_unlessDefault (d : Datum) :
    (unlessDefault isDefault a d).values b = if a = b ∧ ¬isDefault then [d] else [] := by
  unfold unlessDefault values
  by_cases hDefault : isDefault
  · simp [hDefault]
  · by_cases hEq : a = b <;> simp [hDefault, hEq]

@[simp] theorem values_ofText (s : String) :
    (ofText a s).values b = if a = b ∧ s ≠ "" then [.text s] else [] :=
  values_unlessDefault _

@[simp] theorem values_ofOption {α : Type} (datum : α → Datum) (value? : Option α) :
    (ofOption a datum value?).values b = if a = b then (value?.map datum).toList else [] := by
  unfold ofOption values
  cases value? with
  | none => simp
  | some v => by_cases hEq : a = b <;> simp [hEq]

@[simp] theorem values_nil : Given.values [] b = [] := rfl

@[simp] theorem values_singleton (d : Datum) : Given.values [(a, d)] b = if a = b then [d] else [] := by
  by_cases hEq : a = b <;> simp [Given.values, hEq]

theorem values_map (data : List Datum) :
    Given.values (data.map (a, ·)) b = if a = b then data else [] := by
  by_cases hEq : a = b <;> simp [Given.values, List.filter_map, Function.comp_def, hEq]

@[simp] theorem values_texts (names : List String) :
    Given.values (names.map fun name => (a, .text name)) b = if a = b then names.map .text else [] := by
  rw [← values_map, List.map_map]
  rfl

end Values

theorem args_unlessDefault_sublist (isDefault : Prop) [Decidable isDefault] (a : Arg) (d : Datum) :
    ((unlessDefault isDefault a d).map (·.1)).Sublist [a] := by
  unfold unlessDefault
  split
  · exact List.nil_sublist _
  · exact List.Sublist.refl _

theorem args_ofOption_sublist {α : Type} (a : Arg) (datum : α → Datum) (value? : Option α) :
    ((ofOption a datum value?).map (·.1)).Sublist [a] := by
  cases value? with
  | none => exact List.nil_sublist _
  | some v => exact List.Sublist.refl _

/-! ## Order -/

/-- An argument that was given once has at most one value. -/
theorem length_values_le (hOnce : (g.map (·.1)).Nodup) (a : Arg) :
    (g.values a).length ≤ 1 := by
  have hCount := List.nodup_iff_count_le_one.1 hOnce a
  rw [List.count, List.countP_map, List.countP_eq_length_filter] at hCount
  have hSame : (fun e : Arg × Datum => decide (e.1 = a)) = (· == a) ∘ (·.1) := by
    funext e
    exact (beq_eq_decide e.1 a).symm
  rwa [Given.values, List.length_map, hSame]

/-- At most one value is the same in any order. -/
theorem eq_of_perm_of_length_le {data others : List Datum} (hPerm : data.Perm others)
    (hLength : data.length ≤ 1) : data = others := by
  cases data with
  | nil => exact (List.nil_perm.1 hPerm).symm
  | cons d rest =>
      rw [List.length_cons] at hLength
      obtain rfl : rest = [] := List.length_eq_zero_iff.1 (by omega)
      exact List.singleton_perm.1 hPerm

/-- **Arguments that were given once each have the same values in any order.** -/
theorem values_eq_of_perm (hPerm : g.Perm h) (hOnce : (g.map (·.1)).Nodup) (a : Arg) :
    g.values a = h.values a :=
  eq_of_perm_of_length_le ((hPerm.filter _).map _) (length_values_le hOnce a)

/-- **The same values make the same command**, whatever the options of all levels are. -/
theorem command_congr (hValues : ∀ a, a.isGlobal = false → g.values a = h.values a) (c : CommandName) :
    g.command c = h.command c := by
  have hValue : ∀ a, a.isGlobal = false → g.value? a = h.value? a := by
    intro a ha
    rw [value?_eq_head?, value?_eq_head?, hValues a ha]
  have hHas : ∀ a, a.isGlobal = false → g.has a = h.has a := by
    intro a ha
    rw [has_eq_isEmpty, has_eq_isEmpty, hValues a ha]
  have hText : ∀ a, a.isGlobal = false → g.textOf a = h.textOf a := by
    intro a ha
    rw [textOf, textOf, hValue a ha]
  have hTexts : ∀ a, a.isGlobal = false → g.textsOf a = h.textsOf a := by
    intro a ha
    rw [textsOf, textsOf, hValues a ha]
  have hType : g.type? = h.type? := by
    rw [type?, type?, hValue _ rfl]
  cases c <;> simp (disch := decide) only [command, recordOptions, hValue, hHas, hText, hTexts, hType]

/-! ## Settings -/

/-- The values of the later level that has any. -/
private theorem values_later (g h : Given) (a : Arg) :
    Given.values (if h.has a then h else g) a = if h.values a = [] then g.values a else h.values a := by
  by_cases hNone : h.values a = [] <;> simp [has_eq_isEmpty, hNone]

/-- **An option that one level gives counts as if it stood in the other one.** -/
theorem settingsOf_eq_append (env : Environment)
    (hApart : ∀ o ∈ globalOptions, g.has o.arg = false ∨ h.has o.arg = false) :
    settingsOf env g h = settingsOf env [] (g ++ h) := by
  have hValues : ∀ o ∈ globalOptions, g.values o.arg = [] ∨ h.values o.arg = [] := by
    intro o ho
    simpa [has_eq_isEmpty] using hApart o ho
  have hValue : ∀ o ∈ globalOptions, (h.value? o.arg).or (g.value? o.arg) =
      (Given.value? (g ++ h) o.arg).or (Given.value? [] o.arg) := by
    intro o ho
    rcases hValues o ho with hNone | hNone <;> simp [value?_eq_head?, values_append, hNone]
  have hUrl := hValue _ (.head _)
  have hOutput := hValue _ (.tail _ (.head _))
  have hDebug : h.values .debug = [] ∨ g.values .debug = [] :=
    (hValues _ (.tail _ (.tail _ (.tail _ (.head _))))).symm
  dsimp only at hUrl hOutput
  simp only [settingsOf, hUrl, hOutput, values_later]
  congr 1
  · simp [Given.has]
  · rcases hDebug with hNone | hNone
    · by_cases hBefore : g.values .debug = [] <;> simp [values_append, hNone, hBefore]
    · by_cases hAfter : h.values .debug = [] <;> simp [values_append, hNone, hAfter]

/-- **The values of the options of all levels make the settings**, of the one that counts their number. -/
theorem settingsOf_congr (env : Environment)
    (hValues : ∀ a, a.isGlobal → a ≠ .debug → g.values a = h.values a)
    (hCount : (g.values .debug).length = (h.values .debug).length) :
    settingsOf env [] g = settingsOf env [] h := by
  have hUrl : g.value? .url = h.value? .url := by
    rw [value?_eq_head?, value?_eq_head?, hValues .url rfl (by decide)]
  have hOutput : g.value? .output = h.value? .output := by
    rw [value?_eq_head?, value?_eq_head?, hValues .output rfl (by decide)]
  have hJson : g.has .json = h.has .json := by
    rw [has_eq_isEmpty, has_eq_isEmpty, hValues .json rfl (by decide)]
  have hLater : ∀ k : Given,
      (Given.values (if k.has .debug then k else []) .debug).length = (k.values .debug).length := by
    intro k
    by_cases hNone : k.values .debug = [] <;> simp [values_later, hNone]
  simp only [settingsOf, hUrl, hOutput, hJson, hLater, hCount]

end Given

end ControlClient.CommandLine
