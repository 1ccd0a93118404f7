import ControlClient.Proofs.Text.Split
import ControlClient.Request

/-!
# The filter of a listing

A listing is asked for with one value, the names with commas between them, so the service sees the text
between two commas and not where one name ends and the next one starts. What it can tell apart are the
pieces of the names: a name that holds a comma stands for the names that the comma separates. One more list
of names is lost in the value, that of a single name without characters, whose value is empty like the one of
no names at all.

## Main results

* `splitAll_joinNames`: the pieces of the value are those of the names.
* `pieces_of_filter`: what a value says about the names.
* `filters_collide`: lists of names with one value.
-/

namespace ControlClient

open Text (joinWith splitAll)

/-- The pieces of names that are cut at their commas. -/
def namePieces (names : List String) : List (List Char) :=
  names.flatMap fun name => splitAll ',' name.toList

/-! ## Joined names -/

private theorem intercalate_eq_joinWith (pieces : List (List Char)) :
    [','].intercalate pieces = joinWith ',' pieces := by
  induction pieces with
  | nil => rfl
  | cons piece rest ih =>
      cases rest with
      | nil => simp [joinWith]
      | cons next others =>
          rw [List.intercalate_cons_cons, ih, Text.joinWith_cons_cons, List.append_assoc]
          rfl

theorem toList_joinNames (names : List String) :
    (joinNames names).toList = joinWith ',' (names.map String.toList) := by
  rw [joinNames, String.toList_intercalate]
  exact intercalate_eq_joinWith _

/-- **The pieces of the value are those of the names.** -/
theorem splitAll_joinNames {names : List String} (hSome : names ≠ []) :
    splitAll ',' (joinNames names).toList = namePieces names := by
  rw [toList_joinNames, Text.splitAll_joinWith_flatMap ',' (by simpa using hSome), List.flatMap_map]
  rfl

/-- The value is empty only without names, or with a single one without characters. -/
theorem joinNames_eq_empty {names : List String} (h : joinNames names = "") :
    names = [] ∨ names = [""] := by
  have hText := toList_joinNames names
  rw [h] at hText
  cases names with
  | nil => exact .inl rfl
  | cons name rest =>
      cases rest with
      | nil =>
          have hName : name.toList = "".toList := hText.symm
          rw [String.toList_inj.1 hName]
          exact .inr rfl
      | cons next others => simp [joinWith] at hText

theorem namePieces_eq_nil {names : List String} (h : namePieces names = []) : names = [] := by
  cases names with
  | nil => rfl
  | cons name rest =>
      rw [namePieces, List.flatMap_cons, List.append_eq_nil_iff] at h
      exact absurd h.1 (Text.splitAll_ne_nil ',' _)

/-- Names without commas are their pieces. -/
theorem namePieces_of_not_mem {names : List String} (h : ∀ name ∈ names, ',' ∉ name.toList) :
    namePieces names = names.map String.toList := by
  have hPieces : ∀ piece ∈ names.map String.toList, ',' ∉ piece := by
    intro piece hPiece
    obtain ⟨name, hName, rfl⟩ := List.mem_map.1 hPiece
    exact h name hName
  rw [← Text.flatMap_splitAll_of_not_mem hPieces, List.flatMap_map]
  rfl

/-- Names with the same pieces have one value. -/
theorem joinNames_of_namePieces {a b : List String} (h : namePieces a = namePieces b) :
    joinNames a = joinNames b := by
  by_cases ha : a = []
  · subst ha
    rw [namePieces_eq_nil h.symm]
  · have hb : b ≠ [] := by
      rintro rfl
      exact ha (namePieces_eq_nil h)
    apply String.toList_inj.1
    rw [← Text.joinWith_splitAll ',' (joinNames a).toList, splitAll_joinNames ha, h,
      ← splitAll_joinNames hb, Text.joinWith_splitAll]

/-- Names with one value have the same pieces, unless one list is empty. -/
theorem namePieces_of_joinNames {a b : List String} (h : joinNames a = joinNames b) :
    namePieces a = namePieces b ∨ a = [] ∧ b = [""] ∨ a = [""] ∧ b = [] := by
  by_cases ha : a = []
  · subst ha
    rcases joinNames_eq_empty h.symm with rfl | rfl
    · exact .inl rfl
    · exact .inr (.inl ⟨rfl, rfl⟩)
  · by_cases hb : b = []
    · subst hb
      exact .inr (.inr ⟨(joinNames_eq_empty h).resolve_left ha, rfl⟩)
    · exact .inl (by rw [← splitAll_joinNames ha, h, splitAll_joinNames hb])

/-! ## Requests -/

namespace Operation

private theorem pairs_listing_iff (a b : List String) :
    ((listTasks a).request.pairs = (listTasks b).request.pairs ↔ joinNames a = joinNames b) ∧
      ((listRecordings a).request.pairs = (listRecordings b).request.pairs ↔
        joinNames a = joinNames b) := by
  simp [request]

/-- **What the filter of a listing says about its names.** Names with the same pieces are asked for by the
same pairs, for tasks as for recordings. From the pairs follow the pieces of the names, save that no names
and a single name without characters are not told apart by this; so names without commas follow from
the pairs, and a filter that means all is the one of no names, or of that single name. -/
theorem pieces_of_filter (a b : List String) :
    (namePieces a = namePieces b →
      (listTasks a).request.pairs = (listTasks b).request.pairs ∧
        (listRecordings a).request.pairs = (listRecordings b).request.pairs) ∧
    ((listTasks a).request.pairs = (listTasks b).request.pairs ∨
        (listRecordings a).request.pairs = (listRecordings b).request.pairs →
      (namePieces a = namePieces b ∨ a = [] ∧ b = [""] ∨ a = [""] ∧ b = []) ∧
      (a ≠ [""] → b ≠ [""] → (∀ name ∈ a ++ b, ',' ∉ name.toList) → a = b) ∧
      (b = [] → a = [] ∨ a = [""])) := by
  obtain ⟨hTasks, hRecordings⟩ := pairs_listing_iff a b
  rw [hTasks, hRecordings, or_self]
  constructor
  · intro h
    exact ⟨joinNames_of_namePieces h, joinNames_of_namePieces h⟩
  · intro h
    have hPieces := namePieces_of_joinNames h
    refine ⟨hPieces, ?_, ?_⟩
    · intro ha hb hCommas
      rcases hPieces with hSame | ⟨-, hOther⟩ | ⟨hOther, -⟩
      · rw [namePieces_of_not_mem fun name hName => hCommas name (List.mem_append_left _ hName),
          namePieces_of_not_mem fun name hName => hCommas name (List.mem_append_right _ hName)] at hSame
        exact List.map_injective_iff.2 (fun _ _ => String.toList_inj.1) hSame
      · exact absurd hOther hb
      · exact absurd hOther ha
    · rintro rfl
      exact joinNames_eq_empty h

/-- Three pieces in two lists of names, the same names in another order, and two names without
characters. -/
theorem pieces_of_filter_names :
    (listTasks ["a,b", ""]).request.pairs = (listTasks ["a", "b,"]).request.pairs ∧
      (listTasks ["a", "b"]).request.pairs ≠ (listTasks ["b", "a"]).request.pairs ∧
      (listRecordings ["", ""]).request.pairs ≠ (listRecordings []).request.pairs := by
  refine ⟨((pieces_of_filter _ _).1 (by decide)).1, fun hSame => ?_, fun hSame => ?_⟩
  · obtain ⟨-, hNames, -⟩ := (pieces_of_filter _ _).2 (.inl hSame)
    exact absurd (hNames (by decide) (by decide) (by decide)) (by decide)
  · obtain ⟨-, -, hAll⟩ := (pieces_of_filter _ _).2 (.inr hSame)
    exact absurd (hAll rfl) (by decide)

/-- **Lists of names with one value**: a comma in a name counts as one between names, and a single name
without characters as none. -/
theorem filters_collide :
    (listTasks ["a,b"]).request.pairs = (listTasks ["a", "b"]).request.pairs ∧
      (listRecordings ["a,b"]).request.pairs = (listRecordings ["a", "b"]).request.pairs ∧
      ["a,b"] ≠ ["a", "b"] ∧
      (listTasks [""]).request.pairs = (listTasks []).request.pairs ∧
      (listRecordings [""]).request.pairs = (listRecordings []).request.pairs ∧
      [""] ≠ ([] : List String) := by
  decide +kernel

end Operation

end ControlClient
