import Mathlib.Data.List.Basic
import ControlClient.Proofs.Json.Spelling

/-!
# Documents that look the same

A reader of records looks up the keys of its fields and passes over all others, so to such a reader an
object is what these keys hold. What is looked up where is its schema. Documents are alike under a
schema if one comes from the other by changes that the reader should not notice: members change places
where no two have the same key, and members come and go whose keys are not looked up there, at any
depth.

What a reader sees of a document is a document again, its view: the keys that are looked up in a fixed
order, each with the view of what it holds. The view leaves room for nothing else, so documents that are
alike are read as documents with one view.

## Main results

* `view_eq_of_alike`: alike documents have one view, as they are read.
-/

namespace ControlClient.Json

/-! ## Schemas -/

/-- What is looked up in a document: nothing in it, all items of a list, or the fields of a record, by
their keys in an object and by their places in an array. -/
inductive Schema where
  | leaf
  | list (item : Schema)
  | record (fields : List (String × Schema))

namespace Schema

/-- The keys that are looked up in an object. -/
def keys : Schema → List String
  | record fields => fields.map Prod.fst
  | _ => []

/-- What is looked up in what a key holds. -/
def field (key : String) : Schema → Schema
  | record fields => ((fields.find? fun f => f.1 = key).map Prod.snd).getD leaf
  | _ => leaf

/-- What is looked up in the item at a place of an array. -/
def item (i : Nat) : Schema → Schema
  | list item => item
  | record fields => (fields[i]?.map Prod.snd).getD leaf
  | leaf => leaf

end Schema

variable {schema : Schema} {keys : List String} {members others : Members} {key : String}

/-! ## Alike documents -/

/-- Documents that differ in the order of members and in members that are not looked up only. -/
inductive Alike : Schema → Value → Value → Prop where
  | refl (schema : Schema) (v : Value) : Alike schema v v
  | symm {schema : Schema} {v w : Value} (h : Alike schema v w) : Alike schema w v
  | trans {schema : Schema} {u v w : Value} (h : Alike schema u v) (hNext : Alike schema v w) :
      Alike schema u w
  | reordered {schema : Schema} {members others : List (String × Value)} (hPerm : members.Perm others)
      (hDistinct : (members.map Prod.fst).Nodup) : Alike schema (.object members) (.object others)
  | added {schema : Schema} (front back : List (String × Value)) {key : String} (v : Value)
      (hUnknown : key ∉ schema.keys) :
      Alike schema (.object (front ++ back)) (.object (front ++ (key, v) :: back))
  | item {schema : Schema} (front back : List Value) {v w : Value}
      (h : Alike (schema.item front.length) v w) :
      Alike schema (.array (front ++ v :: back)) (.array (front ++ w :: back))
  | member {schema : Schema} (front back : List (String × Value)) (key : String) {v w : Value}
      (h : Alike (schema.field key) v w) :
      Alike schema (.object (front ++ (key, v) :: back)) (.object (front ++ (key, w) :: back))

/-! ## What is seen of a document -/

/-- What keys hold, in the order of the keys. -/
def select (keys : List String) (members : Members) : Members :=
  keys.filterMap fun key => (get? key members).map (key, ·)

mutual

/-- A document with what is looked up only, in a fixed order. -/
def Value.view (schema : Schema) : Value → Value
  | .array items => .array (viewItems schema 0 items)
  | .object members => .object (select schema.keys (viewMembers schema members))
  | v => v

/-- The views of the items of an array, from a place on. -/
def viewItems (schema : Schema) (place : Nat) : List Value → List Value
  | [] => []
  | v :: rest => v.view (schema.item place) :: viewItems schema (place + 1) rest

/-- Members with the views of what they hold. -/
def viewMembers (schema : Schema) : List (String × Value) → Members
  | [] => []
  | (key, v) :: rest => (key, v.view (schema.field key)) :: viewMembers schema rest

end

theorem viewItems_append (place : Nat) (items more : List Value) :
    viewItems schema place (items ++ more) =
      viewItems schema place items ++ viewItems schema (place + items.length) more := by
  induction items generalizing place with
  | nil => rfl
  | cons v rest ih =>
      rw [List.cons_append, viewItems, viewItems, ih, List.cons_append, List.length_cons, Nat.add_right_comm,
        Nat.add_assoc]

theorem getElem?_viewItems (place i : Nat) (items : List Value) :
    (viewItems schema place items)[i]? = items[i]?.map (Value.view (schema.item (place + i))) := by
  induction items generalizing place i with
  | nil => simp [viewItems]
  | cons v rest ih =>
      cases i with
      | zero => rfl
      | succ i => rw [viewItems, List.getElem?_cons_succ, List.getElem?_cons_succ, ih, Nat.add_right_comm,
          Nat.add_assoc]

theorem length_viewItems (place : Nat) (items : List Value) :
    (viewItems schema place items).length = items.length := by
  induction items generalizing place with
  | nil => rfl
  | cons v rest ih => rw [viewItems, List.length_cons, List.length_cons, ih]

theorem sortedItems_eq (items : List Value) : sortedItems items = items.map Value.sorted := by
  induction items with
  | nil => rfl
  | cons v rest ih => rw [sortedItems, ih, List.map_cons]

/-! ## What keys hold -/

theorem get?_append : get? key (members ++ others) = (get? key members).or (get? key others) := by
  induction members with
  | nil => rfl
  | cons member rest ih =>
      rw [List.cons_append, get?, get?]
      split
      · rfl
      · exact ih

theorem get?_viewMembers :
    get? key (viewMembers schema members) = (get? key members).map (Value.view (schema.field key)) := by
  induction members with
  | nil => rfl
  | cons member rest ih =>
      rw [viewMembers, get?, get?]
      split
      · next hKey =>
          subst hKey
          rfl
      · exact ih

private theorem get?_select :
    get? key (select keys members) = if key ∈ keys then get? key members else none := by
  induction keys with
  | nil => rfl
  | cons k rest ih =>
      have hCons : select (k :: rest) members =
          ((get? k members).map (k, ·)).toList ++ select rest members := by
        cases hFound : get? k members <;> simp [select, hFound]
      rw [hCons, get?_append, ih]
      by_cases hKey : k = key
      · subst hKey
        cases get? k members <;> simp [get?]
      · cases get? k members <;> simp [get?, hKey, Ne.symm hKey]

/-- What a key holds that is looked up is seen. -/
theorem get?_view (hKnown : key ∈ schema.keys) :
    get? key (select schema.keys (viewMembers schema members)) =
      (get? key members).map (Value.view (schema.field key)) := by
  rw [get?_select, if_pos hKnown, get?_viewMembers]

/-- Of members with one key the last one stands. -/
theorem get?_sortedMembers :
    get? key (sortedMembers others members) =
      ((get? key members.reverse).map Value.sorted).or (get? key others) := by
  induction members generalizing others with
  | nil => rfl
  | cons member rest ih =>
      obtain ⟨k, v⟩ := member
      rw [sortedMembers, ih, List.reverse_cons, get?_append, get?]
      by_cases hKey : k = key
      · subst hKey
        rw [get?_insert_self, if_pos rfl]
        cases get? k rest.reverse <;> rfl
      · rw [get?_insert_of_ne (Ne.symm hKey), if_neg hKey]
        cases get? key rest.reverse <;> rfl

private theorem get?_eq_some_iff (hDistinct : (members.map Prod.fst).Nodup) {v : Value} :
    get? key members = some v ↔ (key, v) ∈ members := by
  induction members with
  | nil => simp [get?]
  | cons member rest ih =>
      obtain ⟨k, w⟩ := member
      obtain ⟨hFirst, hRest⟩ := List.nodup_cons.1 hDistinct
      rw [get?, List.mem_cons, Prod.mk.injEq]
      by_cases hKey : k = key
      · subst hKey
        have hLast : (k, v) ∉ rest := fun hMem => hFirst (List.mem_map.2 ⟨_, hMem, rfl⟩)
        simp [hLast, eq_comm]
      · simp [hKey, Ne.symm hKey, ih hRest]

theorem get?_of_perm (hPerm : members.Perm others) (hDistinct : (members.map Prod.fst).Nodup) (key : String) :
    get? key members = get? key others := by
  have hOthers : (others.map Prod.fst).Nodup := (hPerm.map Prod.fst).nodup_iff.1 hDistinct
  apply Option.ext
  intro v
  rw [get?_eq_some_iff hDistinct, get?_eq_some_iff hOthers]
  exact hPerm.mem_iff

/-! ## Alike documents have one view -/

private theorem view_sorted_object (members : List (String × Value)) :
    (Value.object members).sorted.view schema =
      .object (schema.keys.filterMap fun key =>
        ((get? key members.reverse).map fun v => v.sorted.view (schema.field key)).map (key, ·)) := by
  rw [Value.sorted, Value.view, select]
  congr 2
  funext key
  rw [get?_viewMembers, get?_sortedMembers, get?, Option.or_none]
  cases get? key members.reverse <;> rfl

/-- Objects are read with one view if their last members hold, for each key that is looked up, what has one
view. -/
private theorem view_object_congr
    (h : ∀ key ∈ schema.keys, (get? key members.reverse).map (fun v => v.sorted.view (schema.field key)) =
      (get? key others.reverse).map fun v => v.sorted.view (schema.field key)) :
    (Value.object members).sorted.view schema = (Value.object others).sorted.view schema := by
  rw [view_sorted_object, view_sorted_object, Value.object.injEq]
  apply List.filterMap_congr
  intro key hKey
  rw [h key hKey]

/-- **Alike documents have one view**, as they are read. -/
theorem view_eq_of_alike {v w : Value} (h : Alike schema v w) :
    v.sorted.view schema = w.sorted.view schema := by
  induction h with
  | refl schema v => rfl
  | symm _ ih => exact ih.symm
  | trans _ _ ih ihNext => exact ih.trans ihNext
  | @reordered schema members others hPerm hDistinct =>
      have hReverse : members.reverse.Perm others.reverse :=
        members.reverse_perm.trans (hPerm.trans others.reverse_perm.symm)
      have hReversed : (members.reverse.map Prod.fst).Nodup :=
        (members.reverse_perm.map Prod.fst).nodup_iff.2 hDistinct
      apply view_object_congr
      intro key _
      rw [get?_of_perm hReverse hReversed]
  | @added schema front back key v hUnknown =>
      apply view_object_congr
      intro k hKnown
      have hOther : key ≠ k := by
        rintro rfl
        exact hUnknown hKnown
      simp [get?_append, get?, hOther]
  | item front back _ ih =>
      simp only [Value.sorted, Value.view, sortedItems_eq, List.map_append, List.map_cons, viewItems_append,
        viewItems, List.length_map, Nat.zero_add, ih]
  | @member schema front back key v w _ ih =>
      apply view_object_congr
      intro k _
      simp only [List.reverse_append, List.reverse_cons, get?_append, get?]
      cases get? k back.reverse with
      | some u => rfl
      | none =>
          by_cases hKey : key = k
          · subst hKey
            simp [ih]
          · simp [hKey]

end ControlClient.Json
