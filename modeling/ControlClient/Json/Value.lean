import ControlClient.Number.Binary64

/-!
# JSON documents

A document as a value. Integers between `-2 ^ 63` and `2 ^ 64` are kept exactly, all other numbers
as doubles; the members of an object stand in the order in which they are written, and those of a
document that was read stand in increasing order of their keys, each key once.

## Main results

* `get?_insert_self`, `get?_insert_of_ne`: adding a member changes what its key holds and nothing
  else.
-/

namespace ControlClient.Json

/-- A number that is not kept as an integer: a double and its sign. -/
structure Fractional where
  negative : Bool
  magnitude : Number.Binary64
deriving DecidableEq, Repr

/-- The text of a double with its sign. -/
def Fractional.text (x : Fractional) : String :=
  if x.negative then "-" ++ x.magnitude.text else x.magnitude.text

/-- A JSON document. -/
inductive Value where
  | null
  | bool (b : Bool)
  | integer (n : Int)
  | fractional (x : Fractional)
  | string (s : String)
  | array (items : List Value)
  | object (members : List (String × Value))
deriving Repr

/-- Members of an object. -/
abbrev Members := List (String × Value)

/-- What a key holds. -/
def get? (key : String) : Members → Option Value
  | [] => none
  | (k, v) :: rest => if k = key then some v else get? key rest

/-- Add a member in increasing order of keys, in place of one with the same key. -/
def insert (key : String) (value : Value) : Members → Members
  | [] => [(key, value)]
  | (k, v) :: rest =>
      if key = k then (key, value) :: rest
      else if key < k then (key, value) :: (k, v) :: rest
      else (k, v) :: insert key value rest

theorem get?_insert_self (key : String) (value : Value) (members : Members) :
    get? key (insert key value members) = some value := by
  induction members with
  | nil => simp [insert, get?]
  | cons m rest ih =>
      obtain ⟨k, v⟩ := m
      unfold insert
      split
      · simp [get?]
      · next hNe =>
          split
          · simp [get?]
          · simp [get?, Ne.symm hNe, ih]

theorem get?_insert_of_ne {key other : String} (hNe : other ≠ key) (value : Value)
    (members : Members) : get? other (insert key value members) = get? other members := by
  induction members with
  | nil => simp [insert, get?, Ne.symm hNe]
  | cons m rest ih =>
      obtain ⟨k, v⟩ := m
      unfold insert
      split
      · next h => subst h; simp [get?, Ne.symm hNe]
      · split
        · simp [get?, Ne.symm hNe]
        · simp [get?, ih]

/-- The value of a member of an object; no other document has members. -/
def Value.member? (key : String) : Value → Option Value
  | .object members => get? key members
  | _ => none

end ControlClient.Json
