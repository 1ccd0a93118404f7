/-!
# Sets of characters

A set of code points is kept as closed ranges in increasing order, the form in which character
properties are published.
-/

namespace ControlClient.Text

/-- A set of code points: closed ranges in increasing order. -/
abbrev Ranges := List (Nat × Nat)

namespace Ranges

/-- Whether a character is in the set. -/
def contains (ranges : Ranges) (c : Char) : Bool :=
  ranges.any fun range => range.1 ≤ c.toNat && c.toNat ≤ range.2

end Ranges

end ControlClient.Text
