import ControlClient.Text.Digits
import ControlClient.Text.Split
import ControlClient.Url.Percent

/-!
# Internet addresses

Addresses that are written as numbers. The short kind has up to four parts, in decimal, octal or
hexadecimal, the last of which fills what the others leave of 32 bits. The long kind has eight groups
of hexadecimal digits, of which a run of zeros may be left out once, and may end in an address of the
short kind. Each has one form in which it is written back.
-/

namespace ControlClient.Url

/-! ## Four bytes -/

/-- A number in some base, if the text has digits of that base only; no text is zero. -/
def numberIn? (base : Nat) (cs : List Char) : Option Nat :=
  cs.foldlM (fun n c => do
    let digit ← hexDigitValue? c
    if digit < base then some (n * base + digit) else none) 0

/-- A part of a short address: hexadecimal after `0x`, octal after another leading zero, and decimal
otherwise. -/
def addressPart? : List Char → Option Nat
  | [] => none
  | '0' :: 'x' :: digits => numberIn? 16 digits
  | '0' :: 'X' :: digits => numberIn? 16 digits
  | '0' :: d :: digits => numberIn? 8 (d :: digits)
  | digits => numberIn? 10 digits

/-- The parts of a name that are separated by dots; an empty one at the end does not count. -/
def dottedParts (cs : List Char) : List (List Char) :=
  let parts := Text.splitAll '.' cs
  if parts.getLast? = some [] then parts.dropLast else parts

/-- Whether the last part of a name is a number, so that the name has to be an address. -/
def endsInNumber (cs : List Char) : Bool :=
  match (dottedParts cs).getLast? with
  | some part => (!part.isEmpty && part.all Char.isDigit) || (addressPart? part).isSome
  | none => false

/-- The short address of a text. -/
def ipv4? (cs : List Char) : Option Nat := do
  let parts := dottedParts cs
  if parts.length > 4 then none
  let numbers ← parts.mapM addressPart?
  let last ← numbers.getLast?
  let front := numbers.dropLast
  if front.all (· < 256) && last < Nat.pow 256 (4 - front.length) then
    some (front.foldl (fun n part => n * 256 + part) 0 * Nat.pow 256 (4 - front.length) + last)
  else none

/-- A short address in decimal parts. -/
def ipv4Text (address : Nat) : List Char :=
  Text.digits (address / 0x1000000 % 256) ++ '.' :: Text.digits (address / 0x10000 % 256) ++
    '.' :: Text.digits (address / 0x100 % 256) ++ '.' :: Text.digits (address % 256)

/-! ## Eight groups -/

/-- Groups read so far, and where a run of zeros was left out among them: the zero that stands for it
is the last of so many groups. -/
structure Groups where
  groups : List Nat
  gap? : Option Nat
deriving DecidableEq, Repr

/-- The eight groups, if there are eight. -/
def Groups.fill (g : Groups) : Option (List Nat) :=
  match g.gap? with
  | some gap =>
      some (g.groups.take gap ++ List.replicate (8 - g.groups.length) 0 ++ g.groups.drop gap)
  | none => if g.groups.length = 8 then some g.groups else none

/-- A number below 256 in decimal, without zeros in front. -/
def octet? (cs : List Char) : Option Nat :=
  if cs.isEmpty || !cs.all Char.isDigit || (cs.length > 1 && cs.head? = some '0') ||
      Text.ofDigits cs > 255 then none
  else some (Text.ofDigits cs)

/-- The two groups of a short address at the end of a long one. -/
def embedded? (cs : List Char) : Option (List Nat) :=
  match (Text.splitAll '.' cs).mapM octet? with
  | some [a, b, c, d] => some [a * 256 + b, c * 256 + d]
  | _ => none

/-- Read groups until the text ends. Each turn takes a colon or a group with what follows it. -/
def readGroups : Nat → Groups → List Char → Option (List Nat)
  | _, g, [] => g.fill
  | 0, _, _ => none
  | turns + 1, g, c :: rest =>
      if g.groups.length ≥ 8 then none
      else if c = ':' then
        if g.gap?.isSome then none
        else readGroups turns ⟨g.groups ++ [0], some (g.groups.length + 1)⟩ rest
      else
        let text := c :: rest
        let digits := (text.take 4).takeWhile fun d => (hexDigitValue? d).isSome
        let after := text.drop digits.length
        let group := (numberIn? 16 digits).getD 0
        match after with
        | [] => Groups.fill { g with groups := g.groups ++ [group] }
        | '.' :: _ =>
            if digits.isEmpty || g.groups.length > 6 then none
            else do
              let pair ← embedded? text
              Groups.fill { g with groups := g.groups ++ pair }
        | ':' :: more =>
            if more.isEmpty then none
            else readGroups turns { g with groups := g.groups ++ [group] } more
        | _ => none

/-- The eight groups of a long address. -/
def ipv6? (cs : List Char) : Option (List Nat) :=
  match cs with
  | ':' :: ':' :: rest => readGroups cs.length ⟨[0], some 1⟩ rest
  | [] | [_] | ':' :: _ => none
  | _ => readGroups cs.length ⟨[], none⟩ cs

/-- A group in hexadecimal. -/
def groupText (group : Nat) : List Char := Nat.toDigits 16 group

/-- Groups with colons between them. -/
def groupsText : List Nat → List Char
  | [] => []
  | [group] => groupText group
  | group :: rest => groupText group ++ ':' :: groupsText rest

/-- Where the first of the longest runs of zeros starts, and its length. -/
def longestZeros (groups : List Nat) : Nat × Nat :=
  (List.range groups.length).foldl (fun best start =>
    let run := ((groups.drop start).takeWhile (· == 0)).length
    if run > best.2 then (start, run) else best) (0, 0)

/-- A long address; the first of the longest runs of two zeros or more is left out. -/
def ipv6Text (groups : List Nat) : List Char :=
  let run := longestZeros groups
  if run.2 < 2 then groupsText groups
  else groupsText (groups.take run.1) ++ [':', ':'] ++ groupsText (groups.drop (run.1 + run.2))

end ControlClient.Url
