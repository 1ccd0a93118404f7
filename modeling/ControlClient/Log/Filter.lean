import ControlClient.Log.Event
import ControlClient.Text.Split

/-!
# Log filters

Which events are written to the log. A filter is a list of directives, each of which lets the targets
that start with some text have events up to a level. Of the directives that fit a target the one with
the longest text counts, and of equal ones the last; events that no directive fits are not written.

A filter is read from a text of directives with commas between them: `target=level`, a level alone, or
a target alone, which is let through at every level. Levels have names in any case, and numbers from 0
for none to 5. A text that cannot be read is no filter, and an empty one lets errors through.
-/

namespace ControlClient.Log

/-- Up to which level events are let through; none lets no event through. -/
abbrev Limit := Option Level

/-- Whether an event of a level is within a limit. -/
def Limit.admits (limit : Limit) (level : Level) : Bool := limit.any (level.rank ≤ ·.rank)

/-- What a filter does with some targets. -/
inductive Directive where
  /-- Targets that start with this text have this limit. -/
  | targets (start : List Char) (limit : Limit)
  /-- A directive about spans, in which no event of the client happens. -/
  | spans
deriving DecidableEq, Repr

/-- Which events are written. -/
abbrev Filter := List Directive

namespace Limit

/-- A text in lower case, as far as it is ASCII. -/
def lower (cs : List Char) : List Char := cs.map Char.toLower

/-- The limit of a number from 0 to 5. -/
def ofNumber? (n : Nat) : Option Limit :=
  if n = 0 then some none else (Level.all.find? (·.rank = n)).map some

/-- The limit of some decimal digits. -/
def ofDigits? (cs : List Char) : Option Limit :=
  let digits := if cs.head? = some '+' then cs.tail else cs
  if digits.isEmpty || !digits.all Char.isDigit then none
  else ofNumber? (Text.ofDigits digits)

/-- The limit of a name. -/
def ofName? (cs : List Char) : Option Limit :=
  if lower cs = ['o', 'f', 'f'] then some none
  else (Level.all.find? fun l => l.name.toList = lower cs).map some

/-- The limit of a name or a number. -/
def read? (cs : List Char) : Option Limit := (ofDigits? cs).or (ofName? cs)

end Limit

namespace Directive

/-- Whether a directive may start with a character. -/
def mayStart (c : Char) : Bool := c.isAlphanum || c.toNat ≥ 0x80 || ['-', ':', '_'].contains c

/-- Read a directive. -/
def read? (cs : List Char) : Option Directive :=
  match cs with
  | [] => none
  | c :: _ =>
      if cs.contains '[' then some .spans
      else if !mayStart c then none
      else
        match cs.dropWhile (· ≠ '=') with
        | [] =>
            match Limit.read? cs with
            | some limit => some (.targets [] limit)
            | none => some (.targets cs (some .trace))
        | [_] => some (.targets (cs.takeWhile (· ≠ '=')) (some .trace))
        | _ :: level => (Limit.read? level).map (.targets (cs.takeWhile (· ≠ '=')))

end Directive

namespace Filter

/-- The filter of a text without directives. -/
def errorsOnly : Filter := [.targets [] (some .error)]

/-- Read a filter. -/
def read? (text : String) : Option Filter :=
  let pieces := (Text.splitAll ',' text.toList).filter (· ≠ [])
  if pieces.isEmpty then some errorsOnly else pieces.mapM Directive.read?

/-- The filter when no text gives one: so many switches asked for more detail. -/
def ofDetail (debug : Nat) : Filter :=
  let limit : Level := match debug with
    | 0 => .warn
    | 1 => .debug
    | _ => .trace
  [.targets [] (some .warn), .targets "kapacitor".toList (some limit)]

/-- The filter that counts: the text wins if it can be read. -/
def ofText (text? : Option String) (debug : Nat) : Filter :=
  (text?.bind read?).getD (ofDetail debug)

/-- The better of two directives for a target, of which the second was written later. -/
def better (target : List Char) (best : Option (Nat × Limit)) (d : Directive) :
    Option (Nat × Limit) :=
  match d with
  | .spans => best
  | .targets start limit =>
      if start.isPrefixOf target && best.all (·.1 ≤ start.length) then some (start.length, limit)
      else best

/-- The limit for a target. -/
def limitFor (f : Filter) (target : String) : Limit :=
  (f.foldl (better target.toList) none).bind (·.2)

/-- Whether an event is written. -/
def admits (f : Filter) (e : Event) : Bool := (f.limitFor e.target).admits e.level

end Filter

end ControlClient.Log
