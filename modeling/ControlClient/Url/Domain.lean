import ControlClient.Text.Split

/-!
# Domains

A domain is compared and looked up in ASCII. One that is ASCII and none of whose labels stands for a
label beyond ASCII gets there by folding its letters. What becomes of any other is laid down by tables
of all scripts, which change with the editions of Unicode; here it is a parameter, `DomainMapping`, of
which only the documented laws are known.
-/

namespace ControlClient

/-- Whether a text is ASCII. -/
def Url.isAscii (cs : List Char) : Bool := cs.all (·.toNat < 0x80)

/-- How domains that are not plainly ASCII are brought into ASCII, with the laws of the operation
`ToASCII`: what comes of it is ASCII in lower case, and applying it several times has the effect of
applying it once. -/
class DomainMapping where
  /-- A domain in ASCII, or none if it is no domain. -/
  toAscii? : List Char → Option (List Char)
  isAscii_of_toAscii? {name domain : List Char} :
    toAscii? name = some domain → Url.isAscii domain = true
  lower_of_toAscii? {name domain : List Char} :
    toAscii? name = some domain → domain.map Char.toLower = domain
  toAscii?_idempotent {name domain : List Char} :
    toAscii? name = some domain → toAscii? domain = some domain

namespace DomainMapping

/-- The mapping that agrees with a function wherever the laws let it. -/
@[reducible]
def restrict (f : List Char → Option (List Char)) : DomainMapping where
  toAscii? name := (f name).filter fun domain =>
    Url.isAscii domain && domain.map Char.toLower == domain && f domain == some domain
  isAscii_of_toAscii? h := by
    simp only [Option.filter_eq_some_iff, Bool.and_eq_true] at h
    exact h.2.1.1
  lower_of_toAscii? h := by
    simp only [Option.filter_eq_some_iff, Bool.and_eq_true, beq_iff_eq] at h
    exact h.2.1.2
  toAscii?_idempotent h := by
    simp only [Option.filter_eq_some_iff, Bool.and_eq_true, beq_iff_eq] at h
    simp [h.2.1.1, h.2.1.2, h.2.2]

/-- The mapping that takes every text in ASCII for a domain, and no other. -/
@[reducible]
def asciiOnly : DomainMapping :=
  restrict fun name => if Url.isAscii name then some (name.map Char.toLower) else none

end DomainMapping

namespace Url

/-- Characters that no domain has. -/
def isForbiddenInDomain (c : Char) : Bool :=
  c.toNat ≤ 0x20 || c.toNat = 0x7F ||
    ['%', '#', '/', ':', '<', '>', '?', '@', '[', '\\', ']', '^', '|'].contains c

/-- Whether a label in ASCII stands for one beyond it. -/
def isEncodedLabel (label : List Char) : Bool := label.take 4 == ['x', 'n', '-', '-']

/-- Whether a domain is ASCII and all its labels stand for themselves. -/
def isPlainDomain (cs : List Char) : Bool :=
  isAscii cs && !(Text.splitAll '.' (cs.map Char.toLower)).any isEncodedLabel

/-- A domain in ASCII, or none if it is no domain. -/
def domainToAscii? [DomainMapping] (cs : List Char) : Option (List Char) :=
  let domain? := if isPlainDomain cs then some (cs.map Char.toLower) else DomainMapping.toAscii? cs
  domain?.filter fun domain => !domain.any isForbiddenInDomain

end Url

end ControlClient
