import ControlClient.Url.Address
import ControlClient.Url.Domain

/-!
# Hosts

A host is an address or a name. In the special schemes a name is a domain: percent codes are undone, it
is brought into ASCII, and a domain whose last label is a number has to be a short address. In other
schemes a name is any text without delimiters.
-/

namespace ControlClient

/-- Why a text is not a URL. -/
inductive UrlFault where
  /-- There is no scheme. -/
  | noScheme
  | emptyHost
  | invalidPort
  | invalidIpv4
  | invalidIpv6
  /-- A name holds a delimiter. -/
  | invalidHostCharacter
  /-- A domain holds a character that domains do not have. -/
  | invalidDomain
deriving DecidableEq, Repr

/-- What is wrong with a text that is not a URL. -/
def UrlFault.message : UrlFault → String
  | noScheme => "relative URL without a base"
  | emptyHost => "empty host"
  | invalidPort => "invalid port number"
  | invalidIpv4 => "invalid IPv4 address"
  | invalidIpv6 => "invalid IPv6 address"
  | invalidHostCharacter => "invalid domain character"
  | invalidDomain => "invalid international domain name"

namespace Url

/-- Where a service is found. -/
inductive Host where
  /-- A name; the empty one stands for no host. -/
  | name (text : String)
  /-- A short address. -/
  | ipv4 (address : Nat)
  /-- The groups of a long address. -/
  | ipv6 (groups : List Nat)
deriving DecidableEq, Repr

/-- A host as it stands in a URL. -/
def Host.written : Host → List Char
  | name text => text.toList
  | ipv4 address => ipv4Text address
  | ipv6 groups => '[' :: ipv6Text groups ++ [']']

/-! ## Reading hosts -/

/-- A long address in brackets. -/
def bracketed (cs : List Char) : Except UrlFault Host :=
  if cs.getLast? = some ']' then
    match ipv6? ((cs.drop 1).dropLast) with
    | some groups => .ok (.ipv6 groups)
    | none => .error .invalidIpv6
  else .error .invalidIpv6

/-- The host of a special scheme. -/
def domainHost [DomainMapping] (cs : List Char) : Except UrlFault Host :=
  if cs.head? = some '[' then bracketed cs
  else
    match domainToAscii? (Text.Utf8.decodeLossy (percentDecode cs)) with
    | none => .error .invalidDomain
    | some domain =>
        if domain.isEmpty then .error .emptyHost
        else if endsInNumber domain then
          match ipv4? domain with
          | some address => .ok (.ipv4 address)
          | none => .error .invalidIpv4
        else .ok (.name (String.ofList domain))

/-- Characters that no host name has in other schemes. -/
def isForbiddenInName (c : Char) : Bool :=
  ['\x00', '\t', '\n', '\r', ' ', '#', '/', ':', '<', '>', '?', '@', '[', '\\', ']', '^', '|'].contains c

/-- The host of another scheme. -/
def namedHost (cs : List Char) : Except UrlFault Host :=
  if cs.head? = some '[' then bracketed cs
  else if cs.any isForbiddenInName then .error .invalidHostCharacter
  else .ok (.name (String.ofList (percentEncode allowedInBarePath cs)))

end Url

end ControlClient
