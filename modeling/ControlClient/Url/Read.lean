import ControlClient.Url.Basic

/-!
# Reading a URL

A text is cut into its parts from the outside in: blanks around it and tabs and line ends within it
are dropped, the scheme ends at the first colon, the fragment starts at the first number sign, the
query at the first question mark before it, and what is left is authority and path. Each part is then
brought into the form in which it is written.
-/

namespace ControlClient.Url

/-- Drop control characters and spaces at both ends, and tabs and line ends everywhere. -/
def clean (cs : List Char) : List Char :=
  let isEdge (c : Char) : Bool := c.toNat ≤ 0x20
  (((cs.dropWhile isEdge).reverse.dropWhile isEdge).reverse).filter
    fun c => c != '\t' && c != '\n' && c != '\r'

/-- Cut a text at the first occurrence of a sign. -/
def cutAt (sign : Char) (cs : List Char) : List Char × Option (List Char) :=
  match cs.dropWhile (· != sign) with
  | [] => (cs, none)
  | _ :: after => (cs.takeWhile (· != sign), some after)

/-- Whether a character may stand in a scheme after the first. -/
def isSchemeChar (c : Char) : Bool := c.isAlphanum || c = '+' || c = '-' || c = '.'

/-- The scheme in lower case, and what follows its colon. -/
def splitScheme? (cs : List Char) : Option (String × List Char) :=
  match cs.takeWhile isSchemeChar, cs.dropWhile isSchemeChar with
  | c :: name, ':' :: rest =>
      if c.isAlpha then some (String.ofList ((c :: name).map Char.toLower), rest) else none
  | _, _ => none

/-! ## Paths -/

/-- Whether a segment stands for its parent. -/
def isDoubleDot (segment : List Char) : Bool :=
  [['.', '.'], ['%', '2', 'e', '.'], ['.', '%', '2', 'e'], ['%', '2', 'e', '%', '2', 'e']].contains
    (segment.map Char.toLower)

/-- Whether a segment stands for itself. -/
def isSingleDot (segment : List Char) : Bool :=
  [['.'], ['%', '2', 'e']].contains (segment.map Char.toLower)

/-- A letter of a drive with a colon or a bar. -/
def isDriveLetter : List Char → Bool
  | [c, mark] => c.isAlpha && (mark = ':' || mark = '|')
  | _ => false

/-- Leave the last segment, except the letter of a drive. -/
def leave (keepsDrive : Bool) (parts : List (List Char)) : List (List Char) :=
  match parts with
  | [drive] => if keepsDrive && isDriveLetter drive then [drive] else []
  | _ => parts.dropLast

/-- Walk along segments from where one stands. -/
def walk (keepsDrive : Bool) (standing : List (List Char)) : List (List Char) → List (List Char)
  | [] => standing
  | [last] =>
      if isDoubleDot last then leave keepsDrive standing ++ [[]]
      else if isSingleDot last then standing ++ [[]]
      else standing ++ [last]
  | segment :: rest =>
      if isDoubleDot segment then walk keepsDrive (leave keepsDrive standing) rest
      else if isSingleDot segment then walk keepsDrive standing rest
      else walk keepsDrive (standing ++ [segment]) rest

/-- Cut a path into its raw segments: a slash separates them, and a backslash does if it counts as
one. -/
def rawSegments (backslash : Bool) (cs : List Char) : List (List Char) :=
  Text.splitAll '/' (if backslash then cs.map fun c => if c = '\\' then '/' else c else cs)

/-- The path whose segments follow its first slash. -/
def pathOf (backslash : Bool) (cs : List Char) : Path :=
  .segments (((walk false [] (rawSegments backslash cs)).map (percentEncode allowedInPath)).map
    String.ofList)

/-- The path of what follows an authority. -/
def pathAfterAuthority (special : Bool) (cs : List Char) : Path :=
  match cs with
  | '/' :: rest => pathOf special rest
  | '\\' :: rest => if special then pathOf special rest else pathOf special cs
  | [] => if special then pathOf special [] else .segments []
  | _ => pathOf special cs

/-! ## Authorities -/

/-- Cut at the last at sign, if there is one. -/
def splitCredentials (cs : List Char) : Option (List Char) × List Char :=
  match cs.reverse.dropWhile (· != '@') with
  | [] => (none, cs)
  | _ :: before => (some before.reverse, (cs.reverse.takeWhile (· != '@')).reverse)

/-- Cut in front of the first colon that is not in brackets. -/
def splitHost (inBrackets : Bool) : List Char → List Char × List Char
  | [] => ([], [])
  | c :: rest =>
      if c = ':' && !inBrackets then ([], c :: rest)
      else
        let inside := if c = '[' then true else if c = ']' then false else inBrackets
        let cut := splitHost inside rest
        (c :: cut.1, cut.2)

/-- The port of what follows a host, and what follows the port. No digits are no port, and neither is
the default. -/
def readPort (default? : Option Nat) (cs : List Char) :
    Except UrlFault (Option Nat × List Char) :=
  let digits := cs.takeWhile Char.isDigit
  let rest := cs.dropWhile Char.isDigit
  let port := Text.ofDigits digits
  if 65535 < port then .error .invalidPort
  else if !rest.isEmpty && rest.head? != some '\\' then .error .invalidPort
  else if digits.isEmpty || some port = default? then .ok (none, rest)
  else .ok (some port, rest)

/-- The authority of a scheme other than `file`, and what of its text belongs to the path. Whether
anything follows the authority matters only for one that is a lone at sign. -/
def readAuthority [DomainMapping] (scheme : String) (cs : List Char) (somethingFollows : Bool) :
    Except UrlFault (Authority × List Char) := do
  let special := isSpecial scheme
  let (credentials?, hostAndPort) := splitCredentials cs
  if credentials? = some [] && hostAndPort.isEmpty && somethingFollows then
    throw .emptyHost
  let (username, password?) := cutAt ':' (credentials?.getD [])
  let encoded (text : List Char) : String :=
    String.ofList (percentEncode allowedInCredentials text)
  let (hostText, afterHost) := splitHost false hostAndPort
  if special && hostText.isEmpty then throw .emptyHost
  let host ← if special then domainHost hostText else namedHost hostText
  if host = .name "" && !afterHost.isEmpty then throw .emptyHost
  let (port?, rest) ← match afterHost with
    | _ :: portText => readPort (defaultPort? scheme) portText
    | [] => .ok (none, [])
  let authority : Authority := ⟨encoded username, encoded (password?.getD []), host, port?⟩
  if host = .name "" && !authority.credentials.isEmpty then throw .emptyHost
  return (authority, rest)

/-! ## Local files -/

/-- The segments of a path of a local file: empty ones at its start do not count, the first may be the
letter of a drive, which is not left, and what follows such a letter directly is a segment of its
own. -/
def filePath (cs : List Char) : List (List Char) :=
  let drive : List (List Char) → List (List Char)
    | [c, mark] :: rest =>
        if isDriveLetter [c, mark] then [c, ':'] :: rest else [c, mark] :: rest
    | (c :: ':' :: more) :: rest =>
        if c.isAlpha then [c, ':'] :: more :: rest else (c :: ':' :: more) :: rest
    | parts => parts
  let encoded := (walk true [] (drive (rawSegments true cs))).map (percentEncode allowedInPath)
  let counted := encoded.dropWhile List.isEmpty
  if counted.isEmpty then [[]] else counted

/-- Host and path of a local file; a path that starts with the letter of a drive has no host. -/
def readFile [DomainMapping] (cs : List Char) : Except UrlFault (Host × List (List Char)) := do
  let isSlash (c : Char) : Bool := c = '/' || c = '\\'
  match cs with
  | a :: b :: rest =>
      if isSlash a && isSlash b then
        let hostText := rest.takeWhile (!isSlash ·)
        if isDriveLetter hostText then return (.name "", filePath rest)
        let host ← if hostText.isEmpty then .ok (Host.name "") else domainHost hostText
        let path := filePath ((rest.dropWhile (!isSlash ·)).drop 1)
        let isLocal := host = .name "localhost" || isDriveLetter (path.headD [])
        return (if isLocal then .name "" else host, path)
      else if isSlash a then return (.name "", filePath (b :: rest))
      else return (.name "", filePath cs)
  | [a] => return (.name "", filePath (if isSlash a then [] else [a]))
  | [] => return (.name "", filePath [])

/-! ## Whole URLs -/

/-- Authority and path of what stands between scheme and query. -/
def readHierarchy [DomainMapping] (scheme : String) (cs : List Char) (somethingFollows : Bool) :
    Except UrlFault (Option Authority × Path) := do
  if scheme = "file" then
    let (host, path) ← readFile cs
    return (some ⟨"", "", host, none⟩, .segments (path.map String.ofList))
  else if isSpecial scheme then
    let isSlash (c : Char) : Bool := c = '/' || c = '\\'
    let rest := cs.dropWhile isSlash
    let pathText := rest.dropWhile (!isSlash ·)
    let (authority, left) ← readAuthority scheme (rest.takeWhile (!isSlash ·))
      (somethingFollows || !pathText.isEmpty)
    return (some authority, pathAfterAuthority true (left ++ pathText))
  else
    match cs with
    | '/' :: '/' :: rest =>
        let pathText := rest.dropWhile (· != '/')
        let (authority, left) ← readAuthority scheme (rest.takeWhile (· != '/'))
          (somethingFollows || !pathText.isEmpty)
        return (some authority, pathAfterAuthority false (left ++ pathText))
    | '/' :: rest => return (none, pathOf false rest)
    | _ => return (none, .bare (String.ofList (percentEncode allowedInBarePath cs)))

/-- The URL of characters. -/
def readChars [DomainMapping] (input : List Char) : Except UrlFault Url :=
  match splitScheme? (clean input) with
  | none => .error .noScheme
  | some (scheme, rest) => do
      let (beforeFragment, fragment?) := cutAt '#' rest
      let (hierarchy, query?) := cutAt '?' beforeFragment
      let (authority?, path) ← readHierarchy scheme hierarchy
        (query?.isSome || fragment?.isSome)
      let allowedQuery := if isSpecial scheme then allowedInSpecialQuery else allowedInQuery
      return {
        scheme, authority?, path
        query? := query?.map fun cs => String.ofList (percentEncode allowedQuery cs)
        fragment? := fragment?.map fun cs => String.ofList (percentEncode allowedInFragment cs) }

/-- The URL of a text. -/
def read [DomainMapping] (input : String) : Except UrlFault Url := readChars input.toList

end ControlClient.Url
