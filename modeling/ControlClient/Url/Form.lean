import ControlClient.Text.Split
import ControlClient.Url.Percent

/-!
# Form encoding

Pairs of a key and a value as they stand in the query of a URL: each side encoded, joined by `=`, and
the pairs separated by `&`. Letters, digits and `*-._` stand as they are, a space becomes `+`, and
all else is written by percent codes; so neither separator occurs in an encoded side.
-/

namespace ControlClient.Url.Form

/-- What stands as it is. -/
def isPlain (c : Char) : Bool := c.isAlphanum || ['*', '-', '.', '_'].contains c

/-- One character of a key or a value. -/
def encodeChar (c : Char) : List Char :=
  if isPlain c then [c] else if c = ' ' then ['+'] else percentChar c

/-- A key or a value. -/
def encodeSide (s : String) : List Char := s.toList.flatMap encodeChar

/-- A pair. -/
def encodePair (pair : String × String) : List Char :=
  encodeSide pair.1 ++ '=' :: encodeSide pair.2

/-- Put a pair at the end of a query. -/
def append (query : List Char) (pair : String × String) : List Char :=
  if query.isEmpty then encodePair pair else query ++ '&' :: encodePair pair

/-- Put pairs at the end of a query. -/
def appendAll (query : List Char) (pairs : List (String × String)) : List Char :=
  pairs.foldl append query

/-! ## Decoding -/

/-- The key or value of a text. -/
def decodeSide (cs : List Char) : String :=
  Text.Utf8.lossyText (percentDecode (cs.map fun c => if c = '+' then ' ' else c))

/-- The pair of a text: the key ends at the first `=`. -/
def decodePair (cs : List Char) : String × String :=
  (decodeSide (cs.takeWhile (· != '=')), decodeSide ((cs.dropWhile (· != '=')).drop 1))

/-- The pairs of a query; nothing between two separators is no pair. -/
def decode (query : List Char) : List (String × String) :=
  ((Text.splitAll '&' query).filter (!·.isEmpty)).map decodePair

end ControlClient.Url.Form
