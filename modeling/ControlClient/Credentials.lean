import ControlClient.Text.Base64
import ControlClient.Url.Basic

/-!
# Credentials

A user name and a password in the address of the service are not sent as part of the URL, but as the
value of a header of their own. Percent codes in them are decoded first; a user name that is not UTF-8
then stays where it is.
-/

namespace ControlClient

/-- Whom a request is made for. -/
structure Credentials where
  username : String
  password? : Option String
deriving DecidableEq, Repr

namespace Credentials

/-- The credentials of an authority. -/
def ofAuthority? (a : Url.Authority) : Option Credentials := do
  let username ← Text.Utf8.text? (Url.percentDecode a.username.toList)
  let password? :=
    if a.password = "" then none else Text.Utf8.text? (Url.percentDecode a.password.toList)
  if username = "" ∧ password? = none then none else some ⟨username, password?⟩

/-- The credentials of a URL. -/
def ofUrl? (u : Url) : Option Credentials := u.authority?.bind ofAuthority?

/-- The value of the header that carries credentials. -/
def headerValue (c : Credentials) : String :=
  "Basic " ++ String.ofList
    (Text.Base64.encode (Text.Utf8.bytes (c.username ++ ":" ++ c.password?.getD "")))

end Credentials

/-- The URL without the credentials that it holds. -/
def Url.released (u : Url) : Url :=
  if (Credentials.ofUrl? u).isSome then u.withoutCredentials else u

end ControlClient
