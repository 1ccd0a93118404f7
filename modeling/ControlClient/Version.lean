/-!
# Version

How the client names itself.
-/

namespace ControlClient

/-- The version of the client. -/
def version : String := "0.1.0"

/-- How the client names itself to the service. -/
def userAgent : String := "kapacitor/" ++ version

/-- How the client names itself to people; where it was built from is not known. -/
def versionText : String := "Kapacitor " ++ version ++ " (git: unknown unknown)"

end ControlClient
