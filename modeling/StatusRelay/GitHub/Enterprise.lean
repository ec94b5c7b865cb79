import StatusRelay.Table
import StatusRelay.Text.LowerCase

namespace StatusRelay.Enterprise

def hostHeader : String := "x-github-enterprise-host"

def apiUrl (host : String) : String := "https://" ++ host ++ "/api/v3"

def hostOf (headers : Table String) : String :=
  match headers.find? fun h ↦ Text.lower h.1 == hostHeader with
  | some h => h.2
  | none => ""

end StatusRelay.Enterprise
