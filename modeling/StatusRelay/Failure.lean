import StatusRelay.Payload.Issue
import StatusRelay.Json.Display
import StatusRelay.Json.Reader

namespace StatusRelay

inductive ShapeFault where
  /-- Members were asked of a value that is no object. -/
  | notObject
  /-- Elements were asked of a value that has none. -/
  | notContainer
  /-- A text was asked of a value that is none. -/
  | notText
  /-- An object lacks a member that must be there. -/
  | memberMissing
deriving DecidableEq, Repr

inductive KeyFault where
  | unreadable
  | encrypted
  | notRsa (kind : String)
  /-- Of an algorithm, or on a curve, that cannot be worked with. -/
  | unsupported
  /-- Of a size that its algorithm does not allow. -/
  | wrongSize
deriving DecidableEq, Repr

inductive ListingFault where
  | unread (fault : Json.ReadFault)
  | invalid (issues : List Payload.Issue)
deriving DecidableEq, Repr

inductive ProtocolFault where
  | listing (url : String) (cause : ListingFault)
  | installationWithoutId
  | exchangeWithoutToken (installation : Int)
  | checkRunWithoutId (run : String)
deriving DecidableEq, Repr

inductive Failure where
  | invalid (model : String) (issues : List Payload.Issue)
  | shape (fault : ShapeFault)
  /-- The JSON of an answer is needed but was not read. -/
  | bodyUnread (fault : Json.ReadFault)
  | unwritten (fault : Json.WriteFault)
  | timeOutOfRange
  | keyParse (fault : KeyFault)
  | signing (reason : String)
  | signerBroken
  /-- A remote call was answered with a status of 300 or above. -/
  | rejected (url : String) (status : Int) (detail : Option String)
  | protocol (fault : ProtocolFault)
  | corruptId (id : Json.Value) (run : String)
  | noToken
  | noClient
  | appNotConfigured
  /-- Raised by the network below the protocol, and passed on as it is. -/
  | network (kind : String) (message : String)
  | cancelled
deriving Repr

def KeyFault.message? : KeyFault → Option String
  | .unreadable => some "failed to parse private key: "
  | .encrypted => some "failed to parse private key: "
  | .notRsa kind => some ("failed to parse private key: expected RSA, got " ++ kind)
  | .unsupported => none
  | .wrongSize => none

def ProtocolFault.message : ProtocolFault → String
  | .listing url _ => "cannot decode installation list from " ++ url ++ ": "
  | .installationWithoutId => "installation ID is nil"
  | .exchangeWithoutToken id =>
    "installation token response for " ++ toString id ++ " has no token"
  | .checkRunWithoutId run => "created check run for " ++ run ++ " has no ID"

def Failure.message? : Failure → Option String
  | .keyParse fault => fault.message?
  | .signing reason => some ("failed to sign private key: " ++ reason)
  | .rejected url status detail =>
    let more := match detail with | some d => ": " ++ d | none => ""
    some ("Non-OK HTTP status " ++ toString status ++ " for " ++ url ++ more)
  | .protocol fault => some fault.message
  | .corruptId id run => some ("cannot cache check run ID " ++ id.quoted ++ " for " ++ run)
  | .noToken => some "cannot call GitHub: no token set"
  | .noClient => some "cannot set status on github no token or url set"
  | .appNotConfigured =>
    some ("GitHub App credentials not configured. " ++
      "Set GITHUB_APP_ID and GITHUB_PRIVATE_KEY.")
  | .network _ message => some message
  | .invalid _ _ => none
  | .shape _ => none
  | .bodyUnread _ => none
  | .unwritten _ => none
  | .timeOutOfRange => none
  | .signerBroken => none
  | .cancelled => none

end StatusRelay
