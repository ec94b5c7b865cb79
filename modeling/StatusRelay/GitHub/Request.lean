import StatusRelay.Failure
import StatusRelay.Json.Reader

namespace StatusRelay

open Json (Value Members)

structure Request where
  method : String
  url : String
  /-- The token that authorises the request. -/
  credential : Value
  body : Option Value
  params : Option Members
deriving Repr

namespace Request

def mediaType : String := "application/vnd.github+json"

def apiVersion : String := "2022-11-28"

def authorization (r : Request) : String := "Bearer " ++ r.credential.display

def headers (r : Request) : Table String :=
  [("Authorization", r.authorization), ("Accept", mediaType),
    ("X-GitHub-Api-Version", apiVersion)]

def bare (method url : String) (credential : Value) : Request :=
  ⟨method, url, credential, none, none⟩

end Request

inductive Body where
  | json (v : Value)
  /-- A text that was not read as JSON. -/
  | unread (fault : Json.ReadFault) (text : String)
deriving Repr

def Body.ofText (text : String) : Body :=
  match Json.readBody text with
  | .ok v => .json v
  | .error fault => .unread fault text

structure Response where
  status : Int
  body : Body
deriving Repr

namespace Response

def json (r : Response) : Except Failure Value :=
  match r.body with
  | .json v => .ok v
  | .unread fault _ => .error (.bodyUnread fault)

def rejectionStatus : Int := 300

def isRejection (r : Response) : Bool := rejectionStatus ≤ r.status

/-- The reason that a rejection gives for itself; a body that is no JSON gives none. -/
def reason (r : Response) : Except Failure (Option String) :=
  match r.body with
  | .json v => .ok (((v.get? "message").filter Value.truthy).map Value.display)
  | .unread fault _ => if fault.isCaught then .ok none else .error (.bodyUnread fault)

def rejection (url : String) (r : Response) : Failure :=
  match r.reason with
  | .ok detail => .rejected url r.status detail
  | .error f => f

end Response

inductive Reply where
  | answered (r : Response)
  | broken (kind : String) (message : String)
deriving Repr

namespace Reply

def response : Reply → Except Failure Response
  | .answered r => .ok r
  | .broken kind message => .error (.network kind message)

def accepted (req : Request) : Reply → Except Failure Response
  | .answered r =>
    if r.isRejection then .error (r.rejection req.url) else .ok r
  | .broken kind message => .error (.network kind message)

def json (req : Request) (reply : Reply) : Except Failure Value :=
  match reply.accepted req with
  | .ok r => r.json
  | .error f => .error f

end Reply
end StatusRelay
