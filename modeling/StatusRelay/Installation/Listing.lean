import StatusRelay.GitHub.Enterprise
import StatusRelay.Payload.Scalar
import StatusRelay.Task.Turn

namespace StatusRelay

open Json (Value)
open Payload (Checked)

structure Installation where
  id : Int
  /-- The login of the account; empty for none. -/
  account : String
deriving DecidableEq, Repr

namespace Installation

def path : String := "/app/installations"

def base (c : Client) (host : String) : String :=
  if host == "" then c.identity.apiUrl else Enterprise.apiUrl host

def listingUrl (c : Client) (host : String) : String := base c host ++ path

structure Entry where
  id : Option Int
  account : Option String
deriving DecidableEq, Repr

def decodeAccount : Value → Checked String
  | .obj ms =>
    Checked.member ms "login" (fun v ↦ .ofExcept (Payload.Scalar.text v)) (.ok "")
  | _ => .fail .notObject

def Entry.decode : Value → Checked Entry
  | .obj ms =>
    Checked.map (fun p ↦ ⟨p.1, p.2⟩) <|
      Checked.both
        (Checked.member ms "id"
          (Checked.nullable fun v ↦ .ofExcept (Payload.Scalar.whole v)) (.ok none))
        (Checked.member ms "account" (Checked.nullable decodeAccount) (.ok none))
  | _ => .fail .notObject

def ofEntry (e : Entry) : Except Failure Installation :=
  match e.id with
  | some id => .ok ⟨id, e.account.getD ""⟩
  | none => .error (.protocol .installationWithoutId)

def ofEntries : List Entry → Except Failure (List Installation)
  | [] => .ok []
  | e :: es => do
    let i ← ofEntry e
    let is ← ofEntries es
    return i :: is

def ofBody (url : String) : Body → Except Failure (List Installation)
  | .unread fault _ =>
    .error (if fault.isCaught then .protocol (.listing url (.unread fault)) else .bodyUnread fault)
  | .json v =>
    match Checked.list Entry.decode v with
    | .ok es => ofEntries es
    | .error issues => .error (.protocol (.listing url (.invalid issues)))

def rejectionDetail : String := "while getting installation URL"

structure Listing where
  url : String
deriving Repr

namespace Listing

def start (appToken host : String) (s : Scope) : Turn Listing (List Installation) :=
  let url := listingUrl s.client host
  .send s (.ok (.bare "GET" url (.str appToken))) ⟨url⟩

def read (l : Listing) (reply : Reply) : Except Failure (List Installation) :=
  match reply.response with
  | .error f => .error f
  | .ok r =>
    if r.isRejection then .error (.rejected l.url r.status (some rejectionDetail))
    else ofBody l.url r.body

def resume (l : Listing) (reply : Reply) (s : Scope) : Turn Listing (List Installation) :=
  .finish s (l.read reply)

end Listing
end Installation
end StatusRelay
