import StatusRelay.Payload.Scalar
import StatusRelay.Task.Turn

namespace StatusRelay

open Json (Value Members)
open Payload (Checked)

structure CheckRun where
  id : Int
  externalId : Option String
deriving DecidableEq, Repr

namespace CheckRun

/-- Part of a listing, with the count that the server gives for the whole. -/
structure Listing where
  total : Int
  runs : List CheckRun
deriving DecidableEq, Repr

def decode : Value → Checked CheckRun
  | .obj ms =>
    Checked.map (fun p ↦ ⟨p.1, p.2⟩) <|
      Checked.both
        (Checked.member ms "id" (fun v ↦ .ofExcept (Payload.Scalar.whole v)) (.fail .absent))
        (Checked.member ms "external_id"
          (Checked.nullable fun v ↦ .ofExcept (Payload.Scalar.text v)) (.ok none))
  | _ => .fail .notObject

namespace Listing

def decode : Value → Checked Listing
  | .obj ms =>
    Checked.map (fun p ↦ ⟨p.1, p.2⟩) <|
      Checked.both
        (Checked.member ms "total_count" (fun v ↦ .ofExcept (Payload.Scalar.whole v)) (.ok 0))
        (Checked.member ms "check_runs" (Checked.list CheckRun.decode) (.ok []))
  | _ => .fail .notObject

def modelName : String := "CheckRunList"

def ofBody (v : Value) : Except Failure Listing :=
  match decode v with
  | .ok l => .ok l
  | .error issues => .error (.invalid modelName issues)

end Listing

structure Query where
  organization : String
  repository : String
  sha : String
  appId : Int
deriving DecidableEq, Repr

namespace Query

def ofEvent (e : Event) (appId : Int) : Query := ⟨e.organization, e.repository, e.sha, appId⟩

def path (q : Query) : String :=
  "/repos/" ++ q.organization ++ "/" ++ q.repository ++ "/commits/" ++ q.sha ++ "/check-runs"

def request (q : Query) (c : Client) (page : Nat) : Except Failure Request :=
  c.get q.path (("app_id", .int q.appId) :: Page.params page)

end Query

structure Scan where
  query : Query
  page : Nat
  /-- From the pages before. -/
  found : List CheckRun
deriving Repr

namespace Scan

def start (q : Query) (s : Scope) : Turn Scan Listing :=
  .send s (q.request s.client 1) ⟨q, 1, []⟩

/-- A listing ends at a short page, or when it has as many entries as the last page announced. -/
def isLast (batch : Listing) (all : List CheckRun) : Bool :=
  batch.runs.length < Page.size || batch.total ≤ all.length

def batch (req : Request) (reply : Reply) : Except Failure Listing :=
  match reply.json req with
  | .ok v => Listing.ofBody v
  | .error f => .error f

def resume (scan : Scan) (req : Request) (reply : Reply) (s : Scope) : Turn Scan Listing :=
  .ofExcept s (batch req reply) fun batch ↦
    let all := scan.found ++ batch.runs
    if isLast batch all then .done s ⟨batch.total, all⟩
    else .send s (scan.query.request s.client (scan.page + 1)) ⟨scan.query, scan.page + 1, all⟩

end Scan
end CheckRun
end StatusRelay
