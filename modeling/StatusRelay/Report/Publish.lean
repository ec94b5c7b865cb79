import StatusRelay.CheckRun.Ensure

namespace StatusRelay

open Json (Value Members)

namespace StatusWrite

def commentsPath (w : StatusWrite) : String :=
  "/repos/" ++ w.event.organization ++ "/" ++ w.event.repository ++ "/issues/" ++
    toString w.event.pullRequest ++ "/comments"

def statusesPath (w : StatusWrite) : String :=
  "/repos/" ++ w.event.organization ++ "/" ++ w.event.repository ++ "/statuses/" ++ w.event.sha

def checkRunPath (w : StatusWrite) (id : Int) : String :=
  CheckRun.Creation.path w.event ++ "/" ++ toString id

def output (w : StatusWrite) : Value :=
  .obj [("title", .str w.status.title), ("summary", .str w.status.summary),
    ("text", .str w.status.text)]

def details (w : StatusWrite) : Members :=
  if w.status.detailsUrl == "" then [] else [("details_url", .str w.status.detailsUrl)]

/-- The time of completion and the conclusion, which go together; `none` where the time cannot be
written. -/
def completion? (w : StatusWrite) (now : Moment) : Option Members :=
  if Conclusion.isTerminal w.status.conclusion then
    now.stamp?.map fun completedAt ↦
      [("completed_at", .str completedAt), ("conclusion", .str w.status.conclusion)]
  else some []

def updatePayload? (w : StatusWrite) (now : Moment) : Option Value :=
  (w.completion? now).map fun completion ↦
    .obj ([("name", .str w.checkName), ("status", .str w.status.stage), ("output", w.output)] ++
      w.details ++ completion)

def statusPayload? (w : StatusWrite) (now : Moment) : Option Value :=
  now.stamp?.map fun createdAt ↦
    .obj [("state", .str w.status.commitState), ("target_url", .str w.status.detailsUrl),
      ("description", .str w.status.title), ("context", .str w.checkName),
      ("created_at", .str createdAt)]

end StatusWrite

def commentPayload (text : String) : Value := .obj [("body", .str text)]

/-- A status on its way to a sink. A check run is made or found first and then updated; a commit
status is written as it is, and a comment follows it where the status wants one. -/
inductive Publish where
  | ensuring (e : CheckRun.Ensure)
  | updating
  | posting (w : StatusWrite)
  | commenting
deriving Repr

namespace Publish

/-- The end of a write: the answer is JSON, and no more is made of it. -/
def settle (req : Request) (reply : Reply) : Except Failure Unit :=
  match reply.json req with
  | .ok _ => .ok ()
  | .error f => .error f

def update (now : Moment) (w : StatusWrite) (s : Scope) (id : Int) : Turn Publish Unit :=
  match w.updatePayload? now with
  | none => .fail s .timeOutOfRange
  | some payload => .send s (s.client.send "PATCH" (w.checkRunPath id) payload) updating

def post (now : Moment) (w : StatusWrite) (s : Scope) : Turn Publish Unit :=
  match w.statusPayload? now with
  | none => .fail s .timeOutOfRange
  | some payload => .send s (s.client.send "POST" w.statusesPath payload) (posting w)

def comment (w : StatusWrite) (s : Scope) : Turn Publish Unit :=
  if w.status.wantsComment w.event then
    .send s (s.client.send "POST" w.commentsPath (commentPayload w.status.comment)) commenting
  else .done s ()

def start (caller : Caller) (sink : Sink) (w : StatusWrite) (s : Scope) : Turn Publish Unit :=
  match sink with
  | .checkRun appId =>
    (CheckRun.Ensure.start caller ⟨w, appId⟩ s).andThen ensuring (update caller.now w)
  | .commitStatus => post caller.now w s

def enter (caller : Caller) (appId : Int) (w : StatusWrite) (s : Scope) : Turn Publish Unit :=
  (CheckRun.Ensure.enter caller ⟨w, appId⟩ s).andThen ensuring (update caller.now w)

def resume (now : Moment) (p : Publish) (req : Request) (reply : Reply) (s : Scope) :
    Turn Publish Unit :=
  match p with
  | ensuring e => (e.resume now req reply s).andThen ensuring (update now e.goal.write)
  | updating => .finish s (settle req reply)
  | posting w => .ofExcept s (settle req reply) fun _ ↦ comment w s
  | commenting => .finish s (settle req reply)

def cancel (p : Publish) (s : Scope) : Scope :=
  match p with
  | ensuring e => e.cancel s
  | _ => s

end Publish
end StatusRelay
