import StatusRelay.Task.Turn

namespace StatusRelay.CheckRun

open Json (Value)

structure Creation where
  write : StatusWrite
deriving Repr

namespace Creation

def path (e : Event) : String :=
  "/repos/" ++ e.organization ++ "/" ++ e.repository ++ "/check-runs"

/-- The external name ties the check run to its pipeline run. -/
def payload (w : StatusWrite) (startedAt : String) : Value :=
  .obj [("name", .str w.checkName), ("head_sha", .str w.event.sha),
    ("status", .str Stage.inProgress), ("details_url", .str w.display.logUrl),
    ("external_id", .str w.status.run), ("started_at", .str startedAt)]

def start (now : Moment) (w : StatusWrite) (s : Scope) : Turn Creation Value :=
  match now.stamp? with
  | none => .fail s .timeOutOfRange
  | some startedAt =>
    .send s (s.client.send "POST" (path w.event) (payload w startedAt)) ⟨w⟩

def idOf (run : String) : Value → Except Failure Value
  | .obj ms =>
    match Table.get? ms "id" with
    | some .null => .error (.protocol (.checkRunWithoutId run))
    | some id => .ok id
    | none => .error (.protocol (.checkRunWithoutId run))
  | _ => .error (.shape .notObject)

def created (w : StatusWrite) (req : Request) (reply : Reply) : Except Failure Value :=
  match reply.json req with
  | .ok v => idOf w.status.run v
  | .error f => .error f

def resume (c : Creation) (req : Request) (reply : Reply) (s : Scope) : Turn Creation Value :=
  .ofExcept s (created c.write req reply) fun id ↦
    .log s (.checkRunCreated id c.write.status.run c.write.event) (.done s id)

end Creation
end StatusRelay.CheckRun
