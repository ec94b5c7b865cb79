import StatusRelay.Task.EventLoop

namespace StatusRelay

structure Session where
  settings : Settings
  client : Client
  server : Script
  now : Moment
deriving Repr

namespace Session

def create (settings : Settings) (token : Json.Value) (server : Script) (now : Moment) :
    Session :=
  ⟨settings, .ofSettings settings token, server, now⟩

def perform (fuel : Nat) (ops : List Operation) (cancelled : List TaskId) (s : Session) :
    System × Session :=
  let l := (EventLoop.create s.client s.server s.now ops).complete fuel cancelled
  (l.system, { s with client := l.system.client, server := l.server })

end Session
end StatusRelay
