import StatusRelay.Report.Publish

namespace StatusRelay

structure Reporter where
  /-- Whether it was given a client to report through. -/
  hasClient : Bool
  /-- The App whose check runs are written; zero for none. -/
  appId : Int
deriving DecidableEq, Repr

namespace Reporter

def ofSettings (s : Settings) : Reporter := ⟨true, s.appId⟩

def sinkFor (r : Reporter) (e : Event) : Except Failure Sink :=
  if r.hasClient then .ok (.ofEvent e r.appId) else .error .noClient

/-- A status that may be reported: worded, with its sink. Without a client, or with one that has
no token, nothing is. -/
def prepare (r : Reporter) (w : StatusWrite) (c : Client) : Except Failure (Sink × StatusWrite) :=
  if r.hasClient && c.identity.token.truthy then .ok (.ofEvent w.event r.appId, w.worded)
  else .error .noClient

/-- The block of the run ends with the write, well or not. -/
def close (t : Turn Publish Unit) : Turn Publish Unit :=
  t.followedBy id fun s r ↦ .finish s.leave r

def start (caller : Caller) (r : Reporter) (w : StatusWrite) (s : Scope) : Turn Publish Unit :=
  .ofExcept s (r.prepare w s.client) fun (sink, w) ↦
    let s := s.enter w.status.run
    .log s (.reporting w sink) (close (Publish.start caller sink w s))

def enter (caller : Caller) (r : Reporter) (w : StatusWrite) (s : Scope) : Turn Publish Unit :=
  close (Publish.enter caller r.appId w.worded s)

def resume (now : Moment) (p : Publish) (req : Request) (reply : Reply) (s : Scope) :
    Turn Publish Unit :=
  close (p.resume now req reply s)

def cancel (p : Publish) (s : Scope) : Scope := (p.cancel s).leave

end Reporter
end StatusRelay
