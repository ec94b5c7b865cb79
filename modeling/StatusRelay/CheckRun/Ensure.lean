import StatusRelay.CheckRun.Creation
import StatusRelay.CheckRun.Lookup

namespace StatusRelay.CheckRun

open Json (Value)

structure Goal where
  write : StatusWrite
  appId : Int
deriving Repr

namespace Goal

def run (g : Goal) : String := g.write.status.run

def query (g : Goal) : Query := .ofEvent g.write.event g.appId

end Goal

/-- A task that holds the lock of its run and waits for an answer. Tasks that want one run take
turns, so that at most one of them asks the server, and the cache is read again after a wait, since
the task before may have filled it. -/
inductive Ensure where
  | looking (g : Goal) (lookup : Lookup)
  | creating (g : Goal) (creation : Creation)
deriving Repr

namespace Ensure

def goal : Ensure → Goal
  | looking g _ => g
  | creating g _ => g

def release (g : Goal) (s : Scope) : Scope := s.mapLock g.run Lock.release

def store (run : String) (v : Value) (s : Scope) : Except Failure (Int × Scope) :=
  match v with
  | .int id => .ok (id, s.mapRuns (·.store run id))
  | v => .error (.corruptId v run)

def conclude (g : Goal) (s : Scope) (r : Except Failure Value) : Turn Ensure Int :=
  match r with
  | .error f => .fail (release g s) f
  | .ok v =>
    match store g.run v s with
    | .ok (id, s) => .done (release g s) id
    | .error f => .fail (release g s) f

def afterLookup (now : Moment) (g : Goal) (s : Scope) (r : Except Failure (Option Int)) :
    Turn Ensure Int :=
  match r with
  | .error f => conclude g s (.error f)
  | .ok (some id) => conclude g s (.ok (.int id))
  | .ok none => (Creation.start now g.write s).followedBy (.creating g) (conclude g)

def inside (now : Moment) (g : Goal) (s : Scope) : Turn Ensure Int :=
  match s.client.runs.load g.run with
  | some id => .done (release g s) id
  | none => (Lookup.start g.run g.query s).followedBy (.looking g) (afterLookup now g)

def enter (caller : Caller) (g : Goal) (s : Scope) : Turn Ensure Int :=
  inside caller.now g (s.mapLock g.run (·.grant caller.task))

def start (caller : Caller) (g : Goal) (s : Scope) : Turn Ensure Int :=
  let s := s.attach
  match s.client.runs.load g.run with
  | some id => .done s id
  | none =>
    if (s.client.runs.lock g.run).isOpen then enter caller g s
    else .wait (s.mapLock g.run (·.enqueue caller.task)) g.run

def resume (now : Moment) (e : Ensure) (req : Request) (reply : Reply) (s : Scope) :
    Turn Ensure Int :=
  match e with
  | looking g lookup => (lookup.resume req reply s).followedBy (.looking g) (afterLookup now g)
  | creating g creation => (creation.resume req reply s).followedBy (.creating g) (conclude g)

/-- A task that is cancelled gives the lock back and stores nothing. -/
def cancel (e : Ensure) (s : Scope) : Scope := release e.goal s

end Ensure
end StatusRelay.CheckRun
