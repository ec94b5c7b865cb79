import StatusRelay.Task.Script
import StatusRelay.Task.System

namespace StatusRelay

inductive Due where
  | start
  | transmit
  | enter
deriving DecidableEq, Repr

/-- Tasks and what is due for them, first come, first served. A request is put on the agenda when it
is sent and meets the server when its entry comes up; a task that gets its lock is put there when
the lock is given up. -/
structure EventLoop where
  system : System
  server : Script
  agenda : List (TaskId × Due)
  now : Moment
deriving Repr

namespace EventLoop

def create (client : Client) (server : Script) (now : Moment) (ops : List Operation) :
    EventLoop :=
  ⟨.initial client ops, server, (List.range ops.length).map fun id ↦ (id, .start), now⟩

/-- Tasks whose lock is theirs to take and that are not on the agenda yet. -/
def newlyAdmissible (l : EventLoop) : List TaskId :=
  l.system.client.runs.admissible.filter fun id ↦ !l.agenda.contains (id, .enter)

def grantAll (l : EventLoop) : EventLoop :=
  { l with agenda := l.agenda ++ l.newlyAdmissible.map fun id ↦ (id, .enter) }

def pending? (l : EventLoop) (id : TaskId) : Option Request :=
  l.system.tasks[id]?.bind Task.pending?

def transmitLater (l : EventLoop) (id : TaskId) : EventLoop :=
  match l.pending? id with
  | some _ => { l with agenda := l.agenda ++ [(id, .transmit)] }
  | none => l

def move (l : EventLoop) (id : TaskId) (h : Happening) : EventLoop :=
  match l.system.step ⟨id, l.now, h⟩ with
  | some sys => ({ l with system := sys }.grantAll).transmitLater id
  | none => l

def perform (l : EventLoop) (id : TaskId) : Due → EventLoop
  | .start => l.move id .start
  | .enter => l.move id .enter
  | .transmit =>
    match l.pending? id with
    | none => l
    | some req =>
      let (reply, server) := Script.answer req l.server
      let l := { l with server }
      match reply with
      | some r => l.move id (.reply r)
      | none => l

def tick (l : EventLoop) : Option EventLoop :=
  match l.agenda with
  | [] => none
  | (id, due) :: agenda => some ({ l with agenda }.perform id due)

/-- Goes on until nothing is due. A server that never comes to an end with its listings would keep
the loop busy for ever, so the fuel bounds the entries that are dealt with. -/
def settle : Nat → EventLoop → EventLoop
  | 0, l => l
  | fuel + 1, l =>
    match l.tick with
    | some l => settle fuel l
    | none => l

def cancel (l : EventLoop) (id : TaskId) : EventLoop :=
  match l.system.step ⟨id, l.now, .cancel⟩ with
  | some sys => { l with system := sys }.grantAll
  | none => l

def cancelAll (l : EventLoop) : EventLoop :=
  (List.range l.system.tasks.length).foldl cancel l

/-- Runs all tasks, cancels some of them one by one with time to go on in between, and in the end
those that still wait. -/
def complete (fuel : Nat) (cancelled : List TaskId) (l : EventLoop) : EventLoop :=
  (cancelled.foldl (fun l id ↦ (l.cancel id).settle fuel) (l.settle fuel)).cancelAll

end EventLoop
end StatusRelay
