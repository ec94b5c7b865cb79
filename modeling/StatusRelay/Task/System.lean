import StatusRelay.Task.Operation

namespace StatusRelay

inductive Phase where
  | ready
  | sending (request : Request) (state : Running)
  /-- Waits for the lock of a run. -/
  | waiting (run : String)
  | finished (result : Except Failure Outcome)
deriving Repr

namespace Phase

def ofNext : Next Running Outcome → Phase
  | .done r => finished r
  | .send req state => sending req state
  | .wait run => waiting run

end Phase

structure Task where
  op : Operation
  phase : Phase
  context : RunContext
deriving Repr

namespace Task

def create (context : RunContext) (op : Operation) : Task := ⟨op, .ready, context.child⟩

def result? (t : Task) : Option (Except Failure Outcome) :=
  match t.phase with
  | .finished r => some r
  | _ => none

def pending? (t : Task) : Option Request :=
  match t.phase with
  | .sending req _ => some req
  | _ => none

end Task

/-- Tasks that share one client. A move picks a task and carries it on to its next pause; whatever
is enabled may happen, in any order. -/
structure System where
  client : Client
  tasks : List Task
  /-- All requests so far, each with the task that sent it. -/
  sent : List (TaskId × Request)
  records : List Record
deriving Repr

inductive Happening where
  | start
  | reply (r : Reply)
  /-- The lock that the task waits for is its to take. -/
  | enter
  | cancel
deriving Repr

structure Move where
  task : TaskId
  now : Moment
  happening : Happening
deriving Repr

namespace System

def initial (client : Client) (ops : List Operation) : System :=
  ⟨client, ops.map (Task.create .initial), [], []⟩

def requests (id : TaskId) : Next Running Outcome → List (TaskId × Request)
  | .send req _ => [(id, req)]
  | _ => []

def after (sys : System) (id : TaskId) (task : Task) (t : Turn Running Outcome) : System :=
  { client := t.scope.client
    tasks := sys.tasks.set id { task with phase := .ofNext t.next, context := t.scope.context }
    sent := sys.sent ++ requests id t.next
    records := sys.records ++ t.records }

def cancelled (sys : System) (id : TaskId) (task : Task) (s : Scope) : System :=
  { sys with
    client := s.client
    tasks := sys.tasks.set id
      { task with phase := .finished (.error .cancelled), context := s.context } }

def mayEnter (sys : System) (id : TaskId) (run : String) : Bool :=
  (sys.client.runs.lock run).next? == some id

/-- One move; `none` for one that is not enabled. -/
def step (sys : System) (m : Move) : Option System :=
  match sys.tasks[m.task]? with
  | none => none
  | some task =>
    let caller : Caller := ⟨m.task, m.now⟩
    let s : Scope := ⟨sys.client, task.context⟩
    match task.phase, m.happening with
    | .ready, .start => some (sys.after m.task task (task.op.start caller s))
    | .sending req state, .reply reply =>
      some (sys.after m.task task (state.resume m.now req reply s))
    | .waiting run, .enter =>
      if sys.mayEnter m.task run then (task.op.enter? caller s).map (sys.after m.task task)
      else none
    | .ready, .cancel => some (sys.cancelled m.task task s)
    | .sending _ state, .cancel => some (sys.cancelled m.task task (state.cancel s))
    | .waiting run, .cancel => some (sys.cancelled m.task task (task.op.withdraw caller run s))
    | _, _ => none

def run (sys : System) (moves : List Move) : Option System := moves.foldlM step sys

end System
end StatusRelay
