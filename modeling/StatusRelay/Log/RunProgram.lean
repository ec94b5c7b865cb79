import StatusRelay.Log.RunContext

namespace StatusRelay

inductive RunOp where
  | read
  /-- Enters a block that binds a name. -/
  | enter (name : String)
  /-- Leaves the innermost block. -/
  | leave
  /-- A block that fails; the failure is caught outside. -/
  | failIn (name : String)
  | inject (entry : Json.Members)
  | task (ops : List RunOp)
deriving Repr

inductive RunSight where
  | current (name : String)
  /-- The name inside a block that failed, and the name after it. -/
  | failed (inside after : String)
  | injected (entry : Json.Members)
  | task (sights : List RunSight) (current : String)
deriving Repr

namespace RunOp

mutual

def run (c : RunContext) : RunOp → RunSight × RunContext
  | read => (.current c.current, c)
  | enter name => (.current (c.enter name).current, c.enter name)
  | leave => (.current c.leave.current, c.leave)
  | failIn name =>
    (.failed (c.enter name).current (c.enter name).leave.current, (c.enter name).leave)
  | inject entry => (.injected (c.inject entry), c)
  | task ops => (.task (runAll c.child ops) c.current, c)

def runAll (c : RunContext) : List RunOp → List RunSight
  | [] => []
  | op :: ops => (run c op).1 :: runAll (run c op).2 ops

end

end RunOp
end StatusRelay
