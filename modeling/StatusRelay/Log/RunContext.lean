import StatusRelay.Json.Value

namespace StatusRelay

/-- The pipeline run that is being reported, as a task sees it. Each open block keeps the name that
was current before it, and leaving it brings that name back. -/
structure RunContext where
  /-- Empty for none. -/
  current : String
  /-- What the blocks that are open in this task keep, that of the innermost first. -/
  saved : List String
deriving DecidableEq, Repr

namespace RunContext

def initial : RunContext := ⟨"", []⟩

def enter (c : RunContext) (name : String) : RunContext := ⟨name, c.current :: c.saved⟩

def leave (c : RunContext) : RunContext :=
  match c.saved with
  | [] => c
  | before :: saved => ⟨before, saved⟩

def child (c : RunContext) : RunContext := ⟨c.current, []⟩

@[simp]
theorem current_enter (c : RunContext) (name : String) : (c.enter name).current = name := rfl

@[simp]
theorem leave_enter (c : RunContext) (name : String) : (c.enter name).leave = c := rfl

end RunContext

def runKey : String := "pipeline_run"

def RunContext.inject (c : RunContext) (entry : Json.Members) : Json.Members :=
  if c.current == "" then entry else Table.put runKey (.str c.current) entry

end StatusRelay
