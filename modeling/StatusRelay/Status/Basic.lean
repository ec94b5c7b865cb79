
namespace StatusRelay

structure Event where
  organization : String
  repository : String
  sha : String
  eventType : String
  pullRequest : Int
  /-- Statuses go to the commit itself, for want of an App installation. -/
  onCommit : Bool
deriving DecidableEq, Repr

structure Display where
  applicationName : String
  logUrl : String
deriving DecidableEq, Repr

structure RunStatus where
  /-- The pipeline run. -/
  run : String
  /-- Where the run is in its life. -/
  stage : String
  /-- The name under which the run was defined, before it got one of its own. -/
  baseRun : String
  /-- Empty as long as the run has not concluded. -/
  conclusion : String
  title : String
  summary : String
  text : String
  detailsUrl : String
deriving DecidableEq, Repr

namespace Stage

def inProgress : String := "in_progress"

def completed : String := "completed"

end Stage

namespace Conclusion

def success : String := "success"

def failure : String := "failure"

def skipped : String := "skipped"

def neutral : String := "neutral"

/-- Known to commit statuses only. -/
def pending : String := "pending"

/-- Title and summary of a known conclusion. The summary ends a sentence that starts with the
name of the application. -/
def wording? (conclusion : String) : Option (String × String) :=
  if conclusion == success then
    some ("Success", "has <b>successfully</b> validated your commit.")
  else if conclusion == failure then some ("Failed", "has <b>failed</b>.")
  else if conclusion == skipped then some ("Skipped", "is skipping this commit.")
  else if conclusion == neutral then
    some ("Unknown", "doesn't know what happened with this commit.")
  else none

def isTerminal (conclusion : String) : Bool := conclusion != "" && conclusion != pending

end Conclusion

def pullRequestEvent : String := "pull_request"

namespace RunStatus

def inProgressWording : String × String := ("CI has Started", "is running.")

/-- Title and summary: those of a run in progress first, then those of a known conclusion, then
the caller's. -/
def wording (s : RunStatus) : String × String :=
  if s.stage == Stage.inProgress then inProgressWording
  else (Conclusion.wording? s.conclusion).getD (s.title, s.summary)

/-- What the summary starts with: the application, and the base run where there is one. -/
def subject (s : RunStatus) (d : Display) : String :=
  d.applicationName ++ (if s.baseRun == "" then "" else "/" ++ s.baseRun)

def worded (s : RunStatus) (d : Display) : RunStatus :=
  { s with
    title := s.wording.1
    summary := s.subject d ++ " " ++ s.wording.2 }

/-- The name of a run's check, which is also the context of its commit statuses. -/
def checkName (s : RunStatus) (d : Display) : String :=
  if d.applicationName == "" then s.baseRun
  else if s.baseRun == "" then d.applicationName
  else d.applicationName ++ " / " ++ s.baseRun

/-- The state of a commit status, which knows neither skipped nor neutral. -/
def commitState (s : RunStatus) : String :=
  if s.stage == Stage.inProgress then Conclusion.pending
  else if s.conclusion == Conclusion.skipped || s.conclusion == Conclusion.neutral then
    Conclusion.success
  else s.conclusion

def wantsComment (s : RunStatus) (e : Event) : Bool :=
  s.stage == Stage.completed && s.text != "" && e.eventType == pullRequestEvent

def comment (s : RunStatus) : String := s.summary ++ "<br>" ++ s.text

end RunStatus
end StatusRelay
