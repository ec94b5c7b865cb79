import StatusRelay.Status.Basic

namespace StatusRelay

/-- A check run, which is updated in place and needs an App installation, or a commit status, which
works with any token. -/
inductive Sink where
  /-- Check runs of the App with this number. -/
  | checkRun (appId : Int)
  | commitStatus
deriving DecidableEq, Repr

namespace Sink

def name : Sink → String
  | checkRun _ => "CheckRunSink"
  | commitStatus => "CommitStatusSink"

def ofEvent (e : Event) (appId : Int) : Sink := if e.onCommit then commitStatus else checkRun appId

end Sink

structure StatusWrite where
  event : Event
  display : Display
  status : RunStatus
deriving DecidableEq, Repr

namespace StatusWrite

def worded (w : StatusWrite) : StatusWrite := { w with status := w.status.worded w.display }

def checkName (w : StatusWrite) : String := w.status.checkName w.display

end StatusWrite
end StatusRelay
