import StatusRelay.CheckRun.Ensure
import StatusRelay.Installation.Listing
import StatusRelay.Report.Reporter

namespace StatusRelay

open Json (Value)

inductive Immediate where
  /-- Sets what is given and leaves the rest. -/
  | assign (apiUrl : Option String) (token : Option Value)
  | store (run : String) (id : Value)
  | load (run : String)
  | listingUrl (host : String)
  | sinkFor (r : Reporter) (e : Event)
  | reporterCache (r : Reporter)
deriving Repr

inductive ImmediateResult where
  | nothing
  | id (id : Option Int)
  | url (url : String)
  | sink (sink : Sink)
  /-- Whether there is a cache. -/
  | cache (present : Bool)
deriving Repr

namespace Immediate

def reporterScope (r : Reporter) (s : Scope) : Scope := if r.hasClient then s.attach else s

def run (s : Scope) : Immediate → Scope × Except Failure ImmediateResult
  | assign apiUrl token =>
    let i := s.client.identity
    (s.adopt ⟨apiUrl.getD i.apiUrl, token.getD i.token⟩, .ok .nothing)
  | store run id =>
    let s := s.attach
    match CheckRun.Ensure.store run id s with
    | .ok (_, s) => (s, .ok .nothing)
    | .error f => (s, .error f)
  | load run =>
    let s := s.attach
    (s, .ok (.id (s.client.runs.load run)))
  | listingUrl host => (s, .ok (.url (Installation.listingUrl s.client host)))
  | sinkFor r e => (s, (r.sinkFor e).map .sink)
  | reporterCache r => (reporterScope r s, .ok (.cache r.hasClient))

end Immediate
end StatusRelay
