import StatusRelay.Installation.Resolve
import StatusRelay.Task.Call
import StatusRelay.Task.Immediate

namespace StatusRelay

open Json (Value)

inductive Operation where
  | immediate (i : Immediate)
  | call (c : Call)
  | exchangeToken (appToken host : String) (installation : Int) (namespaceName : String)
  /-- Like `exchangeToken`, but the number zero is no installation. -/
  | mintToken (appToken host : String) (installation : Int) (namespaceName : String)
  | listRepositories
  | listCheckRuns (q : CheckRun.Query)
  | listInstallations (appToken host : String)
  | resolve (q : ResolveQuery)
  | resolveConfigured (s : Settings) (target : String) (headers : Table String)
  | ensureCheckRun (g : CheckRun.Goal)
  | findCheckRun (g : CheckRun.Goal)
  | createCheckRun (w : StatusWrite)
  | publish (sink : Sink) (w : StatusWrite)
  | report (r : Reporter) (w : StatusWrite)
deriving Repr

inductive Outcome where
  | immediate (r : ImmediateResult)
  | call (r : CallResult)
  | token (token : Option Value)
  | urls (urls : List Value)
  | checkRuns (l : CheckRun.Listing)
  | installations (is : List Installation)
  | resolution (r : Resolution)
  | checkRun (id : Int)
  | foundCheckRun (id : Option Int)
  | createdCheckRun (id : Value)
  | written
deriving Repr

inductive Running where
  | call (c : Call)
  | exchanging (x : TokenExchange)
  | listingRepositories (scan : RepositoryScan)
  | listingCheckRuns (scan : CheckRun.Scan)
  | listingInstallations (l : Installation.Listing)
  | resolving (r : Resolve)
  | ensuring (e : CheckRun.Ensure)
  | finding (l : CheckRun.Lookup)
  | creating (c : CheckRun.Creation)
  | publishing (p : Publish)
  | reporting (p : Publish)
deriving Repr

namespace Operation

def start (caller : Caller) (op : Operation) (s : Scope) : Turn Running Outcome :=
  match op with
  | immediate i => .finish (i.run s).1 ((i.run s).2.map .immediate)
  | call c => .send s (c.request s.client) (.call c)
  | exchangeToken appToken host id namespaceName =>
    (TokenExchange.start appToken host id namespaceName s).map .exchanging
      fun token ↦ .token (some token)
  | mintToken appToken host id namespaceName =>
    (TokenExchange.startUnlessZero appToken host id namespaceName s).map .exchanging .token
  | listRepositories => (RepositoryScan.start s).map .listingRepositories .urls
  | listCheckRuns q => (CheckRun.Scan.start q s).map .listingCheckRuns .checkRuns
  | listInstallations appToken host =>
    (Installation.Listing.start appToken host s).map .listingInstallations .installations
  | resolve q => (Resolve.start q s).map .resolving .resolution
  | resolveConfigured settings target headers =>
    (Resolve.startConfigured caller.now settings target headers s).map .resolving .resolution
  | ensureCheckRun g => (CheckRun.Ensure.start caller g s).map .ensuring .checkRun
  | findCheckRun g =>
    (CheckRun.Lookup.start g.run g.query s.attach).map .finding .foundCheckRun
  | createCheckRun w =>
    (CheckRun.Creation.start caller.now w s.attach).map .creating .createdCheckRun
  | publish sink w => (Publish.start caller sink w s).map .publishing fun _ ↦ .written
  | report r w => (Reporter.start caller r w s).map .reporting fun _ ↦ .written

def enter? (caller : Caller) (op : Operation) (s : Scope) : Option (Turn Running Outcome) :=
  match op with
  | ensureCheckRun g => some ((CheckRun.Ensure.enter caller g s).map .ensuring .checkRun)
  | publish (.checkRun appId) w =>
    some ((Publish.enter caller appId w s).map .publishing fun _ ↦ .written)
  | report r w => some ((Reporter.enter caller r w s).map .reporting fun _ ↦ .written)
  | _ => none

def withdraw (caller : Caller) (op : Operation) (run : String) (s : Scope) : Scope :=
  let s := s.mapLock run (·.withdraw caller.task)
  match op with
  | report _ _ => s.leave
  | _ => s

end Operation

namespace Running

def resume (now : Moment) (r : Running) (req : Request) (reply : Reply) (s : Scope) :
    Turn Running Outcome :=
  match r with
  | call c => .finish s ((c.result req reply).map .call)
  | exchanging x => (x.resume req reply s).map .exchanging fun token ↦ .token (some token)
  | listingRepositories scan => (scan.resume req reply s).map .listingRepositories .urls
  | listingCheckRuns scan => (scan.resume req reply s).map .listingCheckRuns .checkRuns
  | listingInstallations l => (l.resume reply s).map .listingInstallations .installations
  | resolving r => (r.resume req reply s).map .resolving .resolution
  | ensuring e => (e.resume now req reply s).map .ensuring .checkRun
  | finding l => (l.resume req reply s).map .finding .foundCheckRun
  | creating c => (c.resume req reply s).map .creating .createdCheckRun
  | publishing p => (p.resume now req reply s).map .publishing fun _ ↦ .written
  | reporting p => (Reporter.resume now p req reply s).map .reporting fun _ ↦ .written

def cancel (r : Running) (s : Scope) : Scope :=
  match r with
  | ensuring e => e.cancel s
  | publishing p => p.cancel s
  | reporting p => Reporter.cancel p s
  | _ => s

end Running
end StatusRelay
