import StatusRelay.Json.Display
import StatusRelay.Status.Sink

namespace StatusRelay

/-- What the provider logs about its own work. No notice carries a token or a key. -/
inductive Notice where
  | tokenObtained (installation : Int) (namespaceName : String)
  | repositoriesListed (count : Nat)
  | checkRunReused (id : Int) (run : String)
  | checkRunCreated (id : Json.Value) (run : String) (event : Event)
  | reporting (w : StatusWrite) (sink : Sink)
  | repositoryMatched (url : String) (installation : Int) (account : String)
  | repositoryUnmatched (url : String) (checked : Nat)
deriving Repr

namespace Notice

def level : Notice → Int
  | repositoriesListed _ => 10
  | checkRunReused _ _ => 10
  | repositoryUnmatched _ _ => 30
  | _ => 20

def commit (e : Event) : String := e.organization ++ "/" ++ e.repository ++ "@" ++ e.sha

def text : Notice → String
  | tokenObtained id namespaceName =>
    "Obtained installation token for " ++ toString id ++ " (namespace=" ++ namespaceName ++ ")"
  | repositoriesListed count =>
    "Listed " ++ toString count ++ " repositories for installation"
  | checkRunReused id run => "Reusing check run " ++ toString id ++ " for " ++ run
  | checkRunCreated id run event =>
    "Created check run " ++ id.display ++ " for " ++ run ++ " on " ++ commit event
  | reporting w sink =>
    let conclusion := if w.status.conclusion == "" then "-" else w.status.conclusion
    "Reporting " ++ w.status.stage ++ "/" ++ conclusion ++ " to " ++ commit w.event ++ " via " ++
      sink.name
  | repositoryMatched url id account =>
    "Repository " ++ url ++ " matched installation " ++ toString id ++ " (" ++ account ++ ")"
  | repositoryUnmatched url checked =>
    "No installation of the App can access " ++ url ++ " (" ++ toString checked ++ " checked)"

end Notice

structure Record where
  notice : Notice
  run : String
deriving Repr

end StatusRelay
