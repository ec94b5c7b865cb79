import StatusRelay.App.Token
import StatusRelay.Installation.RepositoryScan
import StatusRelay.Installation.TokenExchange

namespace StatusRelay

open Json (Value)

structure ResolveQuery where
  appToken : String
  /-- The enterprise host; empty for none. -/
  host : String
  /-- The address of the repository. -/
  target : String
  namespaceName : String
deriving Repr

/-- The answer to a query. No match is no failure. -/
structure Resolution where
  host : String
  /-- The token that was minted last; empty for none. -/
  token : Value
  /-- The installation that matched, with all addresses that were listed. -/
  found : Option (Installation × List Value)
deriving Repr

namespace Resolution

def installationId (r : Resolution) : Int :=
  match r.found with
  | some (i, _) => i.id
  | none => 0

def isMatched (r : Resolution) : Bool := r.installationId != 0

end Resolution

structure Walk where
  /-- The number of installations in the listing. -/
  count : Nat
  token : Value
  /-- The list of repositories, once there is one. -/
  repositories : Option (List Value)
deriving Repr

/-- A query that waits for an answer. Installations are visited in the order of the listing, and
each is exchanged for its token. The repositories are listed once, after the first exchange, and
that list serves for all that follow. -/
inductive Resolve where
  | listing (q : ResolveQuery) (l : Installation.Listing)
  | exchanging (q : ResolveQuery) (w : Walk) (current : Installation)
      (rest : List Installation) (x : TokenExchange)
  | scanning (q : ResolveQuery) (w : Walk) (current : Installation)
      (rest : List Installation) (scan : RepositoryScan)
deriving Repr

namespace Resolve

def isListed (target : String) (urls : List Value) : Bool :=
  urls.any fun v ↦
    match v with
    | .str url => url == target
    | _ => false

def unmatched (q : ResolveQuery) (w : Walk) (s : Scope) : Turn Resolve Resolution :=
  .log s (.repositoryUnmatched q.target w.count) (.done s ⟨q.host, w.token, none⟩)

variable (q : ResolveQuery) (current : Installation) (rest : List Installation)
  (onward : Walk → Scope → Turn Resolve Resolution)

def judge (w : Walk) (s : Scope) (urls : List Value) : Turn Resolve Resolution :=
  if isListed q.target urls then
    .log s (.repositoryMatched q.target current.id current.account)
      (.done s ⟨q.host, w.token, some (current, urls)⟩)
  else onward { w with repositories := some urls } s

def look (w : Walk) (s : Scope) : Turn Resolve Resolution :=
  match w.repositories with
  | some urls => judge q current onward w s urls
  | none =>
    (RepositoryScan.start s).andThen (.scanning q w current rest) (judge q current onward w)

def lookWith (w : Walk) (s : Scope) (token : Value) : Turn Resolve Resolution :=
  look q current rest onward { w with token } s

end Resolve

namespace Resolve

/-- Visits installations in order. The number zero has no token to exchange for, but is visited
like the others. -/
def visit (q : ResolveQuery) : List Installation → Walk → Scope → Turn Resolve Resolution
  | [], w, s => unmatched q w s
  | i :: rest, w, s =>
    if i.id == 0 then look q i rest (visit q rest) w s
    else
      (TokenExchange.start q.appToken q.host i.id q.namespaceName s).andThen
        (.exchanging q w i rest) (lookWith q i rest (visit q rest) w)

def afterListing (q : ResolveQuery) (s : Scope) (is : List Installation) :
    Turn Resolve Resolution :=
  visit q is ⟨is.length, .str "", none⟩ s

def start (q : ResolveQuery) (s : Scope) : Turn Resolve Resolution :=
  (Installation.Listing.start q.appToken q.host s).andThen (.listing q) (afterListing q)

def resume (r : Resolve) (req : Request) (reply : Reply) (s : Scope) : Turn Resolve Resolution :=
  match r with
  | listing q l => (l.resume reply s).andThen (.listing q) (afterListing q)
  | exchanging q w i rest x =>
    (x.resume req reply s).andThen (.exchanging q w i rest) (lookWith q i rest (visit q rest) w)
  | scanning q w i rest scan =>
    (scan.resume req reply s).andThen (.scanning q w i rest) (judge q i (visit q rest) w)

/-- A query for the App that is configured: its token is signed first, and the host is that of the
webhook's headers. -/
def startConfigured (clock : Moment) (settings : Settings) (target : String)
    (headers : Table String) (s : Scope) : Turn Resolve Resolution :=
  .ofExcept s settings.identity fun app ↦
    .ofExcept s (AppToken.now clock) fun now ↦
      .ofExcept s (AppToken.create (.int app.appId) app.privateKey now) fun token ↦
        start ⟨token.text, Enterprise.hostOf headers, target, settings.namespaceName⟩ s

end Resolve
end StatusRelay
