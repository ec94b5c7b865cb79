import StatusRelay.GitHub.Request

namespace StatusRelay

structure Route where
  method : String
  url : String
  /-- `none` stands for no reply ever. -/
  replies : List (Option Reply)
deriving Repr

namespace Route

def serves (r : Route) (req : Request) : Bool := r.method == req.method && r.url == req.url

def spent : List (Option Reply) → List (Option Reply)
  | [] => []
  | [last] => [last]
  | _ :: rest => rest

def reply (r : Route) : Option Reply := r.replies.head?.join

def advance (r : Route) : Route := { r with replies := spent r.replies }

end Route

/-- A route has its replies in order; each is given once, but the last one stays. A request for
which there is no route is answered by status 404. -/
abbrev Script := List Route

namespace Script

def notFound : Reply := .answered ⟨404, .json (.obj [("message", .str "Not Found")])⟩

def answer (req : Request) : Script → Option Reply × Script
  | [] => (some notFound, [])
  | route :: rest =>
    if route.serves req then (route.reply, route.advance :: rest)
    else ((answer req rest).1, route :: (answer req rest).2)

end Script
end StatusRelay
