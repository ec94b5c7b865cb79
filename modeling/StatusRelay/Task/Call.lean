import StatusRelay.CheckRun.Creation
import StatusRelay.Report.Publish

namespace StatusRelay

open Json (Value Members)

inductive Call where
  /-- Any request, by the token given or else the client's own. -/
  | plain (method path : String) (token : Value) (body : Option Value) (params : Option Members)
  /-- A request by an App token, whose answer is taken whatever its status. -/
  | unchecked (method url appToken : String)
  | createCheckRun (organization repository : String) (payload : Value)
  | updateCheckRun (organization repository : String) (id : Int) (payload : Value)
  | createStatus (organization repository sha : String) (payload : Value)
  | createComment (organization repository : String) (number : Int) (body : String)
deriving Repr

inductive CallResult where
  | response (r : Response)
  | value (v : Value)
deriving Repr

namespace Call

def repositoryPath (organization repository : String) : String :=
  "/repos/" ++ organization ++ "/" ++ repository

def request (c : Client) : Call → Except Failure Request
  | plain method path token body params => c.request method path token body params
  | unchecked method url appToken => .ok (.bare method url (.str appToken))
  | createCheckRun org repo payload =>
    c.send "POST" (repositoryPath org repo ++ "/check-runs") payload
  | updateCheckRun org repo id payload =>
    c.send "PATCH" (repositoryPath org repo ++ "/check-runs/" ++ toString id) payload
  | createStatus org repo sha payload =>
    c.send "POST" (repositoryPath org repo ++ "/statuses/" ++ sha) payload
  | createComment org repo number body =>
    c.send "POST" (repositoryPath org repo ++ "/issues/" ++ toString number ++ "/comments")
      (commentPayload body)

def result (req : Request) (reply : Reply) : Call → Except Failure CallResult
  | plain _ _ _ _ _ => (reply.accepted req).map .response
  | unchecked _ _ _ => reply.response.map .response
  | _ => (reply.json req).map .value

end Call
end StatusRelay
