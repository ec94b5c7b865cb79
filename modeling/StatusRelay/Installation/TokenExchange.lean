import StatusRelay.Installation.Listing

namespace StatusRelay

open Json (Value)

structure TokenExchange where
  /-- The base that the new token belongs to. -/
  apiUrl : String
  installation : Int
  /-- Where the credential belongs; for the log only. -/
  namespaceName : String
deriving Repr

namespace TokenExchange

def url (base : String) (installation : Int) : String :=
  base ++ Installation.path ++ "/" ++ toString installation ++ "/access_tokens"

def start (appToken host : String) (installation : Int) (namespaceName : String) (s : Scope) :
    Turn TokenExchange Value :=
  let base := Installation.base s.client host
  .send s (s.client.request "POST" (url base installation) (.str appToken) none none)
    ⟨base, installation, namespaceName⟩

/-- The token in an answer, any value that counts as present. -/
def tokenOf (installation : Int) : Value → Except Failure Value
  | .obj ms =>
    match Table.get? ms "token" with
    | some token =>
      if token.truthy then .ok token else .error (.protocol (.exchangeWithoutToken installation))
    | none => .error (.protocol (.exchangeWithoutToken installation))
  | _ => .error (.shape .notObject)

def minted (x : TokenExchange) (req : Request) (reply : Reply) : Except Failure Value :=
  match reply.json req with
  | .ok v => tokenOf x.installation v
  | .error f => .error f

def resume (x : TokenExchange) (req : Request) (reply : Reply) (s : Scope) :
    Turn TokenExchange Value :=
  .ofExcept s (x.minted req reply) fun token ↦
    let s := s.adopt ⟨x.apiUrl, token⟩
    .log s (.tokenObtained x.installation x.namespaceName) (.done s token)

/-- An exchange for an installation that may be none: the number zero has no token. -/
def startUnlessZero (appToken host : String) (installation : Int) (namespaceName : String)
    (s : Scope) : Turn TokenExchange (Option Value) :=
  if installation == 0 then .done s none
  else (start appToken host installation namespaceName s).map id some

end TokenExchange
end StatusRelay
