import StatusRelay.Task.Turn

namespace StatusRelay

open Json (Value Members)

structure RepositoryScan where
  page : Nat
  /-- Addresses from the pages before. -/
  found : List Value
deriving Repr

namespace RepositoryScan

def path : String := "/installation/repositories"

def request (c : Client) (page : Nat) : Except Failure Request := c.get path (Page.params page)

/-- The elements of a value; a text or an object has none only when it is empty. -/
def elements : Value → Except Failure (List Value)
  | .arr vs => .ok vs
  | .str s => if s == "" then .ok [] else .error (.shape .notContainer)
  | .obj ms => if ms.isEmpty then .ok [] else .error (.shape .notContainer)
  | _ => .error (.shape .notContainer)

def entries : Value → Except Failure (List Value)
  | .obj ms =>
    match Table.get? ms "repositories" with
    | some v => elements v
    | none => .ok []
  | _ => .error (.shape .notObject)

/-- The address of a repository, taken as it comes. -/
def address : Value → Except Failure Value
  | .obj ms =>
    match Table.get? ms "html_url" with
    | some v => .ok v
    | none => .error (.shape .memberMissing)
  | _ => .error (.shape .notContainer)

def addresses : List Value → Except Failure (List Value)
  | [] => .ok []
  | v :: vs => do
    let url ← address v
    let urls ← addresses vs
    return url :: urls

def batch (req : Request) (reply : Reply) : Except Failure (List Value) := do
  let body ← reply.json req
  let vs ← entries body
  addresses vs

def start (s : Scope) : Turn RepositoryScan (List Value) :=
  .send s (request s.client 1) ⟨1, []⟩

def resume (scan : RepositoryScan) (req : Request) (reply : Reply) (s : Scope) :
    Turn RepositoryScan (List Value) :=
  .ofExcept s (batch req reply) fun urls ↦
    let all := scan.found ++ urls
    if urls.length < Page.size then .log s (.repositoriesListed all.length) (.done s all)
    else .send s (request s.client (scan.page + 1)) ⟨scan.page + 1, all⟩

end RepositoryScan
end StatusRelay
