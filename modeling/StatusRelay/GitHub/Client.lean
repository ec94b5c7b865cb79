import StatusRelay.GitHub.Lock
import StatusRelay.GitHub.Request
import StatusRelay.Settings.Derived
import StatusRelay.Text.Blank

namespace StatusRelay

open Json (Value Members)

structure Identity where
  apiUrl : String
  /-- An installation token or a personal one; null for none. -/
  token : Value
deriving Repr

namespace Identity

def isAbsolute (path : String) : Bool :=
  "http://".toList.isPrefixOf path.toList || "https://".toList.isPrefixOf path.toList

/-- An absolute path is a URL already, any other is appended to the base. -/
def url (i : Identity) (path : String) : String :=
  if isAbsolute path then path else i.apiUrl ++ path

def bearer? (i : Identity) (given : Value) : Option Value :=
  if given.truthy then some given
  else if i.token.truthy then some i.token
  else none

end Identity

structure RunCache where
  ids : Table Int
  locks : Table Lock
deriving Repr

namespace RunCache

def empty : RunCache := ⟨[], []⟩

def load (c : RunCache) (run : String) : Option Int := c.ids.get? run

def store (c : RunCache) (run : String) (id : Int) : RunCache :=
  { c with ids := c.ids.put run id }

/-- The lock of a name; one that nobody asked for yet is free. -/
def lock (c : RunCache) (run : String) : Lock := (c.locks.get? run).getD .free

def mapLock (c : RunCache) (run : String) (f : Lock → Lock) : RunCache :=
  { c with locks := c.locks.put run (f (c.lock run)) }

def held (c : RunCache) : List String := Table.keys (c.locks.filter (·.2.isHeld))

def admissible (c : RunCache) : List TaskId := c.locks.filterMap (·.2.next?)

@[simp] theorem load_store_self (c : RunCache) (run : String) (id : Int) :
    (c.store run id).load run = some id := by simp [load, store]

theorem load_store_of_ne {run other : String} (h : other ≠ run) (c : RunCache) (id : Int) :
    (c.store run id).load other = c.load other := Table.get?_put_of_ne h c.ids id

@[simp] theorem load_mapLock (c : RunCache) (run other : String) (f : Lock → Lock) :
    (c.mapLock run f).load other = c.load other := rfl

@[simp] theorem lock_store (c : RunCache) (run other : String) (id : Int) :
    (c.store run id).lock other = c.lock other := rfl

@[simp] theorem lock_mapLock_self (c : RunCache) (run : String) (f : Lock → Lock) :
    (c.mapLock run f).lock run = f (c.lock run) := by simp [lock, mapLock]

theorem lock_mapLock_of_ne {run other : String} (h : other ≠ run) (c : RunCache)
    (f : Lock → Lock) : (c.mapLock run f).lock other = c.lock other := by
  simp [lock, mapLock, Table.get?_put_of_ne h]

end RunCache

namespace Page

def size : Nat := 100

/-- Pages are counted from one. -/
def params (page : Nat) : Members := [("per_page", .int size), ("page", .int page)]

end Page

/-- An identity, which can be exchanged for another, and a cache of check runs, which all who report
through the client share. The cache is attached on first use. -/
structure Client where
  identity : Identity
  /-- `none` until it is first used. -/
  cache : Option RunCache
deriving Repr

namespace Client

def normalBase (url : String) : String := String.ofList (Text.trimEndBy (· == '/') url.toList)

def create (apiUrl : String) (token : Value) : Client := ⟨⟨normalBase apiUrl, token⟩, none⟩

def ofSettings (s : Settings) (token : Value) : Client := create s.apiUrl token

def runs (c : Client) : RunCache := c.cache.getD .empty

def mapRuns (c : Client) (f : RunCache → RunCache) : Client := { c with cache := some (f c.runs) }

def attach (c : Client) : Client := c.mapRuns id

def request (c : Client) (method path : String) (token : Value) (body : Option Value)
    (params : Option Members) : Except Failure Request :=
  match c.identity.bearer? token with
  | none => .error .noToken
  | some bearer => .ok ⟨method, c.identity.url path, bearer, body, params⟩

def get (c : Client) (path : String) (params : Members) : Except Failure Request :=
  c.request "GET" path .null none (some params)

def send (c : Client) (method path : String) (body : Value) : Except Failure Request :=
  c.request method path .null (some body) none

@[simp] theorem runs_mapRuns (c : Client) (f : RunCache → RunCache) :
    (c.mapRuns f).runs = f c.runs := rfl

@[simp] theorem identity_mapRuns (c : Client) (f : RunCache → RunCache) :
    (c.mapRuns f).identity = c.identity := rfl

end Client
end StatusRelay
