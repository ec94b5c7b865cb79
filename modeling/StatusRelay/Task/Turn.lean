import StatusRelay.GitHub.Client
import StatusRelay.Log.Notice
import StatusRelay.Log.RunContext
import StatusRelay.Time.Moment

namespace StatusRelay

structure Caller where
  task : TaskId
  now : Moment
deriving Repr

/-- What a task can change: the client, which it shares, and the context of its own. -/
structure Scope where
  client : Client
  context : RunContext
deriving Repr

namespace Scope

def mapClient (s : Scope) (f : Client → Client) : Scope := { s with client := f s.client }

def mapRuns (s : Scope) (f : RunCache → RunCache) : Scope := s.mapClient (·.mapRuns f)

def mapLock (s : Scope) (run : String) (f : Lock → Lock) : Scope := s.mapRuns (·.mapLock run f)

def attach (s : Scope) : Scope := s.mapClient Client.attach

/-- Both halves of the identity change together. -/
def adopt (s : Scope) (i : Identity) : Scope := s.mapClient fun c ↦ { c with identity := i }

def enter (s : Scope) (run : String) : Scope := { s with context := s.context.enter run }

def leave (s : Scope) : Scope := { s with context := s.context.leave }

end Scope

inductive Next (σ α : Type) where
  | done (result : Except Failure α)
  | send (request : Request) (state : σ)
  /-- Waits for the lock of a run. -/
  | wait (run : String)
deriving Repr

/-- What a task does between two pauses: it runs without interruption up to its next request, to a
lock that is not its own to take, or to its end. -/
structure Turn (σ α : Type) where
  scope : Scope
  records : List Record
  next : Next σ α
deriving Repr

namespace Turn

variable {σ τ α β : Type}

def finish (s : Scope) (r : Except Failure α) : Turn σ α := ⟨s, [], .done r⟩

def done (s : Scope) (a : α) : Turn σ α := finish s (.ok a)

def fail (s : Scope) (f : Failure) : Turn σ α := finish s (.error f)

def wait (s : Scope) (run : String) : Turn σ α := ⟨s, [], .wait run⟩

def send (s : Scope) (r : Except Failure Request) (state : σ) : Turn σ α :=
  match r with
  | .ok r => ⟨s, [], .send r state⟩
  | .error f => fail s f

def log (s : Scope) (n : Notice) (rest : Turn σ α) : Turn σ α :=
  { rest with records := ⟨n, s.context.current⟩ :: rest.records }

def followedBy (t : Turn σ α) (wrap : σ → τ) (rest : Scope → Except Failure α → Turn τ β) :
    Turn τ β :=
  match t.next with
  | .done r =>
    let u := rest t.scope r
    { u with records := t.records ++ u.records }
  | .send req state => ⟨t.scope, t.records, .send req (wrap state)⟩
  | .wait run => ⟨t.scope, t.records, .wait run⟩

def andThen (t : Turn σ α) (wrap : σ → τ) (rest : Scope → α → Turn τ β) : Turn τ β :=
  t.followedBy wrap fun s r ↦
    match r with
    | .ok a => rest s a
    | .error f => fail s f

def map (t : Turn σ α) (wrap : σ → τ) (f : α → β) : Turn τ β :=
  t.andThen wrap fun s a ↦ done s (f a)

def ofExcept (s : Scope) (r : Except Failure α) (rest : α → Turn σ β) : Turn σ β :=
  match r with
  | .ok a => rest a
  | .error f => fail s f

end Turn
end StatusRelay
