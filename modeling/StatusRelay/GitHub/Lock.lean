
namespace StatusRelay

abbrev TaskId := Nat

/-- A lock that is free while tasks wait for it belongs to the one that waits longest, so that
nobody who comes later can take it first. -/
structure Lock where
  holder : Option TaskId
  /-- Waiting tasks, the one that waits longest first. -/
  queue : List TaskId
deriving DecidableEq, Repr

namespace Lock

def free : Lock := ⟨none, []⟩

def isHeld (l : Lock) : Bool := l.holder.isSome

def isOpen (l : Lock) : Bool := l.holder.isNone && l.queue.isEmpty

def enqueue (l : Lock) (t : TaskId) : Lock := { l with queue := l.queue ++ [t] }

def withdraw (l : Lock) (t : TaskId) : Lock := { l with queue := l.queue.filter (· != t) }

def grant (l : Lock) (t : TaskId) : Lock := { l.withdraw t with holder := some t }

def release (l : Lock) : Lock := { l with holder := none }

def next? (l : Lock) : Option TaskId := if l.isHeld then none else l.queue.head?

end Lock
end StatusRelay
