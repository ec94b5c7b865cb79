import StatusRelay.CheckRun.Scan

namespace StatusRelay.CheckRun

structure Lookup where
  run : String
  scan : Scan
deriving Repr

namespace Lookup

/-- The first check run whose external name is that of the run; none in a listing that counts no
runs, whatever it has. -/
def find? (run : String) (l : Listing) : Option Int :=
  if l.total == 0 then none else (l.runs.find? (·.externalId == some run)).map (·.id)

def settle (run : String) (s : Scope) (l : Listing) : Turn Lookup (Option Int) :=
  match find? run l with
  | some id => .log s (.checkRunReused id run) (.done s (some id))
  | none => .done s none

def start (run : String) (q : Query) (s : Scope) : Turn Lookup (Option Int) :=
  (Scan.start q s).andThen (⟨run, ·⟩) (settle run)

def resume (l : Lookup) (req : Request) (reply : Reply) (s : Scope) : Turn Lookup (Option Int) :=
  (l.scan.resume req reply s).andThen (⟨l.run, ·⟩) (settle l.run)

end Lookup
end StatusRelay.CheckRun
