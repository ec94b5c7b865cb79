import StatusRelay.Settings.Derived

namespace StatusRelay

inductive Connection where
  | own (limits : TimeLimits) (closed : Bool)
  | lent (closed : Bool)
deriving DecidableEq, Repr

namespace Connection

def isClosed : Connection → Bool
  | own _ closed => closed
  | lent closed => closed

def close : Connection → Connection
  | own limits _ => own limits true
  | lent closed => lent closed

def ofSettings (s : Settings) : Connection := own s.timeLimits false

end Connection
end StatusRelay
