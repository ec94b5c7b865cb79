import StatusRelay.Settings.Basic
import StatusRelay.Status.Basic

namespace StatusRelay

structure AppIdentity where
  appId : Int
  privateKey : String
deriving DecidableEq, Repr

namespace Settings

def identity (s : Settings) : Except Failure AppIdentity :=
  if s.appId == 0 || s.privateKey == "" then .error .appNotConfigured
  else .ok ⟨s.appId, s.privateKey⟩

def display (s : Settings) : Display := ⟨s.applicationName, s.logUrl⟩

end Settings

structure TimeLimits where
  connect : Binary64
  read : Binary64
  write : Binary64
  pool : Binary64
deriving DecidableEq, Repr

def Settings.timeLimits (s : Settings) : TimeLimits :=
  ⟨.ofInt 10, s.timeoutSeconds, s.timeoutSeconds, s.timeoutSeconds⟩

end StatusRelay
