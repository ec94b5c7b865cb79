import StatusRelay.Log.Output
import StatusRelay.Redaction
import StatusRelay.Settings.Derived
import StatusRelay.Text.Blank

namespace StatusRelay

inductive Integration where
  | http
deriving DecidableEq, Repr

inductive ReportHook where
  | scrub
deriving DecidableEq, Repr

def ReportHook.run : ReportHook → Json.Value → Redaction.Pass
  | .scrub => Redaction.scrub

structure Reporting where
  dsn : String
  environment : String
  integrations : List Integration
  /-- The share of calls that are traced. -/
  traceRate : Binary64
  sendPersonalData : Bool
  beforeSend : ReportHook
deriving DecidableEq, Repr

namespace Settings

def environmentName (s : Settings) : String := if s.debug then "development" else "production"

/-- Errors are reported unless the address is blank. Nothing personal is sent by default. -/
def reporting? (s : Settings) : Option Reporting :=
  if s.reportingDsn.toList.all Text.isBlank then none
  else
    some
      { dsn := s.reportingDsn
        environment := s.environmentName
        integrations := [.http]
        traceRate := .ofDecimal false 1 (-1)
        sendPersonalData := false
        beforeSend := .scrub }

def logSetup (s : Settings) : Log.Setup := ⟨s.debug⟩

end Settings

structure Service where
  /-- Ways in which records of the standard loggers are printed, one line each. -/
  handlers : List Log.Setup
  /-- How a structured logger prints that is used for the first time. -/
  setup : Option Log.Setup
  /-- The structured loggers that were used, with the setup that each of them keeps. -/
  loggers : Table Log.Setup
  /-- Error reporting, as often as it was started. -/
  reporting : List Reporting
deriving Repr

namespace Service

def initial : Service := ⟨[], none, [], []⟩

/-- Printing is replaced and not added to, so that each record is printed once. Loggers that were
used before go on as they did. -/
def setLogging (p : Service) (setup : Log.Setup) : Service :=
  { p with handlers := [setup], setup := some setup }

def setupOf? (p : Service) (logger : String) : Option Log.Setup :=
  (p.loggers.get? logger).or p.setup

section Printing

variable (limits : Json.Limits)

def call (p : Service) (logger timestamp : String) (run : RunContext) (e : Log.Entry) :
    Except Failure (List String) × Service :=
  match p.setupOf? logger with
  | none => (.ok [], p)
  | some setup =>
    ((setup.print limits timestamp run e).map ([·]),
      { p with loggers := p.loggers.put logger setup })

def record (p : Service) (timestamp : String) (run : RunContext) (r : Log.PlainRecord) :
    List String := p.handlers.filterMap (·.printRecord? limits timestamp run r)

end Printing

def configure (p : Service) (s : Settings) : Service :=
  let p := p.setLogging s.logSetup
  { p with reporting := p.reporting ++ s.reporting?.toList }

end Service
end StatusRelay
