import StatusRelay.Payload.Scalar
import StatusRelay.Settings.Sources

namespace StatusRelay

structure Settings where
  appId : Int
  /-- The text of the key file, not its path. -/
  privateKey : String
  apiUrl : String
  /-- Scope of the stored credentials. -/
  namespaceName : String
  applicationName : String
  logUrl : String
  timeoutSeconds : Binary64
  /-- Where errors are reported; blank for nowhere. -/
  reportingDsn : String
  debug : Bool
deriving DecidableEq, Repr

namespace Settings

open Json (Value Members)
open Payload (Checked Scalar.text Scalar.whole Scalar.number Scalar.truth)

def default : Settings :=
  { appId := 0
    privateKey := ""
    apiUrl := "https://api.github.com"
    namespaceName := "pipelines-as-code"
    applicationName := "Pipelines as Code CI"
    logUrl := ""
    timeoutSeconds := .ofInt 30
    reportingDsn := ""
    debug := true }

def unflatten : List Char → List Char
  | '\\' :: 'n' :: rest => '\n' :: unflatten rest
  | c :: rest => c :: unflatten rest
  | [] => []

def unflattenKey (s : String) : String := String.ofList (unflatten s.toList)

def flatMark : String := "\\n"

/-- The rule for private keys, which runs before the check that the value is a text: it looks for
the mark inside the value and replaces it where it is found. -/
def keyRule : Value → Except ShapeFault Value
  | .str s => .ok (.str (unflattenKey s))
  | .arr items =>
    if items.any (fun v ↦ match v with | .str s => s == flatMark | _ => false) then
      .error .notObject
    else .ok (.arr items)
  | .obj members => if Table.has members flatMark then .error .notObject else .ok (.obj members)
  | _ => .error .notContainer

variable (s : Sources) (r : Reading)

def setting {α : Type} (name : String) (check : Value → Except Payload.Problem α) (dflt : α) :
    Checked α :=
  match s.find? r name with
  | some v => Checked.under (.member name) (.ofExcept (check v))
  | none => .ok dflt

def rejectUnknown : Checked Unit :=
  if (s.unknown r).isEmpty then .ok ()
  else .error ((s.unknown r).map fun name ↦ ⟨.unknownName, [.member name]⟩)

def checked (privateKey : Checked String) : Checked Settings :=
  let d := Settings.default
  Checked.map
    (fun (appId, privateKey, apiUrl, namespaceName, applicationName, logUrl, timeoutSeconds,
        reportingDsn, debug, _) ↦
      { appId, privateKey, apiUrl, namespaceName, applicationName, logUrl, timeoutSeconds,
        reportingDsn, debug })
    (.both (setting s r "github_app_id" Scalar.whole d.appId)
    (.both privateKey
    (.both (setting s r "github_api_url" Scalar.text d.apiUrl)
    (.both (setting s r "namespace" Scalar.text d.namespaceName)
    (.both (setting s r "application_name" Scalar.text d.applicationName)
    (.both (setting s r "log_url" Scalar.text d.logUrl)
    (.both (setting s r "http_timeout_seconds" Scalar.number d.timeoutSeconds)
    (.both (setting s r "sentry_dsn" Scalar.text d.reportingDsn)
    (.both (setting s r "debug" Scalar.truth d.debug)
    (rejectUnknown s r))))))))))

def checkedKey : Except ShapeFault (Checked String) :=
  match s.find? r "github_private_key" with
  | none => .ok (.ok Settings.default.privateKey)
  | some v =>
    match keyRule v with
    | .error fault => .error fault
    | .ok v => .ok (Checked.under (.member "github_private_key") (.ofExcept (Scalar.text v)))

def load : Except Failure Settings :=
  match Reading.ofGiven s.given with
  | .error fault => .error (.shape fault)
  | .ok r =>
    match checkedKey s r with
    | .error fault => .error (.shape fault)
    | .ok privateKey =>
      match checked s r privateKey with
      | .ok settings => .ok settings
      | .error issues => .error (.invalid "Settings" issues)

end Settings
end StatusRelay
