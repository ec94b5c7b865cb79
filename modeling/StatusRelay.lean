import StatusRelay.App.Token
import StatusRelay.CheckRun.Creation
import StatusRelay.CheckRun.Ensure
import StatusRelay.CheckRun.Lookup
import StatusRelay.CheckRun.Scan
import StatusRelay.Crypto.Algorithm
import StatusRelay.Crypto.Base64
import StatusRelay.Crypto.Curve
import StatusRelay.Crypto.Der
import StatusRelay.Crypto.EcKey
import StatusRelay.Crypto.Pem
import StatusRelay.Crypto.Prime
import StatusRelay.Crypto.PrivateKey
import StatusRelay.Crypto.Rsa
import StatusRelay.Crypto.Sha256
import StatusRelay.Failure
import StatusRelay.GitHub.Client
import StatusRelay.GitHub.Connection
import StatusRelay.GitHub.Enterprise
import StatusRelay.GitHub.Lock
import StatusRelay.GitHub.Request
import StatusRelay.Installation.Listing
import StatusRelay.Installation.RepositoryScan
import StatusRelay.Installation.Resolve
import StatusRelay.Installation.TokenExchange
import StatusRelay.Json.Display
import StatusRelay.Json.Reader
import StatusRelay.Json.Value
import StatusRelay.Json.Writer
import StatusRelay.Log.Line
import StatusRelay.Log.Notice
import StatusRelay.Log.Output
import StatusRelay.Log.RunContext
import StatusRelay.Log.RunProgram
import StatusRelay.Log.Template
import StatusRelay.Number.Binary64
import StatusRelay.Number.Shortest
import StatusRelay.Payload.Issue
import StatusRelay.Payload.Numeral
import StatusRelay.Payload.Scalar
import StatusRelay.Payload.Schema
import StatusRelay.Proofs.App.Token
import StatusRelay.Proofs.CheckRun.Bounded
import StatusRelay.Proofs.CheckRun.Listed
import StatusRelay.Proofs.CheckRun.PagedLookup
import StatusRelay.Proofs.CheckRun.Pages
import StatusRelay.Proofs.CheckRun.Section
import StatusRelay.Proofs.CheckRun.Site
import StatusRelay.Proofs.Crypto.Base64
import StatusRelay.Proofs.Crypto.Pem
import StatusRelay.Proofs.GitHub.Alike
import StatusRelay.Proofs.GitHub.Page
import StatusRelay.Proofs.GitHub.Signing
import StatusRelay.Proofs.Installation.EnterpriseHost
import StatusRelay.Proofs.Installation.Exchanges
import StatusRelay.Proofs.Installation.FirstVisit
import StatusRelay.Proofs.Installation.ListingBody
import StatusRelay.Proofs.Installation.ListingPage
import StatusRelay.Proofs.Installation.QueryCourse
import StatusRelay.Proofs.Installation.QueryRun
import StatusRelay.Proofs.Installation.QueryTrace
import StatusRelay.Proofs.Installation.RepositoryPages
import StatusRelay.Proofs.Installation.SharedIdentity
import StatusRelay.Proofs.Json.Escape
import StatusRelay.Proofs.Json.Places
import StatusRelay.Proofs.Json.ReadBack
import StatusRelay.Proofs.Log.JsonLine
import StatusRelay.Proofs.Log.ReportContext
import StatusRelay.Proofs.Log.RunTasks
import StatusRelay.Proofs.Payload.Dump
import StatusRelay.Proofs.Payload.Fieldwise
import StatusRelay.Proofs.Payload.Omission
import StatusRelay.Proofs.Redaction
import StatusRelay.Proofs.Redaction.Places
import StatusRelay.Proofs.Report.CheckReport
import StatusRelay.Proofs.Report.CheckTrail
import StatusRelay.Proofs.Report.CommitReport
import StatusRelay.Proofs.Report.CommitState
import StatusRelay.Proofs.Report.Completion
import StatusRelay.Proofs.Report.Wording
import StatusRelay.Proofs.ServiceHook.Resource
import StatusRelay.Proofs.ServiceHook.Time
import StatusRelay.Proofs.Settings.EnvLine
import StatusRelay.Proofs.Settings.Flatten
import StatusRelay.Proofs.Settings.KeyText
import StatusRelay.Proofs.Settings.PrivateKey
import StatusRelay.Proofs.Task.Adoption
import StatusRelay.Proofs.Task.Agreement
import StatusRelay.Proofs.Task.Alone
import StatusRelay.Proofs.Task.Course
import StatusRelay.Proofs.Task.CreatedOnce
import StatusRelay.Proofs.Task.Credentials
import StatusRelay.Proofs.Task.Ending
import StatusRelay.Proofs.Task.ErrorFamily
import StatusRelay.Proofs.Task.FailFast
import StatusRelay.Proofs.Task.FailedEnsure
import StatusRelay.Proofs.Task.Misreading
import StatusRelay.Proofs.Task.Progress
import StatusRelay.Proofs.Task.Reading
import StatusRelay.Proofs.Task.Secrecy
import StatusRelay.Proofs.Task.SingleCreation
import StatusRelay.Proofs.Task.Standing
import StatusRelay.Proofs.Task.Traffic
import StatusRelay.Proofs.Text.Digits
import StatusRelay.Proofs.Time.Acceptance
import StatusRelay.Proofs.Time.Calendar
import StatusRelay.Proofs.Time.Iso
import StatusRelay.Proofs.Time.Spelling
import StatusRelay.Proofs.Time.Stamp
import StatusRelay.Proofs.Turn
import StatusRelay.Redaction
import StatusRelay.Report.Publish
import StatusRelay.Report.Reporter
import StatusRelay.ServiceHook.Model
import StatusRelay.ServiceHook.Time
import StatusRelay.Settings.Basic
import StatusRelay.Settings.Derived
import StatusRelay.Settings.EnvFile
import StatusRelay.Settings.Sources
import StatusRelay.Startup
import StatusRelay.Status.Basic
import StatusRelay.Status.Sink
import StatusRelay.Table
import StatusRelay.Task.Call
import StatusRelay.Task.EventLoop
import StatusRelay.Task.Immediate
import StatusRelay.Task.Operation
import StatusRelay.Task.Script
import StatusRelay.Task.Session
import StatusRelay.Task.System
import StatusRelay.Task.Turn
import StatusRelay.Text.Blank
import StatusRelay.Text.Digit
import StatusRelay.Text.Encoding
import StatusRelay.Text.LowerCase
import StatusRelay.Text.Printable
import StatusRelay.Text.Quoted
import StatusRelay.Text.Unit16
import StatusRelay.Time.Calendar
import StatusRelay.Time.Moment
import StatusRelay.Time.Rfc3339
