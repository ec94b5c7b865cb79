import StatusRelay.Failure
import StatusRelay.Settings.EnvFile
import StatusRelay.Text.LowerCase

namespace StatusRelay.Settings

open Json (Value Members)

def names : List String :=
  ["github_app_id", "github_private_key", "github_api_url", "namespace", "application_name",
    "log_url", "http_timeout_seconds", "sentry_dsn", "debug"]

structure Reading where
  /-- Stands in front of every name. -/
  leader : String
  /-- Names are compared as they are, not in lower case. -/
  caseMatters : Bool
  /-- Empty values do not count. -/
  skipsEmpty : Bool
  /-- The value that stands for null. -/
  nullText : Option String
  readsFile : Bool
deriving DecidableEq, Repr

namespace Reading

def default : Reading := ⟨"", false, false, none, true⟩

def optionNames : List String :=
  ["_case_sensitive", "_nested_model_default_partial_update", "_env_prefix",
    "_env_prefix_target", "_env_file", "_env_file_encoding", "_env_ignore_empty",
    "_env_nested_delimiter", "_env_nested_max_split", "_env_parse_none_str", "_env_parse_enums",
    "_cli_prog_name", "_cli_parse_args", "_cli_settings_source", "_cli_parse_none_str",
    "_cli_hide_none_type", "_cli_avoid_json", "_cli_enforce_required",
    "_cli_use_class_docs_for_groups", "_cli_exit_on_error", "_cli_prefix",
    "_cli_flag_prefix_char", "_cli_implicit_flags", "_cli_ignore_unknown_args",
    "_cli_kebab_case", "_cli_shortcuts", "_secrets_dir", "_build_sources"]

def fileName : String := ".env"

def isFilePath (path : String) : Bool :=
  !path.startsWith "/" &&
    (path.splitOn "/").filter (fun part ↦ part != "" && part != ".") == [fileName]

def paths : Value → Except ShapeFault (List String)
  | .null => .ok []
  | .str path => .ok [path]
  | .arr items => items.mapM fun v ↦ match v with | .str path => .ok path | _ => .error .notContainer
  | .obj members => .ok (Table.keys members)
  | _ => .error .notContainer

def flag (given : Members) (name : String) : Bool := ((given.get? name).map Value.truthy).getD false

def text? (given : Members) (name : String) : Option String :=
  match given.get? name with
  | some (.str s) => some s
  | _ => none

def ofGiven (given : Members) : Except ShapeFault Reading := do
  let readsFile ←
    match given.get? "_env_file" with
    | some v => (paths v).map (·.any isFilePath)
    | none => .ok true
  .ok
    { leader := (text? given "_env_prefix").getD ""
      caseMatters := flag given "_case_sensitive"
      skipsEmpty := flag given "_env_ignore_empty"
      nullText := text? given "_env_parse_none_str"
      readsFile }

variable (r : Reading)

def fold (name : String) : String := if r.caseMatters then name else Text.lower name

def variableName (setting : String) : String := r.fold (r.leader ++ setting)

def value (text : String) : Value := if r.nullText == some text then .null else .str text

/-- Names as they are compared; of two that then agree the later one wins, in the place of the
first. -/
def table (entries : List (String × Option String)) : Table (Option String) :=
  Table.ofPairs
    ((entries.filter fun e ↦ !(r.skipsEmpty && e.2 == some "")).map fun e ↦ (r.fold e.1, e.2))

end Reading

/-- Where settings come from. One that is given directly wins over the environment, and the
environment over the file. -/
structure Sources where
  /-- Settings and options given directly. -/
  given : Members
  environment : Table String
  /-- The text of the settings file, if there is one. -/
  file : Option String

namespace Sources

variable (s : Sources) (r : Reading)

def environmentVariables : Table (Option String) :=
  r.table (s.environment.map fun e ↦ (e.1, some e.2))

def fileVariables : Table (Option String) :=
  match s.file with
  | some text => if r.readsFile then r.table (EnvFile.read s.environment text) else []
  | none => []

def given? (name : String) : Option Value :=
  (s.given.find? fun m ↦ r.fold m.1 == name).map (·.2)

def find? (name : String) : Option Value :=
  match s.given? r name with
  | some v => some v
  | none =>
    match (s.environmentVariables r).get? (r.variableName name) with
    | some (some t) => some (r.value t)
    | _ =>
      match (s.fileVariables r).get? (r.variableName name) with
      | some (some t) => some (r.value t)
      | _ => none

def unknownInFile : List String :=
  (s.fileVariables r).filterMap fun b ↦
    let isKnown := names.contains b.1 || (names.map r.variableName).contains b.1
    match b.2 with
    | some v => if v == "" || isKnown then none else some b.1
    | none => none

def unknownGiven : List String :=
  s.given.keys.filter fun k ↦
    !(names.contains (r.fold k) || Reading.optionNames.contains k ||
      (s.unknownInFile r).contains k)

def unknown : List String := s.unknownInFile r ++ s.unknownGiven r

end Sources
end StatusRelay.Settings
