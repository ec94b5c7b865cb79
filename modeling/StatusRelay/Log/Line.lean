import StatusRelay.Failure
import StatusRelay.Log.RunContext

namespace StatusRelay.Log

open Json (Value Members)

structure Entry where
  /-- The name of the level, in lower case. -/
  level : String
  event : Option Value
  fields : Members

def levelKey : String := "level"

def timestampKey : String := "timestamp"

def eventKey : String := "event"

def stackKey : String := "stack"

def exceptionKey : String := "exception"

def traceKeys : List String := ["stack_info", "exc_info"]

/-- The members of an entry: the caller's fields, the event, and then what the logger itself says,
which replaces a field of the same name in its place. -/
def Entry.members (e : Entry) (timestamp : String) (run : RunContext) : Members :=
  let given := e.fields.filter fun m ↦ !traceKeys.contains m.1
  let withEvent :=
    match e.event with
    | some v => Table.put eventKey v given
    | none => given
  run.inject
    (Table.put timestampKey (.str timestamp) (Table.put levelKey (.str e.level) withEvent))

namespace Console

def escape (code : String) : String := "\x1b[" ++ code ++ "m"

def reset : String := escape "0"

def dim : String := escape "2"

def bright : String := escape "1"

def levelStyle (level : String) : String :=
  if level == "debug" || level == "info" then escape "32" ++ bright
  else if level == "warning" || level == "warn" then escape "33" ++ bright
  else if level == "error" || level == "critical" || level == "exception" then
    escape "31" ++ bright
  else if level == "notset" then escape "41" ++ bright
  else ""

def padEnd (width : Nat) (s : String) : String :=
  s ++ String.ofList (List.replicate (width - s.length) ' ')

def levelWidth : Nat := 9

def eventWidth : Nat := 30

def quotedMarks : List Char := [' ', '\t', '=', '\r', '\n', '"', '\'']

def shown : Value → String
  | .str s => if s.toList.any quotedMarks.contains then Text.quoted s else s
  | v => v.quoted

def pair (key : String) (v : Value) : String :=
  escape "36" ++ key ++ reset ++ "=" ++ escape "35" ++ shown v ++ reset

def loggerColumn (v : Value) : String :=
  "[" ++ reset ++ bright ++ escape "34" ++ v.display ++ reset ++ "]" ++ reset

def columns : List (String × (Value → String)) :=
  [("", pair ""),
   (timestampKey, fun v ↦ dim ++ v.display ++ reset),
   (levelKey, fun v ↦ "[" ++ levelStyle v.display ++ padEnd levelWidth v.display ++ reset ++ "]"),
   (eventKey, fun v ↦ bright ++ padEnd eventWidth v.display ++ reset),
   ("logger", loggerColumn),
   ("logger_name", loggerColumn)]

def isColumn (key : String) : Bool := columns.any (·.1 == key)

/-- A trace is shown below the columns, and so it has to be a text. Null stands for none. -/
def trace? (members : Members) (key : String) : Except ShapeFault (Option String) :=
  match members.get? key with
  | none => .ok none
  | some .null => .ok none
  | some (.str s) => .ok (some s)
  | some _ => .error .notText

def traces (stack exception : Option String) : String :=
  let rule := "\n\n" ++ String.ofList (List.replicate 79 '=') ++ "\n"
  match stack, exception with
  | none, none => ""
  | some s, none => "\n" ++ s
  | none, some e => "\n" ++ e
  | some s, some e => "\n" ++ s ++ rule ++ "\n" ++ e

def line (members : Members) : Except ShapeFault String := do
  let stack ← trace? members stackKey
  let exception ← trace? members exceptionKey
  let fixed := columns.filterMap fun c ↦ (members.get? c.1).map c.2
  let others := members.filter fun m ↦
    !(isColumn m.1 || m.1 == stackKey || m.1 == exceptionKey)
  let sorted := others.mergeSort fun a b ↦ decide (a.1 ≤ b.1)
  .ok (" ".intercalate (fixed ++ sorted.map fun m ↦ pair m.1 m.2) ++ traces stack exception)

end Console

/-- Coloured columns while debugging, one JSON object per line otherwise. -/
structure Setup where
  debug : Bool
deriving DecidableEq, Repr

namespace Setup

def threshold (s : Setup) : Int := if s.debug then 10 else 20

def line (limits : Json.Limits) (s : Setup) (members : Members) : Except Failure String :=
  if s.debug then
    match members.findSome? fun m ↦ limits.fault? m.2 with
    | some fault => .error (.unwritten fault)
    | none => (Console.line members).mapError .shape
  else (Json.dump limits .spaced (.obj members)).mapError .unwritten

end Setup

def levelName (level : Int) : String :=
  if level == 50 then "critical"
  else if level == 40 then "error"
  else if level == 30 then "warning"
  else if level == 20 then "info"
  else if level == 10 then "debug"
  else if level == 0 then "notset"
  else "level " ++ toString level

def methodLevel (method : String) : String :=
  if method == "warn" then "warning"
  else if method == "fatal" then "critical"
  else if method == "exception" then "error"
  else if method == "msg" then "info"
  else method

end StatusRelay.Log
