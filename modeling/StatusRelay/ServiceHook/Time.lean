import StatusRelay.Time.Rfc3339
import StatusRelay.Json.Display

namespace StatusRelay.ServiceHook

inductive TimeFault where
  | notText (kind : String)
  | notRfc3339 (text : String)
  | outOfRange
deriving DecidableEq, Repr

def TimeFault.message? : TimeFault → Option String
  | .notText kind => some ("expected a timestamp string, got " ++ kind)
  | .notRfc3339 text => some ("timestamp " ++ Text.quoted text ++ " is not RFC 3339")
  | .outOfRange => none

def kindName : Json.Value → String
  | .null => "NoneType"
  | .bool _ => "bool"
  | .int _ => "int"
  | .float _ => "float"
  | .str _ => "str"
  | .arr _ => "list"
  | .obj _ => "dict"

def unsetTexts : List String := ["", "0001-01-01T00:00:00"]

def timeOfText (s : String) : Except TimeFault Moment :=
  if unsetTexts.contains s then .ok .zero
  else
    match Rfc3339.shape? s.toList with
    | none => .error (.notRfc3339 s)
    | some shape =>
      match shape.moment? with
      | none => .error .outOfRange
      | some m => .ok m

def timeOfValue : Json.Value → Except TimeFault Moment
  | .str s => timeOfText s
  | v => .error (.notText (kindName v))

inductive TimeInput where
  /-- A moment that was decoded before. -/
  | moment (m : Moment)
  | json (v : Json.Value)

def TimeInput.decode : TimeInput → Except TimeFault Moment
  | .moment m => .ok m
  | .json v => timeOfValue v

end StatusRelay.ServiceHook
