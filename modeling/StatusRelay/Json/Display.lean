import StatusRelay.Json.Writer

namespace StatusRelay.Json

def messageFloatLayout : FloatLayout := ⟨-4, 16, 2, "nan", "inf"⟩

namespace Display

mutual

def value : Value → String
  | .null => "None"
  | .bool true => "True"
  | .bool false => "False"
  | .int n => toString n
  | .float x => messageFloatLayout.render x
  | .str s => Text.quoted s
  | .arr items => "[" ++ ", ".intercalate (each items) ++ "]"
  | .obj members => "\x7b" ++ ", ".intercalate (pairs members) ++ "\x7d"

def each : List Value → List String
  | [] => []
  | v :: vs => value v :: each vs

def pairs : List (String × Value) → List String
  | [] => []
  | m :: ms => (Text.quoted m.1 ++ ": " ++ value m.2) :: pairs ms

end

end Display

namespace Value

def quoted (v : Value) : String := Display.value v

/-- The value as it stands in a message: `None`, `True`, lists in brackets, objects in braces, and
text as it is. -/
def display : Value → String
  | .str s => s
  | v => v.quoted

end Value
end StatusRelay.Json
