import StatusRelay.Number.Binary64
import StatusRelay.Table

namespace StatusRelay.Json

inductive Value where
  | null
  | bool (b : Bool)
  | int (n : Int)
  | float (x : Binary64)
  | str (s : String)
  | arr (items : List Value)
  | obj (members : List (String × Value))
deriving Repr, Inhabited

abbrev Members := Table Value

/-- How many digits a whole number may have in decimal, and how deeply lists and objects may be
nested, where they are read and where they are written. -/
structure Limits where
  digits : Nat
  depth : Nat
deriving DecidableEq, Repr

namespace Limits

-- The calls that are under way take their part of the depth as well, which is not counted here.
def standard : Limits := ⟨4300, 1000⟩

end Limits

namespace Value

/-- The member of an object; `none` for a missing key and for any other value. -/
def get? (v : Value) (key : String) : Option Value :=
  match v with
  | .obj ms => Table.get? ms key
  | _ => none

/-- Whether the value counts as present: not null, not false, not zero and not empty. -/
def truthy : Value → Bool
  | .null => false
  | .bool b => b
  | .int n => n != 0
  | .float x => !x.isZero
  | .str s => s != ""
  | .arr items => !items.isEmpty
  | .obj members => !members.isEmpty

def ofOption : Option Value → Value
  | some v => v
  | none => .null

end Value
end StatusRelay.Json
