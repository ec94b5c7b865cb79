import StatusRelay.Json.Value
import StatusRelay.Number.Shortest
import StatusRelay.Text.Quoted

namespace StatusRelay.Json

structure Separators where
  item : String
  key : String

namespace Separators

def spaced : Separators := ⟨", ", ": "⟩

def compact : Separators := ⟨",", ":"⟩

end Separators

inductive WriteFault where
  | numberTooLong
  | nestedTooDeep
deriving DecidableEq, Repr

/-- Numbers take the fewest digits that read back: positional from `1e-4` up to `1e16`. -/
def floatLayout : FloatLayout := ⟨-4, 16, 2, "NaN", "Infinity"⟩

namespace Writer

def unitEscape (u : Nat) : List Char := '\\' :: 'u' :: Text.hex 4 u

/-- A character beyond the first plane is written as its two 16-bit units. -/
def escape (c : Char) : List Char :=
  if c == '"' || c == '\\' then ['\\', c]
  else if c == '\n' then ['\\', 'n']
  else if c == '\r' then ['\\', 'r']
  else if c == '\t' then ['\\', 't']
  else if c == '\x08' then ['\\', 'b']
  else if c == '\x0C' then ['\\', 'f']
  else if 0x20 ≤ c.toNat && c.toNat ≤ 0x7E then [c]
  else if c.toNat < 0x10000 then unitEscape c.toNat
  else
    let n := c.toNat - 0x10000
    unitEscape (0xD800 + n / 0x400) ++ unitEscape (0xDC00 + n % 0x400)

def string (s : String) : List Char := '"' :: s.toList.flatMap escape ++ ['"']

section Faults

-- The most digits that a whole number may have.
variable (longest : Nat)

mutual

def fault? : Nat → Value → Option WriteFault
  | _, .int n => if longest < (Nat.toDigits 10 n.natAbs).length then some .numberTooLong else none
  | 0, .arr _ => some .nestedTooDeep
  | 0, .obj _ => some .nestedTooDeep
  | room + 1, .arr items => itemsFault? room items
  | room + 1, .obj members => membersFault? room members
  | _, _ => none

def itemsFault? : Nat → List Value → Option WriteFault
  | _, [] => none
  | room, v :: vs => (fault? room v).or (itemsFault? room vs)

def membersFault? : Nat → List (String × Value) → Option WriteFault
  | _, [] => none
  | room, m :: ms => (fault? room m.2).or (membersFault? room ms)

end

end Faults

variable (sep : Separators)

mutual

def value : Value → List Char
  | .null => "null".toList
  | .bool true => "true".toList
  | .bool false => "false".toList
  | .int n => (toString n).toList
  | .float x => (floatLayout.render x).toList
  | .str s => string s
  | .arr [] => ['[', ']']
  | .arr (v :: vs) => '[' :: value v ++ items vs
  | .obj [] => ['\x7b', '\x7d']
  | .obj (m :: ms) => '\x7b' :: string m.1 ++ sep.key.toList ++ value m.2 ++ members ms

def items : List Value → List Char
  | [] => [']']
  | v :: vs => sep.item.toList ++ value v ++ items vs

def members : List (String × Value) → List Char
  | [] => ['\x7d']
  | m :: ms => sep.item.toList ++ string m.1 ++ sep.key.toList ++ value m.2 ++ members ms

end

end Writer

def write (sep : Separators) (v : Value) : String := String.ofList (Writer.value sep v)

namespace Limits

def fault? (limits : Limits) (v : Value) : Option WriteFault :=
  Writer.fault? limits.digits limits.depth v

end Limits

def dump (limits : Limits) (sep : Separators) (v : Value) : Except WriteFault String :=
  match limits.fault? v with
  | some fault => .error fault
  | none => .ok (write sep v)

end StatusRelay.Json
