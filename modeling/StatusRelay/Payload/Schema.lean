import StatusRelay.Payload.Scalar
import StatusRelay.Time.Moment

namespace StatusRelay.Payload

open Json (Value Members)

structure FieldName where
  name : String
  wire : String
deriving DecidableEq, Repr

/-- What is expected of a payload. Every field is optional and stands for its zero value when it is
absent; unknown members are ignored, and a record remembers which of its fields were given. -/
inductive Shape where
  | text
  | whole
  | truth
  /-- A timestamp, under a rule that may refuse the value with a reason. -/
  | time (rule : Value → Except (Option String) Moment)
  | nullable (inner : Shape)
  | list (element : Shape)
  | record (fields : List (FieldName × Shape))

inductive Decoded where
  | null
  | text (s : String)
  | whole (n : Int)
  | truth (b : Bool)
  | time (m : Moment)
  | list (items : List Decoded)
  /-- Each field with a mark that says whether it was given. -/
  | record (fields : List (FieldName × Bool × Decoded))
deriving Repr, Inhabited

namespace Shape

mutual

def zero : Shape → Decoded
  | .text => .text ""
  | .whole => .whole 0
  | .truth => .truth false
  | .time _ => .time .zero
  | .nullable _ => .null
  | .list _ => .list []
  | .record fields => .record (zeroFields fields)

def zeroFields : List (FieldName × Shape) → List (FieldName × Bool × Decoded)
  | [] => []
  | (f, s) :: rest => (f, false, zero s) :: zeroFields rest

end

def given? (ms : Members) (f : FieldName) : Option (String × Value) :=
  match ms.get? f.wire with
  | some v => some (f.wire, v)
  | none => (ms.get? f.name).map fun v ↦ (f.name, v)

mutual

def decode : Shape → Value → Checked Decoded
  | .text, v => Checked.map .text (.ofExcept (Scalar.text v))
  | .whole, v => Checked.map .whole (.ofExcept (Scalar.whole v))
  | .truth, v => Checked.map .truth (.ofExcept (Scalar.truth v))
  | .time rule, v =>
    match rule v with
    | .ok m => .ok (.time m)
    | .error reason => Checked.fail (.refused reason)
  | .nullable inner, v =>
    match v with
    | .null => .ok .null
    | v => decode inner v
  | .list element, v => Checked.map .list (Checked.list (decode element) v)
  | .record fields, v =>
    match v with
    | .obj ms => Checked.map .record (decodeFields fields ms)
    | _ => Checked.fail .notObject

def decodeFields : List (FieldName × Shape) → Members → Checked (List (FieldName × Bool × Decoded))
  | [], _ => .ok []
  | (f, s) :: rest, ms =>
    let here : Checked (Bool × Decoded) :=
      match given? ms f with
      | some (name, v) => Checked.under (.member name) (Checked.map (fun d ↦ (true, d)) (decode s v))
      | none => .ok (false, zero s)
    Checked.map (fun p ↦ (f, p.1) :: p.2) (Checked.both here (decodeFields rest ms))

end

end Shape

structure DumpStyle where
  byWire : Bool
  onlyGiven : Bool
deriving DecidableEq, Repr

def FieldName.shown (f : FieldName) (style : DumpStyle) : String :=
  if style.byWire then f.wire else f.name

namespace Decoded

variable (style : DumpStyle)

mutual

def dump : Decoded → Value
  | .null => .null
  | .text s => .str s
  | .whole n => .int n
  | .truth b => .bool b
  | .time m => .str m.iso
  | .list items => .arr (dumpEach items)
  | .record fields => .obj (dumpFields fields)

def dumpEach : List Decoded → List Value
  | [] => []
  | d :: ds => dump d :: dumpEach ds

def dumpFields : List (FieldName × Bool × Decoded) → Members
  | [] => []
  | (f, wasGiven, d) :: rest =>
    if style.onlyGiven && !wasGiven then dumpFields rest
    else (f.shown style, dump d) :: dumpFields rest

end

end Decoded
end StatusRelay.Payload
