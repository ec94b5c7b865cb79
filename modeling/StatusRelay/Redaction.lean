import StatusRelay.Failure
import StatusRelay.Text.LowerCase

namespace StatusRelay.Redaction

open Json (Value Members)

def keywords : List String := ["token", "jwt", "private_key", "secret", "password", "dsn"]

def containsText (part : List Char) : List Char → Bool
  | [] => part.isEmpty
  | c :: cs => part.isPrefixOf (c :: cs) || containsText part cs

def isSensitive (key : String) : Bool :=
  keywords.any fun k ↦ containsText k.toList (Text.lower key).toList

def mark : Value := .str "[REDACTED]"

mutual

def redact : Value → Value
  | .obj ms => .obj (redactMembers ms)
  | v => v

def redactMembers : List (String × Value) → List (String × Value)
  | [] => []
  | (key, v) :: ms => (key, if isSensitive key then mark else redact v) :: redactMembers ms

end

abbrev Pass := Value × Option ShapeFault

/-- Applies a pass to the elements of a list up to the first fault. -/
def sweep (pass : Value → Pass) : List Value → List Value × Option ShapeFault
  | [] => ([], none)
  | v :: vs =>
    match pass v with
    | (v', some fault) => (v' :: vs, some fault)
    | (v', none) =>
      let (vs', fault) := sweep pass vs
      (v' :: vs', fault)

/-- A pass over the elements of a value. The elements of a text and of an object are texts, over
which no pass can go. -/
def overElements (pass : Value → Pass) : Value → Pass
  | .arr items =>
    let (items', fault) := sweep pass items
    (.arr items', fault)
  | .str s => (.str s, if s == "" then none else some .notObject)
  | .obj ms => (.obj ms, if ms.isEmpty then none else some .notObject)
  | v => (v, some .notContainer)

def overMember (key : String) (pass : Value → Pass) : Value → Pass
  | .obj ms =>
    match Table.get? ms key with
    | none => (.obj ms, none)
    | some v =>
      let (v', fault) := pass v
      (.obj (Table.put key v' ms), fault)
  | v => (v, some .notObject)

def overObject : Value → Pass
  | .obj ms => (.obj (redactMembers ms), none)
  | v => (v, some .notObject)

/-- Local variables count only when they form an object. -/
def overFrame : Value → Pass := overMember "vars" fun v ↦ (redact v, none)

def overStackTrace (v : Value) : Pass :=
  if v.truthy then overMember "frames" (overElements overFrame) v else (v, none)

def overException : Value → Pass := overMember "stacktrace" overStackTrace

/-- The second pass starts only where the first one came through. -/
def andThen (first second : Value → Pass) (v : Value) : Pass :=
  match first v with
  | (v', none) => second v'
  | r => r

/-- The report with its secrets replaced. A report without the expected structure ends the pass, and
what was replaced up to then stays so. -/
def scrub : Value → Pass :=
  andThen (overMember "extra" overObject)
    (overMember "exception" (overMember "values" (overElements overException)))

end StatusRelay.Redaction
