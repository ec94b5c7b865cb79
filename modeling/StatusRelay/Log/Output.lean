import StatusRelay.Log.Line
import StatusRelay.Log.Template
import StatusRelay.Text.Unit16

namespace StatusRelay.Log

/-- A record of a standard logger: its level as a number, a template with arguments, and the texts of
a stack and of an exception where there are any. -/
structure PlainRecord where
  level : Int
  template : String
  arguments : List Json.Value
  stack : Option String
  exception : Option String

namespace PlainRecord

/-- Two halves of a pair that come to stand side by side are written as the character that they make
up is, and so they are that character. -/
def logged? (limits : Json.Limits) (r : PlainRecord) : Option Entry :=
  (Template.render? limits r.template r.arguments).map fun points ↦
    ⟨levelName r.level, some (.str (String.ofList (Text.Unit16.chars points))), []⟩

def traces (r : PlainRecord) : Json.Members :=
  (r.stack.map fun s ↦ (stackKey, .str s)).toList ++
    (r.exception.map fun s ↦ (exceptionKey, .str s)).toList

end PlainRecord

namespace Setup

variable (limits : Json.Limits)

def print (s : Setup) (timestamp : String) (run : RunContext) (e : Entry) :
    Except Failure String := s.line limits (e.members timestamp run)

def printRecord? (s : Setup) (timestamp : String) (run : RunContext) (r : PlainRecord) :
    Option String :=
  if r.level < s.threshold then none
  else
    (r.logged? limits).bind fun e ↦
      (s.line limits (e.members timestamp run ++ r.traces)).toOption

end Setup
end StatusRelay.Log
