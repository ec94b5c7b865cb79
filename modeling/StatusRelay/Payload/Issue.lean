import StatusRelay.Json.Value

namespace StatusRelay.Payload

inductive Step where
  | member (name : String)
  | element (index : Nat)
deriving DecidableEq, Repr

inductive Problem where
  | notText
  | notWhole
  | textNotWhole
  | wholeTooLarge
  | fractional
  | notFinite
  | notTruth
  | otherTruth
  | notNumber
  | textNotNumber
  | notObject
  | notList
  | absent
  | unknownName
  /-- Refused by a rule of the field's own, with its wording where it has one. -/
  | refused (reason : Option String)
deriving DecidableEq, Repr

def Problem.code : Problem → String
  | .notText => "string_type"
  | .notWhole => "int_type"
  | .textNotWhole => "int_parsing"
  | .wholeTooLarge => "int_parsing_size"
  | .fractional => "int_from_float"
  | .notFinite => "finite_number"
  | .notTruth => "bool_type"
  | .otherTruth => "bool_parsing"
  | .notNumber => "float_type"
  | .textNotNumber => "float_parsing"
  | .notObject => "model_type"
  | .notList => "list_type"
  | .absent => "missing"
  | .unknownName => "extra_forbidden"
  | .refused _ => "value_error"

structure Issue where
  problem : Problem
  path : List Step
deriving DecidableEq, Repr

def Issue.under (step : Step) (i : Issue) : Issue := { i with path := step :: i.path }

/-- A check goes on after a problem, so that its answer is either a value or all problems in order.
-/
abbrev Checked (α : Type) := Except (List Issue) α

namespace Checked

variable {α β : Type}

def fail (p : Problem) : Checked α := .error [⟨p, []⟩]

def ofExcept : Except Problem α → Checked α
  | .ok a => .ok a
  | .error p => fail p

def both : Checked α → Checked β → Checked (α × β)
  | .ok a, .ok b => .ok (a, b)
  | .ok _, .error e => .error e
  | .error e, .ok _ => .error e
  | .error e, .error e' => .error (e ++ e')

def under (step : Step) : Checked α → Checked α
  | .ok a => .ok a
  | .error is => .error (is.map (Issue.under step))

def map (f : α → β) : Checked α → Checked β
  | .ok a => .ok (f a)
  | .error is => .error is

def elements (check : Json.Value → Checked α) (start : Nat) : List Json.Value → Checked (List α)
  | [] => .ok []
  | v :: vs =>
    map (fun p ↦ p.1 :: p.2)
      (both (under (.element start) (check v)) (elements check (start + 1) vs))

def list (check : Json.Value → Checked α) : Json.Value → Checked (List α)
  | .arr vs => elements check 0 vs
  | _ => fail .notList

def member (ms : Json.Members) (name : String) (check : Json.Value → Checked α)
    (absent : Checked α) : Checked α :=
  under (.member name) (match ms.get? name with | some v => check v | none => absent)

def nullable (check : Json.Value → Checked α) : Json.Value → Checked (Option α)
  | .null => .ok none
  | v => map some (check v)

end Checked
end StatusRelay.Payload
