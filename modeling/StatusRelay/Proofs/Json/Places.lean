import StatusRelay.Json.Value
import StatusRelay.Payload.Issue

namespace StatusRelay

open Payload (Step)

namespace Json.Value

def child? : Value → Step → Option Value
  | obj ms, .member key => Table.get? ms key
  | arr vs, .element i => vs[i]?
  | _, _ => none

def at? (v : Value) (p : List Step) : Option Value := p.foldlM child? v

inductive Outline where
  | leaf (v : Value)
  | list (length : Nat)
  | object (keys : List String)

def outline : Value → Outline
  | arr vs => .list vs.length
  | obj ms => .object (Table.keys ms)
  | v => .leaf v

/-- No object has a key twice. -/
inductive Distinct : Value → Prop
  | leaf {v : Value} (h : v.outline = .leaf v) : Distinct v
  | arr {vs : List Value} (h : ∀ v ∈ vs, Distinct v) : Distinct (arr vs)
  | obj {ms : Members} (hkeys : ms.keys.Nodup) (h : ∀ m ∈ ms, Distinct m.2) : Distinct (obj ms)

variable {v w : Value} {s : Step} {p q : List Step}

@[simp] theorem at?_nil : v.at? [] = some v := rfl

@[simp] theorem at?_cons : v.at? (s :: p) = (v.child? s).bind (·.at? p) := rfl

theorem at?_append : v.at? (p ++ q) = (v.at? p).bind (·.at? q) := List.foldlM_append

theorem child?_of_leaf (h : v.outline = .leaf v) : v.child? s = none := by
  cases v with
  | arr => cases h
  | obj => cases h
  | _ => rfl

theorem Distinct.child (h : v.Distinct) (hc : v.child? s = some w) : w.Distinct := by
  cases h with
  | leaf h =>
    rw [child?_of_leaf h] at hc
    cases hc
  | arr h =>
    cases s with
    | member key => cases hc
    | element i => exact h w (List.mem_of_getElem? hc)
  | obj hkeys h =>
    cases s with
    | member key => exact h (key, w) (Table.mem_of_get? hc)
    | element i => cases hc

theorem Distinct.at (h : v.Distinct) (hp : v.at? p = some w) : w.Distinct := by
  induction p generalizing v with
  | nil => exact Option.some.inj hp ▸ h
  | cons s p ih =>
    obtain ⟨c, hc, hw⟩ := Option.bind_eq_some_iff.1 hp
    exact ih (h.child hc) hw

/-- Two values are the same if all places of one show the same in the other. -/
theorem Distinct.eq_of_outline (h : v.Distinct)
    (ho : ∀ p, (w.at? p).map outline = (v.at? p).map outline) : w = v := by
  induction h generalizing w with
  | @leaf v h =>
    have hroot : w.outline = .leaf v := h ▸ Option.some.inj (ho [])
    cases w with
    | arr => cases hroot
    | obj => cases hroot
    | _ => exact Outline.leaf.inj hroot
  | @arr vs h ih =>
    have hroot : w.outline = .list vs.length := Option.some.inj (ho [])
    cases w with
    | arr ws =>
      rw [outline, Outline.list.injEq] at hroot
      congr 1
      apply List.ext_getElem hroot
      intro i hw hv
      apply ih vs[i] (List.getElem_mem hv)
      intro p
      simpa [child?, hw, hv] using ho (.element i :: p)
    | _ => cases hroot
  | @obj ms hkeys h ih =>
    have hroot : w.outline = .object (Table.keys ms) := Option.some.inj (ho [])
    cases w with
    | obj ws =>
      rw [outline, Outline.object.injEq] at hroot
      congr 1
      apply Table.ext_of_nodup hroot hkeys
      intro key
      have hkey (p : List Step) := ho (.member key :: p)
      simp only [at?_cons, child?] at hkey
      cases hv : Table.get? ms key with
      | none => simpa [hv] using hkey []
      | some v =>
        cases hw : Table.get? ws key with
        | none =>
          have hnone := hkey []
          simp [hv, hw] at hnone
        | some w =>
          rw [hv, hw] at hkey
          rw [ih (key, v) (Table.mem_of_get? hv) hkey]
    | _ => cases hroot

end Json.Value

end StatusRelay
