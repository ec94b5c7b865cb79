import Mathlib.Data.List.Forall2
import StatusRelay.Payload.Schema

namespace StatusRelay.Payload

open Json (Value Members)

namespace Checked

variable {α β : Type} {c : Checked α} {c' : Checked β} {a : α} {step : Step}

theorem under_eq_ok : under step c = .ok a ↔ c = .ok a := by
  cases c <;> simp [under]

theorem map_eq_ok {f : α → β} {b : β} : map f c = .ok b ↔ ∃ a, c = .ok a ∧ f a = b := by
  cases c <;> simp [map]

theorem both_eq_ok {p : α × β} : both c c' = .ok p ↔ c = .ok p.1 ∧ c' = .ok p.2 := by
  cases c <;> cases c' <;> simp [both, Prod.ext_iff]

theorem ofExcept_eq_ok {r : Except Problem α} : ofExcept r = .ok a ↔ r = .ok a := by
  cases r <;> simp [ofExcept, fail]

section

variable {check : Value → Checked α} {ms : Members} {name : String} {absent : Checked α}

theorem member_eq_ok {v : Value} (h : Table.get? ms name = some v) :
    member ms name check absent = .ok a ↔ check v = .ok a := by
  simp only [member, h, under_eq_ok]

theorem member_eq_ok_of_absent (h : Table.get? ms name = none) :
    member ms name check absent = .ok a ↔ absent = .ok a := by
  simp only [member, h, under_eq_ok]

end

theorem nullable_eq_ok {check : Value → Checked α} {v : Value} {a : Option α} :
    nullable check v = .ok a ↔
      (v = .null ∧ a = none) ∨ (v ≠ .null ∧ ∃ b, check v = .ok b ∧ some b = a) := by
  cases v with
  | null => simp [nullable, eq_comm]
  | _ => simp [nullable, map_eq_ok]

theorem elements_eq_ok {check : Value → Checked α} {vs : List Value} :
    ∀ {start : Nat} {as : List α},
      elements check start vs = .ok as ↔ List.Forall₂ (fun v a ↦ check v = .ok a) vs as := by
  induction vs with
  | nil => simp [elements, eq_comm]
  | cons v vs ih =>
    intro start as
    simp only [elements, map_eq_ok, both_eq_ok, under_eq_ok, ih, List.forall₂_cons_left_iff]
    constructor
    · rintro ⟨⟨a, as'⟩, ⟨ha, has⟩, rfl⟩
      exact ⟨a, as', ha, has, rfl⟩
    · rintro ⟨a, as', ha, has, rfl⟩
      exact ⟨(a, as'), ⟨ha, has⟩, rfl⟩

theorem list_eq_ok {check : Value → Checked α} {v : Value} {as : List α} :
    list check v = .ok as ↔ ∃ vs, v = .arr vs ∧ List.Forall₂ (fun v a ↦ check v = .ok a) vs as := by
  cases v <;> simp [list, fail, elements_eq_ok]

end Checked

namespace Shape

inductive Reads (ms : Members) : FieldName × Shape → FieldName × Bool × Decoded → Prop
  | given {f : FieldName} {s : Shape} {name : String} {v : Value} {d : Decoded}
      (hg : given? ms f = some (name, v)) (hd : s.decode v = .ok d) :
      Reads ms (f, s) (f, true, d)
  | absent {f : FieldName} {s : Shape} (hg : given? ms f = none) :
      Reads ms (f, s) (f, false, s.zero)

variable {ms : Members} {f : FieldName} {s element inner : Shape} {v : Value} {d : Decoded}
  {fields : List (FieldName × Shape)} {ds : List (FieldName × Bool × Decoded)}

theorem decodeFields_eq_ok : ∀ {ds : List (FieldName × Bool × Decoded)},
    decodeFields fields ms = .ok ds ↔ List.Forall₂ (Reads ms) fields ds := by
  induction fields with
  | nil => simp [decodeFields, eq_comm]
  | cons field fields ih =>
    intro ds
    obtain ⟨f, s⟩ := field
    simp only [decodeFields, Checked.map_eq_ok, Checked.both_eq_ok, ih, List.forall₂_cons_left_iff]
    constructor
    · rintro ⟨⟨⟨wasGiven, d⟩, ds'⟩, ⟨hd, hds⟩, rfl⟩
      refine ⟨_, ds', ?_, hds, rfl⟩
      cases hg : given? ms f with
      | none =>
        rw [hg] at hd
        cases hd
        exact .absent hg
      | some p =>
        simp only [hg, Checked.under_eq_ok, Checked.map_eq_ok, Prod.mk.injEq] at hd
        obtain ⟨d', hd, rfl, rfl⟩ := hd
        exact .given hg hd
    · rintro ⟨e, ds', he, hds, rfl⟩
      cases he with
      | @given _ _ name v d hg hd =>
        exact ⟨((true, d), ds'), ⟨by simp [hg, hd, Checked.map, Checked.under], hds⟩, rfl⟩
      | absent hg => exact ⟨((false, s.zero), ds'), ⟨by simp [hg], hds⟩, rfl⟩

theorem decode_record_eq_ok : (record fields).decode v = .ok d ↔
    ∃ ms ds, v = .obj ms ∧ d = .record ds ∧ List.Forall₂ (Reads ms) fields ds := by
  cases v with
  | obj ms =>
    simp only [decode, Checked.map_eq_ok, decodeFields_eq_ok]
    constructor
    · rintro ⟨ds, hds, rfl⟩
      exact ⟨ms, ds, rfl, rfl, hds⟩
    · rintro ⟨_, ds, hv, rfl, hds⟩
      cases hv
      exact ⟨ds, hds, rfl⟩
  | _ => simp [decode, Checked.fail]

theorem decode_list_eq_ok : (list element).decode v = .ok d ↔ ∃ vs ds, v = .arr vs ∧ d = .list ds ∧
    List.Forall₂ (fun v d ↦ element.decode v = .ok d) vs ds := by
  simp only [decode, Checked.map_eq_ok, Checked.list_eq_ok]
  constructor
  · rintro ⟨ds, ⟨vs, rfl, hds⟩, rfl⟩
    exact ⟨vs, ds, rfl, rfl, hds⟩
  · rintro ⟨vs, ds, rfl, rfl, hds⟩
    exact ⟨ds, ⟨vs, rfl, hds⟩, rfl⟩

theorem decode_nullable_of_ne (h : v ≠ .null) : (nullable inner).decode v = inner.decode v := by
  cases v <;> first | rfl | exact absurd rfl h

theorem zeroFields_eq_map :
    zeroFields fields = fields.map fun field ↦ (field.1, false, field.2.zero) := by
  induction fields with
  | nil => rfl
  | cons field fields ih => rw [zeroFields, ih, List.map_cons]

end Shape
end StatusRelay.Payload
