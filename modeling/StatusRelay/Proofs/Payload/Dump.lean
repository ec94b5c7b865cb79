import StatusRelay.Proofs.Payload.Fieldwise

namespace StatusRelay.Payload

open Json (Value Members)

def FieldName.Apart (f g : FieldName) : Prop :=
  f.wire ≠ g.wire ∧ f.wire ≠ g.name ∧ f.name ≠ g.wire ∧ f.name ≠ g.name

instance (f g : FieldName) : Decidable (f.Apart g) := by unfold FieldName.Apart; infer_instance

namespace FieldName

variable {f g : FieldName}

theorem Apart.symm (h : f.Apart g) : g.Apart f := ⟨h.1.symm, h.2.2.1.symm, h.2.1.symm, h.2.2.2.symm⟩

theorem Apart.shown_ne (h : f.Apart g) (style : DumpStyle) :
    f.shown style ≠ g.wire ∧ f.shown style ≠ g.name := by
  unfold shown
  split
  · exact ⟨h.1, h.2.1⟩
  · exact ⟨h.2.2.1, h.2.2.2⟩

end FieldName

/-- Shapes whose fields cannot be taken for one another, and whose timestamps are read back from
their full form. -/
inductive Shape.Regular : Shape → Prop
  | text : Regular .text
  | whole : Regular .whole
  | truth : Regular .truth
  | time {rule : Value → Except (Option String) Moment}
      (hzero : rule (.str Moment.zero.iso) = .ok .zero)
      (h : ∀ v m, rule v = .ok m → rule (.str m.iso) = .ok m) : Regular (.time rule)
  | nullable {inner : Shape} (h : Regular inner) : Regular (.nullable inner)
  | list {element : Shape} (h : Regular element) : Regular (.list element)
  | record {fields : List (FieldName × Shape)}
      (hn : (fields.map Prod.fst).Pairwise FieldName.Apart)
      (h : ∀ field ∈ fields, Regular field.2) : Regular (.record fields)

namespace Decoded

mutual

def reread (style : DumpStyle) : Decoded → Decoded
  | list items => list (rereadEach style items)
  | record fields => record (rereadFields style fields)
  | d => d

def rereadEach (style : DumpStyle) : List Decoded → List Decoded
  | [] => []
  | d :: ds => reread style d :: rereadEach style ds

def rereadFields (style : DumpStyle) :
    List (FieldName × Bool × Decoded) → List (FieldName × Bool × Decoded)
  | [] => []
  | (f, wasGiven, d) :: rest =>
    (f, wasGiven || !style.onlyGiven, reread style d) :: rereadFields style rest

end

variable {style : DumpStyle}

mutual

theorem reread_of_onlyGiven (h : style.onlyGiven = true) : ∀ d, reread style d = d
  | .null | .text _ | .whole _ | .truth _ | .time _ => by simp only [reread]
  | .list ds => by rw [reread, rereadEach_of_onlyGiven h ds]
  | .record fields => by rw [reread, rereadFields_of_onlyGiven h fields]

theorem rereadEach_of_onlyGiven (h : style.onlyGiven = true) : ∀ ds, rereadEach style ds = ds
  | [] => rfl
  | d :: ds => by rw [rereadEach, reread_of_onlyGiven h d, rereadEach_of_onlyGiven h ds]

theorem rereadFields_of_onlyGiven (h : style.onlyGiven = true) :
    ∀ fields, rereadFields style fields = fields
  | [] => rfl
  | (f, wasGiven, d) :: rest => by
    rw [rereadFields, reread_of_onlyGiven h d, rereadFields_of_onlyGiven h rest, h]
    simp

end

mutual

/-- A full dump does not show which fields were given. -/
theorem dump_reread (full : DumpStyle) (h : full.onlyGiven = false) :
    ∀ d, dump full (reread style d) = dump full d
  | .null | .text _ | .whole _ | .truth _ | .time _ => by simp only [reread]
  | .list ds => by rw [reread, dump, dump, dumpEach_reread full h ds]
  | .record fields => by rw [reread, dump, dump, dumpFields_reread full h fields]

theorem dumpEach_reread (full : DumpStyle) (h : full.onlyGiven = false) :
    ∀ ds, dumpEach full (rereadEach style ds) = dumpEach full ds
  | [] => rfl
  | d :: ds => by
    rw [rereadEach, dumpEach, dumpEach, dump_reread full h d, dumpEach_reread full h ds]

theorem dumpFields_reread (full : DumpStyle) (h : full.onlyGiven = false) :
    ∀ fields, dumpFields full (rereadFields style fields) = dumpFields full fields
  | [] => rfl
  | (f, wasGiven, d) :: rest => by
    simp only [rereadFields, dumpFields, h, Bool.false_and, Bool.false_eq_true, if_false,
      dump_reread full h d, dumpFields_reread full h rest]

end

theorem dump_eq_null_iff {d : Decoded} : dump style d = .null ↔ d = .null := by
  cases d <;> simp [dump]

abbrev Field := FieldName × Bool × Decoded

variable {fields rest : List Field} {e : Field} {key : String}

theorem dumpFields_cons (style : DumpStyle) (e : Field) (rest : List Field) :
    dumpFields style (e :: rest) =
      if style.onlyGiven && !e.2.1 then dumpFields style rest
      else (e.1.shown style, dump style e.2.2) :: dumpFields style rest := rfl

theorem get?_dumpFields_of_ne (h : ∀ e ∈ fields, e.1.shown style ≠ key) :
    Table.get? (dumpFields style fields) key = none := by
  induction fields with
  | nil => rfl
  | cons e rest ih =>
    obtain ⟨he, hrest⟩ := List.forall_mem_cons.1 h
    rw [dumpFields_cons]
    split
    · exact ih hrest
    · rw [Table.get?_cons, if_neg he.symm, ih hrest]

theorem given?_cons_of_apart {f : FieldName} {v : Value} {ms : Members}
    (h : key ≠ f.wire ∧ key ≠ f.name) :
    Shape.given? ((key, v) :: ms) f = Shape.given? ms f := by
  rw [Shape.given?, Shape.given?, Table.get?_cons, if_neg h.1.symm, Table.get?_cons,
    if_neg h.2.symm]

/-- A dump shows a field under the name of the style, or not at all. -/
theorem given?_dumpFields (h : (fields.map Prod.fst).Pairwise FieldName.Apart) :
    ∀ e ∈ fields, Shape.given? (dumpFields style fields) e.1 =
      if style.onlyGiven && !e.2.1 then none else some (e.1.shown style, dump style e.2.2) := by
  induction fields with
  | nil => simp
  | cons e₀ rest ih =>
    rw [List.map_cons, List.pairwise_cons] at h
    obtain ⟨hhead, hrest⟩ := h
    have hapart : ∀ e ∈ rest, e₀.1.Apart e.1 := fun e he ↦ hhead e.1 (List.mem_map_of_mem he)
    have hother : ∀ e ∈ rest, Shape.given? (dumpFields style (e₀ :: rest)) e.1 =
        Shape.given? (dumpFields style rest) e.1 := by
      intro e he
      rw [dumpFields_cons]
      split
      · rfl
      · exact given?_cons_of_apart ((hapart e he).shown_ne style)
    have hwire : Table.get? (dumpFields style rest) e₀.1.wire = none :=
      get?_dumpFields_of_ne fun e he ↦ ((hapart e he).symm.shown_ne style).1
    have hname : Table.get? (dumpFields style rest) e₀.1.name = none :=
      get?_dumpFields_of_ne fun e he ↦ ((hapart e he).symm.shown_ne style).2
    refine List.forall_mem_cons.2 ⟨?_, fun e he ↦ (hother e he).trans (ih hrest e he)⟩
    rw [dumpFields_cons]
    split
    · simp only [Shape.given?, hwire, hname, Option.map_none]
    · obtain ⟨byWire, onlyGiven⟩ := style
      cases byWire with
      | true => simp [Shape.given?, FieldName.shown, Table.get?_cons]
      | false =>
        by_cases heq : e₀.1.wire = e₀.1.name <;>
          simp [Shape.given?, FieldName.shown, Table.get?_cons, heq, hwire]

theorem dumpEach_eq_map (ds : List Decoded) : dumpEach style ds = ds.map (dump style) := by
  induction ds with
  | nil => rfl
  | cons d ds ih => rw [dumpEach, ih, List.map_cons]

theorem rereadEach_eq_map (ds : List Decoded) : rereadEach style ds = ds.map (reread style) := by
  induction ds with
  | nil => rfl
  | cons d ds ih => rw [rereadEach, ih, List.map_cons]

end Decoded

namespace Shape

open Decoded (dump reread rereadFields dumpFields given?_dumpFields)

/-- What a field of a shape can have in it: something that was read, or else its zero value. -/
def Holds (s : Shape) (d : Decoded) : Prop := (∃ v, s.decode v = .ok d) ∨ d = s.zero

def HoldsIn (field : FieldName × Shape) (e : FieldName × Bool × Decoded) : Prop :=
  e.1 = field.1 ∧ field.2.Holds e.2.2 ∧ (e.2.1 = false → e.2.2 = field.2.zero)

variable {s inner element : Shape} {d : Decoded} {style : DumpStyle} {ms : Members}
  {fields : List (FieldName × Shape)} {es : List (FieldName × Bool × Decoded)}

theorem Reads.holdsIn {field : FieldName × Shape} {e : FieldName × Bool × Decoded}
    (h : Reads ms field e) : HoldsIn field e := by
  cases h with
  | given hg hd => exact ⟨rfl, .inl ⟨_, hd⟩, fun h ↦ by cases h⟩
  | absent hg => exact ⟨rfl, .inr rfl, fun _ ↦ rfl⟩

theorem names_of_holdsIn (h : List.Forall₂ HoldsIn fields es) :
    es.map Prod.fst = fields.map Prod.fst := by
  induction h with
  | nil => rfl
  | cons he _ ih => rw [List.map_cons, List.map_cons, he.1, ih]

theorem holds_record (h : (record fields).Holds d) :
    ∃ es, d = .record es ∧ List.Forall₂ HoldsIn fields es := by
  obtain ⟨v, hv⟩ | rfl := h
  · obtain ⟨ms, es, -, rfl, hes⟩ := decode_record_eq_ok.1 hv
    exact ⟨es, rfl, hes.imp fun _ _ h ↦ h.holdsIn⟩
  · refine ⟨_, by rw [zero, zeroFields_eq_map], ?_⟩
    rw [List.forall₂_map_right_iff, List.forall₂_same]
    exact fun field _ ↦ ⟨rfl, .inr rfl, fun _ ↦ rfl⟩

theorem holds_list (h : (list element).Holds d) :
    ∃ ds, d = .list ds ∧ ∀ d ∈ ds, element.Holds d := by
  obtain ⟨v, hv⟩ | rfl := h
  · obtain ⟨vs, ds, -, rfl, hds⟩ := decode_list_eq_ok.1 hv
    have hboth : List.Forall₂ (fun d v ↦ element.Holds d ∧ element.decode v = .ok d) ds vs :=
      (hds.imp fun v d hv ↦ ⟨.inl ⟨v, hv⟩, hv⟩).flip
    exact ⟨ds, rfl, ((List.forall₂_and_left _ _).1 hboth).1⟩
  · exact ⟨[], by rw [zero], by simp⟩

theorem holds_nullable (h : (nullable inner).Holds d) : d = .null ∨ inner.Holds d := by
  obtain ⟨v, hv⟩ | rfl := h
  · by_cases hnull : v = .null
    · subst hnull
      cases hv
      exact .inl rfl
    · rw [decode_nullable_of_ne hnull] at hv
      exact .inr (.inl ⟨v, hv⟩)
  · exact .inl (by rw [zero])

/-- Every field is read from the dump as it was, if that goes for what it holds. -/
theorem reads_dumpFields (h : List.Forall₂ HoldsIn fields es)
    (hg : ∀ e ∈ es, given? ms e.1 =
      if style.onlyGiven && !e.2.1 then none else some (e.1.shown style, dump style e.2.2))
    (hd : ∀ field ∈ fields, ∀ d, field.2.Holds d →
      field.2.decode (dump style d) = .ok (reread style d)) :
    List.Forall₂ (Reads ms) fields (rereadFields style es) := by
  induction h with
  | nil => exact .nil
  | @cons field e fields es he hes ih =>
    obtain ⟨f, s⟩ := field
    obtain ⟨_, wasGiven, d⟩ := e
    obtain ⟨rfl, hholds, habsent⟩ := he
    obtain ⟨hghead, hgrest⟩ := List.forall_mem_cons.1 hg
    obtain ⟨hdhead, hdrest⟩ := List.forall_mem_cons.1 hd
    refine .cons ?_ (ih hgrest hdrest)
    dsimp only at hholds habsent hghead hdhead
    cases hhide : style.onlyGiven && !wasGiven with
    | true =>
      obtain ⟨honly, hmark⟩ := Bool.and_eq_true_iff.1 hhide
      obtain rfl : wasGiven = false := by simpa using hmark
      obtain rfl := habsent rfl
      rw [hhide, if_pos rfl] at hghead
      rw [Decoded.reread_of_onlyGiven honly, honly]
      exact .absent hghead
    | false =>
      rw [hhide, if_neg Bool.false_ne_true] at hghead
      have hmark : (wasGiven || !style.onlyGiven) = true := by
        cases wasGiven <;> simp_all
      rw [hmark]
      exact .given hghead (hdhead d hholds)

/-- What a field holds is read from its dump as it was. -/
theorem decode_dump (hs : s.Regular) (style : DumpStyle) :
    ∀ {d}, s.Holds d → s.decode (dump style d) = .ok (reread style d) := by
  induction hs with
  | text | whole | truth =>
    intro d h
    obtain ⟨v, hv⟩ | rfl := h
    · obtain ⟨a, -, rfl⟩ := Checked.map_eq_ok.1 hv
      rfl
    · rfl
  | time hzero htime =>
    intro d h
    obtain ⟨v, hv⟩ | rfl := h
    · simp only [decode] at hv
      split at hv
      · rename_i m hm
        cases hv
        simp only [dump, decode, htime v m hm, reread]
      · cases hv
    · simp only [zero, dump, decode, hzero, reread]
  | nullable _ ih =>
    intro d h
    obtain rfl | h := holds_nullable h
    · rfl
    · by_cases hd : d = .null
      · subst hd
        rfl
      · rw [decode_nullable_of_ne (mt Decoded.dump_eq_null_iff.1 hd)]
        exact ih h
  | list _ ih =>
    intro d h
    obtain ⟨ds, rfl, hds⟩ := holds_list h
    refine decode_list_eq_ok.2 ⟨_, _, rfl, rfl, ?_⟩
    rw [Decoded.dumpEach_eq_map, Decoded.rereadEach_eq_map, List.forall₂_map_left_iff,
      List.forall₂_map_right_iff, List.forall₂_same]
    exact fun d hd ↦ ih (hds d hd)
  | record hn _ ih =>
    intro d h
    obtain ⟨es, rfl, hes⟩ := holds_record h
    refine decode_record_eq_ok.2 ⟨_, _, rfl, rfl, ?_⟩
    refine reads_dumpFields hes (given?_dumpFields ?_) fun field hfield d hd ↦ ih field hfield hd
    rwa [names_of_holdsIn hes]

end Shape
end StatusRelay.Payload
