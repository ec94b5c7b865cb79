import StatusRelay.Proofs.Payload.Dump

namespace StatusRelay.Payload

open Json (Value Members)

def FieldName.dropFrom (f : FieldName) (ms : Members) : Members :=
  ms.filter fun m ↦ m.1 != f.wire && m.1 != f.name

namespace Shape

mutual

/-- The field at a place in a payload: its shape and what is given for it. A place leads from field
to field by their own names, whichever they are given under, and through lists by number. -/
def fieldAt? : Shape → Value → List Step → Option (Shape × Value)
  | .nullable inner, v, path => fieldAt? inner v path
  | .list element, .arr vs, .element i :: path =>
    match vs[i]? with
    | some v => fieldAt? element v path
    | none => none
  | .record fields, .obj ms, .member name :: path => fieldIn? fields ms name path
  | _, _, _ => none

def fieldIn? : List (FieldName × Shape) → Members → String → List Step → Option (Shape × Value)
  | [], _, _, _ => none
  | (f, s) :: rest, ms, name, path =>
    if f.name = name then
      match given? ms f with
      | some (_, v) => if path = [] then some (s, v) else fieldAt? s v path
      | none => none
    else fieldIn? rest ms name path

end

mutual

/-- A payload from which the fields at some places are deleted, under both of their names. -/
def without (gone : List Step → Bool) : Shape → Value → Value
  | .nullable inner, v => without gone inner v
  | .list element, .arr vs =>
    .arr (vs.mapIdx fun i v ↦ without (fun path ↦ gone (.element i :: path)) element v)
  | .record fields, .obj ms => .obj (withoutFields gone fields ms)
  | _, v => v

def withoutFields (gone : List Step → Bool) : List (FieldName × Shape) → Members → Members
  | [], ms => ms
  | (f, s) :: rest, ms =>
    let ms := withoutFields gone rest ms
    if gone [.member f.name] then f.dropFrom ms
    else
      match given? ms f with
      | some (name, v) =>
        Table.put name (without (fun path ↦ gone (.member f.name :: path)) s v) ms
      | none => ms

end

/-- Whether what is given for a field comes to the same in a full dump as if nothing were given. -/
def ReadsAsZero (byWire : Bool) (s : Shape) (v : Value) : Prop :=
  ∃ d, s.decode v = .ok d ∧ d.dump ⟨byWire, false⟩ = s.zero.dump ⟨byWire, false⟩

variable {gone : List Step → Bool} {s : Shape} {v : Value} {f g : FieldName} {ms : Members}
  {fields : List (FieldName × Shape)} {key name : String} {path : List Step} {byWire : Bool}

theorem get?_dropFrom_of_ne (h : key ≠ f.wire ∧ key ≠ f.name) :
    Table.get? (f.dropFrom ms) key = Table.get? ms key := by
  induction ms with
  | nil => rfl
  | cons m ms ih =>
    rw [FieldName.dropFrom, List.filter_cons, Table.get?_cons]
    split
    · rw [Table.get?_cons, ← ih, FieldName.dropFrom]
    · rename_i hdrop
      have hne : key ≠ m.1 := by
        rintro rfl
        simp [h] at hdrop
      rw [if_neg hne, ← ih, FieldName.dropFrom]

theorem get?_dropFrom_eq_none (h : key = f.wire ∨ key = f.name) :
    Table.get? (f.dropFrom ms) key = none := by
  induction ms with
  | nil => rfl
  | cons m ms ih =>
    rw [FieldName.dropFrom, List.filter_cons]
    split
    · rename_i hkept
      have hne : key ≠ m.1 := by
        rintro rfl
        simp_all
      rw [Table.get?_cons, if_neg hne]
      exact ih
    · exact ih

theorem given?_dropFrom : given? (f.dropFrom ms) f = none := by
  simp [given?, get?_dropFrom_eq_none]

theorem given?_dropFrom_of_apart (h : f.Apart g) : given? (g.dropFrom ms) f = given? ms f := by
  rw [given?, given?, get?_dropFrom_of_ne ⟨h.1, h.2.1⟩, get?_dropFrom_of_ne ⟨h.2.2.1, h.2.2.2⟩]

/-- A field is given under one of its names. -/
theorem name_of_given? (h : given? ms f = some (name, v)) : name = f.wire ∨ name = f.name := by
  unfold given? at h
  split at h
  · cases h
    exact .inl rfl
  · simp only [Option.map_eq_some_iff, Prod.mk.injEq] at h
    obtain ⟨_, -, rfl, -⟩ := h
    exact .inr rfl

theorem given?_put_self {v' : Value} (h : given? ms f = some (name, v)) :
    given? (Table.put name v' ms) f = some (name, v') := by
  unfold given? at h
  split at h
  · cases h
    simp [given?]
  · rename_i hwire
    simp only [Option.map_eq_some_iff, Prod.mk.injEq] at h
    obtain ⟨w, hname, rfl, rfl⟩ := h
    have hne : f.wire ≠ f.name := by
      intro heq
      rw [heq, hname] at hwire
      cases hwire
    rw [given?, Table.get?_put_of_ne hne, hwire, Table.get?_put_self]
    rfl

theorem given?_put_of_apart {v' : Value} (h : f.Apart g) (hname : name = g.wire ∨ name = g.name) :
    given? (Table.put name v' ms) f = given? ms f := by
  have hne : f.wire ≠ name ∧ f.name ≠ name := by
    obtain rfl | rfl := hname
    · exact ⟨h.1, h.2.2.1⟩
    · exact ⟨h.2.1, h.2.2.2⟩
  rw [given?, given?, Table.get?_put_of_ne hne.1, Table.get?_put_of_ne hne.2]

abbrev behind (gone : List Step → Bool) (step : Step) : List Step → Bool :=
  fun path ↦ gone (step :: path)

/-- One field deleted, or gone into, in an object whose other fields are done with. -/
theorem withoutFields_cons (gone : List Step → Bool) (f : FieldName) (s : Shape)
    (fields : List (FieldName × Shape)) (ms : Members) :
    withoutFields gone ((f, s) :: fields) ms =
      if gone [.member f.name] then f.dropFrom (withoutFields gone fields ms)
      else match given? (withoutFields gone fields ms) f with
        | some (name, v) => Table.put name (without (behind gone (.member f.name)) s v)
            (withoutFields gone fields ms)
        | none => withoutFields gone fields ms := rfl

theorem given?_withoutFields_of_apart (h : ∀ field ∈ fields, f.Apart field.1) :
    given? (withoutFields gone fields ms) f = given? ms f := by
  induction fields with
  | nil => rfl
  | cons field fields ih =>
    obtain ⟨g, s⟩ := field
    obtain ⟨hg, hrest⟩ := List.forall_mem_cons.1 h
    rw [withoutFields_cons]
    split
    · rw [given?_dropFrom_of_apart hg, ih hrest]
    · split
      · rename_i name v hv
        rw [given?_put_of_apart hg (name_of_given? hv), ih hrest]
      · exact ih hrest

/-- What is left for a field: nothing if it is deleted, or else what was given, less what is deleted
behind it. -/
theorem given?_withoutFields (hn : (fields.map Prod.fst).Pairwise FieldName.Apart) :
    ∀ field ∈ fields, given? (withoutFields gone fields ms) field.1 =
      if gone [.member field.1.name] then none
      else (given? ms field.1).map fun p ↦
        (p.1, without (behind gone (.member field.1.name)) field.2 p.2) := by
  induction fields with
  | nil => simp
  | cons field fields ih =>
    obtain ⟨f, s⟩ := field
    rw [List.map_cons, List.pairwise_cons] at hn
    obtain ⟨hhead, hrest⟩ := hn
    have hapart : ∀ field ∈ fields, f.Apart field.1 := fun field hf ↦
      hhead field.1 (List.mem_map_of_mem hf)
    have hsame : given? (withoutFields gone fields ms) f = given? ms f :=
      given?_withoutFields_of_apart hapart
    refine List.forall_mem_cons.2 ⟨?_, fun field hf ↦ ?_⟩
    · rw [withoutFields_cons]
      split
      · exact given?_dropFrom
      · rw [hsame]
        cases hg : given? ms f with
        | none => rw [hsame, hg]; rfl
        | some p => exact given?_put_self (hsame.trans hg)
    · rw [← ih hrest field hf, withoutFields_cons]
      split
      · exact given?_dropFrom_of_apart (hapart field hf).symm
      · split
        · rename_i name v hv
          exact given?_put_of_apart (hapart field hf).symm (name_of_given? hv)
        · rfl

theorem fieldIn?_eq (hn : (fields.map Prod.fst).Pairwise FieldName.Apart) (path : List Step) :
    ∀ field ∈ fields, fieldIn? fields ms field.1.name path =
      (given? ms field.1).bind fun p ↦
        if path = [] then some (field.2, p.2) else fieldAt? field.2 p.2 path := by
  induction fields with
  | nil => simp
  | cons field fields ih =>
    obtain ⟨f, s⟩ := field
    rw [List.map_cons, List.pairwise_cons] at hn
    obtain ⟨hhead, hrest⟩ := hn
    refine List.forall_mem_cons.2 ⟨?_, fun field hf ↦ ?_⟩
    · rw [fieldIn?, if_pos rfl]
      cases given? ms f <;> rfl
    · have hne : f.name ≠ field.1.name := (hhead field.1 (List.mem_map_of_mem hf)).2.2.2
      rw [fieldIn?, if_neg hne, ih hrest field hf]

theorem fieldAt?_nil : ∀ {s : Shape} {v : Value}, fieldAt? s v [] = none
  | .nullable inner, v => by rw [fieldAt?]; exact fieldAt?_nil
  | .text, v | .whole, v | .truth, v | .time _, v => by simp [fieldAt?]
  | .list _, v | .record _, v => by cases v <;> simp [fieldAt?]

theorem without_eq_null_iff : ∀ {s : Shape} {v : Value}, without gone s v = .null ↔ v = .null
  | .nullable inner, v => by rw [without]; exact without_eq_null_iff
  | .text, v | .whole, v | .truth, v | .time _, v => by simp [without]
  | .list _, v | .record _, v => by cases v <;> simp [without]

theorem ne_nil_of_fieldAt? {p : Shape × Value} (h : fieldAt? s v path = some p) : path ≠ [] := by
  rintro rfl
  rw [fieldAt?_nil] at h
  cases h

theorem fieldAt?_member (hn : (fields.map Prod.fst).Pairwise FieldName.Apart)
    (field : FieldName × Shape) (hfield : field ∈ fields)
    (hg : given? ms field.1 = some (name, v)) (path : List Step) :
    fieldAt? (.record fields) (.obj ms) (.member field.1.name :: path) =
      if path = [] then some (field.2, v) else fieldAt? field.2 v path := by
  rw [fieldAt?, fieldIn?_eq hn path field hfield, hg]
  rfl

/-- Whether all fields that are deleted read as zero. -/
def OnlyZeros (byWire : Bool) (gone : List Step → Bool) (s : Shape) (v : Value) : Prop :=
  ∀ path s' v', gone path = true → fieldAt? s v path = some (s', v') → ReadsAsZero byWire s' v'

/-- Whether what is left says the same in a full dump. -/
def SaysTheSame (byWire : Bool) (s : Shape) (v v' : Value) : Prop :=
  ∀ d, s.decode v = .ok d →
    ∃ d', s.decode v' = .ok d' ∧ d'.dump ⟨byWire, false⟩ = d.dump ⟨byWire, false⟩

variable {element inner : Shape} {vs : List Value} {ds : List Decoded}
  {es : List (FieldName × Bool × Decoded)} {ms' : Members}

theorem elements_without {byWire : Bool} {change : Nat → Value → Value}
    (h : List.Forall₂ (fun v d ↦ element.decode v = .ok d) vs ds)
    (hc : ∀ i v, vs[i]? = some v → SaysTheSame byWire element v (change i v)) :
    ∃ ds', List.Forall₂ (fun v d ↦ element.decode v = .ok d) (vs.mapIdx change) ds' ∧
      Decoded.dumpEach ⟨byWire, false⟩ ds' = Decoded.dumpEach ⟨byWire, false⟩ ds := by
  induction h generalizing change with
  | nil => exact ⟨[], .nil, rfl⟩
  | @cons v d vs ds hd _ ih =>
    obtain ⟨d', hd', hdump⟩ := hc 0 v rfl d hd
    obtain ⟨ds', hds', hdumps⟩ := ih fun i v hv ↦ hc (i + 1) v hv
    refine ⟨d' :: ds', ?_, by rw [Decoded.dumpEach, Decoded.dumpEach, hdump, hdumps]⟩
    rw [List.mapIdx_cons]
    exact .cons hd' hds'

theorem fields_without {byWire : Bool} (h : List.Forall₂ (Reads ms) fields es)
    (hg : ∀ field ∈ fields, given? ms' field.1 =
      if gone [.member field.1.name] then none
      else (given? ms field.1).map fun p ↦
        (p.1, without (behind gone (.member field.1.name)) field.2 p.2))
    (hz : ∀ field ∈ fields, ∀ name v, given? ms field.1 = some (name, v) →
      gone [.member field.1.name] = true → ReadsAsZero byWire field.2 v)
    (hc : ∀ field ∈ fields, ∀ name v, given? ms field.1 = some (name, v) →
      SaysTheSame byWire field.2 v (without (behind gone (.member field.1.name)) field.2 v)) :
    ∃ es', List.Forall₂ (Reads ms') fields es' ∧
      Decoded.dumpFields ⟨byWire, false⟩ es' = Decoded.dumpFields ⟨byWire, false⟩ es := by
  induction h with
  | nil => exact ⟨[], .nil, rfl⟩
  | @cons field e fields es he _ ih =>
    obtain ⟨hghead, hgrest⟩ := List.forall_mem_cons.1 hg
    obtain ⟨hzhead, hzrest⟩ := List.forall_mem_cons.1 hz
    obtain ⟨hchead, hcrest⟩ := List.forall_mem_cons.1 hc
    obtain ⟨es', hes', hdumps⟩ := ih hgrest hzrest hcrest
    obtain ⟨e', he', hshown, hdump⟩ : ∃ e', Reads ms' field e' ∧ e'.1 = e.1 ∧
        e'.2.2.dump ⟨byWire, false⟩ = e.2.2.dump ⟨byWire, false⟩ := by
      cases he with
      | @absent f s habsent =>
        refine ⟨_, .absent ?_, rfl, rfl⟩
        rw [hghead, habsent]
        split <;> rfl
      | @given f s name v d hgiven hd =>
        cases hgone : gone [.member f.name] with
        | true =>
          obtain ⟨d₀, hd₀, hzero⟩ := hzhead name v hgiven hgone
          obtain rfl := Except.ok.inj (hd₀.symm.trans hd)
          refine ⟨_, .absent ?_, rfl, hzero.symm⟩
          rw [hghead, hgone, if_pos rfl]
        | false =>
          obtain ⟨d', hd', hdump⟩ := hchead name v hgiven d hd
          have hleft : given? ms' f =
              some (name, without (behind gone (.member f.name)) s v) := by
            rw [hghead, hgone, hgiven]
            rfl
          exact ⟨_, .given hleft hd', rfl, hdump⟩
    refine ⟨e' :: es', .cons he' hes', ?_⟩
    rw [Decoded.dumpFields_cons, Decoded.dumpFields_cons, hshown, hdump, hdumps]
    rfl

/-- Fields that read as zero can be left out. -/
theorem decode_without (hs : s.Regular) : ∀ {gone : List Step → Bool} {v : Value},
    OnlyZeros byWire gone s v → SaysTheSame byWire s v (without gone s v) := by
  induction hs with
  | text | whole | truth | time => exact fun _ d hd ↦ ⟨d, hd, rfl⟩
  | nullable _ ih =>
    intro gone v hz d hd
    rw [without]
    by_cases hv : v = .null
    · rw [without_eq_null_iff.2 hv]
      exact ⟨d, hv ▸ hd, rfl⟩
    · rw [decode_nullable_of_ne hv] at hd
      rw [decode_nullable_of_ne (mt without_eq_null_iff.1 hv)]
      exact ih hz d hd
  | list _ ih =>
    intro gone v hz d hd
    obtain ⟨vs, ds, rfl, rfl, hds⟩ := decode_list_eq_ok.1 hd
    have hc (i : Nat) (v : Value) (hv : vs[i]? = some v) :
        SaysTheSame byWire _ v (without (behind gone (.element i)) _ v) :=
      ih fun path s' v' hgone hat ↦
        hz (.element i :: path) s' v' hgone (by rw [fieldAt?, hv]; exact hat)
    obtain ⟨ds', hds', hdump⟩ := elements_without hds hc
    refine ⟨.list ds', ?_, by rw [Decoded.dump, Decoded.dump, hdump]⟩
    rw [without]
    exact decode_list_eq_ok.2 ⟨_, _, rfl, rfl, hds'⟩
  | @record fields hn _ ih =>
    intro gone v hz d hd
    obtain ⟨ms, es, rfl, rfl, hes⟩ := decode_record_eq_ok.1 hd
    have hat (field : FieldName × Shape) (hfield : field ∈ fields) {name : String} {v : Value}
        (hg : given? ms field.1 = some (name, v)) (path : List Step) :=
      fieldAt?_member hn field hfield hg path
    obtain ⟨es', hes', hdump⟩ := fields_without hes (given?_withoutFields hn)
      (fun field hfield name v hg hgone ↦ hz _ _ _ hgone (by rw [hat field hfield hg, if_pos rfl]))
      fun field hfield name v hg ↦ ih field hfield fun path s' v' hgone hbehind ↦
        hz _ _ _ hgone (by rw [hat field hfield hg, hbehind, if_neg (ne_nil_of_fieldAt? hbehind)])
    refine ⟨.record es', ?_, by rw [Decoded.dump, Decoded.dump, hdump]⟩
    rw [without]
    exact decode_record_eq_ok.2 ⟨_, _, rfl, rfl, hes'⟩

theorem exists_of_fieldIn? {p : Shape × Value} (h : fieldIn? fields ms name path = some p) :
    ∃ field ∈ fields, name = field.1.name := by
  induction fields with
  | nil => cases h
  | cons field fields ih =>
    obtain ⟨f, s⟩ := field
    rw [fieldIn?] at h
    split at h
    · rename_i hname
      exact ⟨_, List.mem_cons_self, hname.symm⟩
    · obtain ⟨field, hfield, hname⟩ := ih h
      exact ⟨field, List.mem_cons_of_mem _ hfield, hname⟩

/-- What is deleted is not there any more. -/
theorem fieldAt?_without (hs : s.Regular) :
    ∀ {gone : List Step → Bool} {v : Value} {path : List Step},
      gone path = true → fieldAt? s (without gone s v) path = none := by
  induction hs with
  | text | whole | truth | time => intros; simp [fieldAt?]
  | nullable _ ih =>
    intro gone v path h
    rw [without, fieldAt?]
    exact ih h
  | list _ ih =>
    intro gone v path h
    cases v with
    | arr vs =>
      rw [without]
      cases path with
      | nil => exact fieldAt?_nil
      | cons step path =>
        cases step with
        | member name => simp [fieldAt?]
        | element i =>
          rw [fieldAt?, List.getElem?_mapIdx]
          cases vs[i]? with
          | none => rfl
          | some v => exact ih h
    | _ => simp [without, fieldAt?]
  | @record fields hn _ ih =>
    intro gone v path h
    cases v with
    | obj ms =>
      rw [without]
      cases path with
      | nil => exact fieldAt?_nil
      | cons step path =>
        cases step with
        | element i => simp [fieldAt?]
        | member name =>
          rw [fieldAt?, Option.eq_none_iff_forall_ne_some]
          intro p hp
          obtain ⟨field, hfield, rfl⟩ := exists_of_fieldIn? hp
          rw [fieldIn?_eq hn path field hfield, given?_withoutFields hn field hfield] at hp
          split at hp
          · cases hp
          · rename_i hkept
            simp only [Option.bind_map, Option.bind_eq_some_iff] at hp
            obtain ⟨q, -, hp⟩ := hp
            by_cases hpath : path = []
            · exact hkept (hpath ▸ h)
            · have hnone : fieldAt? field.2
                  (without (behind gone (.member field.1.name)) field.2 q.2) path = none :=
                ih field hfield h
              simp [hpath, hnone] at hp
    | _ => simp [without, fieldAt?]

end Shape
end StatusRelay.Payload
