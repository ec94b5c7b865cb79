import Mathlib.Data.List.Forall2
import StatusRelay.Redaction

namespace StatusRelay

open Json (Value Members)

namespace Redaction

mutual

/-- Whether two values are the same but for what their objects keep under sensitive keys. Objects in
lists are taken into account just if `lists` says so. -/
inductive Alike (lists : Bool) : Value → Value → Prop
  | same (v : Value) : Alike lists v v
  | object {ms ms' : List (String × Value)} (h : MembersAlike lists ms ms') :
      Alike lists (.obj ms) (.obj ms')
  | list {vs vs' : List Value} (hl : lists = true) (h : ItemsAlike lists vs vs') :
      Alike lists (.arr vs) (.arr vs')

inductive MembersAlike (lists : Bool) : List (String × Value) → List (String × Value) → Prop
  | nil : MembersAlike lists [] []
  | secret {key : String} {v v' : Value} {ms ms' : List (String × Value)}
      (hk : isSensitive key = true) (h : MembersAlike lists ms ms') :
      MembersAlike lists ((key, v) :: ms) ((key, v') :: ms')
  | plain {key : String} {v v' : Value} {ms ms' : List (String × Value)} (hv : Alike lists v v')
      (h : MembersAlike lists ms ms') : MembersAlike lists ((key, v) :: ms) ((key, v') :: ms')

inductive ItemsAlike (lists : Bool) : List Value → List Value → Prop
  | nil : ItemsAlike lists [] []
  | cons {v v' : Value} {vs vs' : List Value} (hv : Alike lists v v')
      (h : ItemsAlike lists vs vs') : ItemsAlike lists (v :: vs) (v' :: vs')

end

mutual

theorem redact_eq {v v' : Value} : Alike false v v' → redact v = redact v'
  | .same v => rfl
  | .object h => by rw [redact, redact, redactMembers_eq h]
  | .list hl _ => by cases hl

theorem redactMembers_eq {ms ms' : List (String × Value)} :
    MembersAlike false ms ms' → redactMembers ms = redactMembers ms'
  | .nil => rfl
  | .secret hk h => by simp only [redactMembers, hk, if_true, redactMembers_eq h]
  | .plain hv h => by rw [redactMembers, redactMembers, redact_eq hv, redactMembers_eq h]

end

mutual

theorem alike_of_redact_eq {v v' : Value} (h : redact v = redact v') : Alike false v v' := by
  cases v with
  | obj ms =>
    cases v' with
    | obj ms' => exact .object (membersAlike_of_redact_eq (Value.obj.inj h))
    | _ => cases h
  | _ =>
    cases v' with
    | obj ms' => cases h
    | _ => cases h <;> exact .same _

theorem membersAlike_of_redact_eq : ∀ {ms ms' : List (String × Value)},
    redactMembers ms = redactMembers ms' → MembersAlike false ms ms'
  | [], [], _ => .nil
  | [], _ :: _, h => by cases h
  | _ :: _, [], h => by cases h
  | (key, v) :: ms, (key', v') :: ms', h => by
    rw [redactMembers, redactMembers, List.cons.injEq, Prod.mk.injEq] at h
    obtain ⟨⟨rfl, hv⟩, hms⟩ := h
    have hrest := membersAlike_of_redact_eq hms
    cases hk : isSensitive key with
    | true => exact .secret hk hrest
    | false =>
      rw [hk] at hv
      exact .plain (alike_of_redact_eq hv) hrest

end

/-- Two values become one just if they are the same but for the secrets in objects that objects
hold. -/
theorem redact_eq_iff {v v' : Value} : redact v = redact v' ↔ Alike false v v' :=
  ⟨alike_of_redact_eq, redact_eq⟩

inductive MemberIs (key : String) (P : Value → Prop) : Value → Prop
  | absent {ms : Members} (h : Table.get? ms key = none) : MemberIs key P (.obj ms)
  | present {ms : Members} {v : Value} (h : Table.get? ms key = some v) (hv : P v) :
      MemberIs key P (.obj ms)

inductive ElementsAre (P : Value → Prop) : Value → Prop
  | list {vs : List Value} (h : ∀ v ∈ vs, P v) : ElementsAre P (.arr vs)

inductive MemberAlike (key : String) (R : Value → Value → Prop) : Value → Value → Prop
  | absent {ms : Members} (h : Table.get? ms key = none) : MemberAlike key R (.obj ms) (.obj ms)
  | present {ms : Members} {v v' : Value} (h : Table.get? ms key = some v) (hr : R v v') :
      MemberAlike key R (.obj ms) (.obj (Table.put key v' ms))

inductive ElementsAlike (R : Value → Value → Prop) : Value → Value → Prop
  | list {vs vs' : List Value} (h : List.Forall₂ R vs vs') : ElementsAlike R (.arr vs) (.arr vs')

def IsObject (v : Value) : Prop := ∃ ms, v = .obj ms

/-- A stack trace that is there has frames, with local variables of any kind. -/
def IsStackTrace (v : Value) : Prop :=
  v.truthy = false ∨ MemberIs "frames" (ElementsAre (MemberIs "vars" fun _ ↦ True)) v

def StackTraceAlike (lists : Bool) (v v' : Value) : Prop :=
  v = v' ∨ MemberAlike "frames" (ElementsAlike (MemberAlike "vars" (Alike lists))) v v'

structure IsReport (e : Value) : Prop where
  extra : MemberIs "extra" IsObject e
  exception : MemberIs "exception" (MemberIs "values"
    (ElementsAre (MemberIs "stacktrace" IsStackTrace))) e

/-- Whether two reports are the same but for the secrets in their extra data and in the local
variables of the frames. -/
def ReportAlike (lists : Bool) (e e' : Value) : Prop :=
  ∃ mid, MemberAlike "extra" (Alike lists) e mid ∧
    MemberAlike "exception" (MemberAlike "values"
      (ElementsAlike (MemberAlike "stacktrace" (StackTraceAlike lists)))) mid e'

/-- A pass that finds no fault with values of a kind, and makes one of two of them just if they are
related. -/
structure Merges (P : Value → Prop) (R : Value → Value → Prop) (pass : Value → Pass) : Prop where
  clean : ∀ v, P v → ∃ r, pass v = (r, none)
  eq_of_alike : ∀ v v', P v → P v' → R v v' → pass v = pass v'
  alike_of_eq : ∀ v v', P v → P v' → pass v = pass v' → R v v'

section Passes

variable {P P₁ P₂ : Value → Prop} {R R₁ R₂ : Value → Value → Prop} {key other : String}
  {pass first second : Value → Pass} {ms ms' : Members} {v v' x : Value}

theorem MemberIs.isObject (h : MemberIs key P v) : IsObject v := by
  cases h <;> exact ⟨_, rfl⟩

theorem MemberIs.of_get? (h : MemberIs key P (.obj ms)) (hv : Table.get? ms key = some v) :
    P v := by
  cases h with
  | absent hn =>
    rw [hn] at hv
    cases hv
  | present hv' hp =>
    rw [hv'] at hv
    exact Option.some.inj hv ▸ hp

theorem overMember_of_get?_none (h : Table.get? ms key = none) :
    overMember key pass (.obj ms) = (.obj ms, none) := by
  simp only [overMember, h]

theorem overMember_of_get? (h : Table.get? ms key = some v) (hp : pass v = (x, none)) :
    overMember key pass (.obj ms) = (.obj (Table.put key x ms), none) := by
  simp only [overMember, h, hp]

theorem merges_redact : Merges (fun _ ↦ True) (Alike false) fun v ↦ (redact v, none) where
  clean v _ := ⟨redact v, rfl⟩
  eq_of_alike _ _ _ _ h := congrArg (·, none) (redact_eq_iff.2 h)
  alike_of_eq _ _ _ _ h := redact_eq_iff.1 (Prod.mk.inj h).1

theorem merges_overObject : Merges IsObject (Alike false) overObject := by
  have hobj (ms : Members) : overObject (.obj ms) = (redact (.obj ms), none) := by
    rw [overObject, redact]
  refine ⟨?_, ?_, ?_⟩
  · rintro _ ⟨ms, rfl⟩
    exact ⟨_, hobj ms⟩
  · rintro _ _ ⟨ms, rfl⟩ ⟨ms', rfl⟩ h
    rw [hobj, hobj, redact_eq_iff.2 h]
  · rintro _ _ ⟨ms, rfl⟩ ⟨ms', rfl⟩ h
    rw [hobj, hobj] at h
    exact redact_eq_iff.1 (Prod.mk.inj h).1

theorem merges_overMember (h : Merges P R pass) :
    Merges (MemberIs key P) (MemberAlike key R) (overMember key pass) where
  clean v hv := by
    cases hv with
    | absent hn => exact ⟨_, overMember_of_get?_none hn⟩
    | present hu hp =>
      obtain ⟨r, hr⟩ := h.clean _ hp
      exact ⟨_, overMember_of_get? hu hr⟩
  eq_of_alike v v' hv hv' hr := by
    cases hr with
    | absent => rfl
    | @present ms u u' hu hr =>
      have hu' : Table.get? (Table.put key u' ms) key = some u' := Table.get?_put_self ms key u'
      obtain ⟨r, hclean⟩ := h.clean u (hv.of_get? hu)
      have hclean' : pass u' = (r, none) :=
        (h.eq_of_alike u u' (hv.of_get? hu) (hv'.of_get? hu') hr).symm.trans hclean
      rw [overMember_of_get? hu hclean, overMember_of_get? hu' hclean', Table.put_put]
  alike_of_eq v v' hv hv' heq := by
    cases hv with
    | @absent ms hn =>
      rw [overMember_of_get?_none hn] at heq
      cases hv' with
      | absent hn' =>
        rw [overMember_of_get?_none hn'] at heq
        cases heq
        exact .absent hn
      | present hu' hp' =>
        obtain ⟨r', hr'⟩ := h.clean _ hp'
        rw [overMember_of_get? hu' hr'] at heq
        cases heq
        simp at hn
    | @present ms u hu hp =>
      obtain ⟨r, hr⟩ := h.clean u hp
      rw [overMember_of_get? hu hr] at heq
      cases hv' with
      | absent hn' =>
        rw [overMember_of_get?_none hn'] at heq
        cases heq
        simp at hn'
      | @present ms' u' hu' hp' =>
        obtain ⟨r', hr'⟩ := h.clean u' hp'
        rw [overMember_of_get? hu' hr'] at heq
        have hput : Table.put key r ms = Table.put key r' ms' := Value.obj.inj (Prod.mk.inj heq).1
        -- The member is the same in both results, and the rest was never touched.
        have hrr : r = r' := by
          have hget := congrArg (Table.get? · key) hput
          simpa using hget
        subst hrr
        have halike : R u u' := h.alike_of_eq u u' hp hp' (hr.trans hr'.symm)
        have hms : ms' = Table.put key u' ms := by
          calc ms' = Table.put key u' ms' := (Table.put_of_get? hu').symm
            _ = Table.put key u' (Table.put key r ms') := (Table.put_put _ _ _ _).symm
            _ = Table.put key u' (Table.put key r ms) := by rw [hput]
            _ = Table.put key u' ms := Table.put_put _ _ _ _
        rw [hms]
        exact .present hu halike

theorem sweep_clean (h : Merges P R pass) {vs : List Value} (hvs : ∀ v ∈ vs, P v) :
    ∃ rs, sweep pass vs = (rs, none) := by
  induction vs with
  | nil => exact ⟨[], rfl⟩
  | cons v vs ih =>
    obtain ⟨r, hr⟩ := h.clean v (hvs v List.mem_cons_self)
    obtain ⟨rs, hrs⟩ := ih fun v hv ↦ hvs v (List.mem_cons_of_mem _ hv)
    exact ⟨r :: rs, by simp only [sweep, hr, hrs]⟩

theorem sweep_eq_iff (h : Merges P R pass) {vs : List Value} : ∀ {vs' : List Value},
    (∀ v ∈ vs, P v) → (∀ v ∈ vs', P v) →
      (sweep pass vs = sweep pass vs' ↔ List.Forall₂ R vs vs') := by
  induction vs with
  | nil =>
    intro vs' _ hvs'
    cases vs' with
    | nil => exact ⟨fun _ ↦ .nil, fun _ ↦ rfl⟩
    | cons v' vs' =>
      obtain ⟨r, hr⟩ := h.clean v' (hvs' v' List.mem_cons_self)
      refine ⟨fun heq ↦ ?_, fun hall ↦ (by cases hall)⟩
      simp [sweep, hr] at heq
  | cons v vs ih =>
    intro vs' hvs hvs'
    have hv : P v := hvs v List.mem_cons_self
    have hrest : ∀ v ∈ vs, P v := fun v hv ↦ hvs v (List.mem_cons_of_mem _ hv)
    obtain ⟨r, hr⟩ := h.clean v hv
    cases vs' with
    | nil =>
      refine ⟨fun heq ↦ ?_, fun hall ↦ (by cases hall)⟩
      simp [sweep, hr] at heq
    | cons v' vs' =>
      have hv' : P v' := hvs' v' List.mem_cons_self
      have hrest' : ∀ v ∈ vs', P v := fun v hv ↦ hvs' v (List.mem_cons_of_mem _ hv)
      obtain ⟨r', hr'⟩ := h.clean v' hv'
      obtain ⟨rs, hrs⟩ := sweep_clean h hrest
      obtain ⟨rs', hrs'⟩ := sweep_clean h hrest'
      have hpass : pass v = pass v' ↔ R v v' :=
        ⟨h.alike_of_eq v v' hv hv', h.eq_of_alike v v' hv hv'⟩
      rw [List.forall₂_cons, ← hpass, ← ih hrest hrest', hr, hr', hrs, hrs']
      simp [sweep, hr, hr', hrs, hrs']

theorem merges_overElements (h : Merges P R pass) :
    Merges (ElementsAre P) (ElementsAlike R) (overElements pass) where
  clean v hv := by
    obtain ⟨hvs⟩ := hv
    obtain ⟨rs, hrs⟩ := sweep_clean h hvs
    exact ⟨.arr rs, by simp only [overElements, hrs]⟩
  eq_of_alike v v' hv hv' hr := by
    obtain ⟨hvs⟩ := hv
    obtain ⟨hvs'⟩ := hv'
    obtain ⟨hall⟩ := hr
    simp only [overElements, (sweep_eq_iff h hvs hvs').2 hall]
  alike_of_eq v v' hv hv' heq := by
    obtain ⟨hvs⟩ := hv
    obtain ⟨hvs'⟩ := hv'
    simp only [overElements, Prod.mk.injEq, Value.arr.injEq] at heq
    exact .list ((sweep_eq_iff h hvs hvs').1 (Prod.ext heq.1 heq.2))

/-- An empty object does not count as a trace, and has no frames either. -/
theorem overStackTrace_object (ms : Members) :
    overStackTrace (.obj ms) = overMember "frames" (overElements overFrame) (.obj ms) := by
  cases ms <;> rfl

theorem overStackTrace_cases (h : IsStackTrace v) :
    (∃ ms, v = .obj ms ∧ MemberIs "frames" (ElementsAre (MemberIs "vars" fun _ ↦ True)) v ∧
      overStackTrace v = overMember "frames" (overElements overFrame) v) ∨
      (∀ ms, v ≠ .obj ms) ∧ overStackTrace v = (v, none) := by
  cases v with
  | obj ms =>
    refine .inl ⟨ms, rfl, ?_, overStackTrace_object ms⟩
    obtain hfalsy | hframes := h
    · obtain rfl : ms = [] := by simpa [Value.truthy] using hfalsy
      exact .absent rfl
    · exact hframes
  | _ =>
    obtain hfalsy | hframes := h
    · exact .inr ⟨by simp, by simp only [overStackTrace, hfalsy, Bool.false_eq_true, if_false]⟩
    · cases hframes

theorem overMember_object (key : String) (pass : Value → Pass) (ms : Members) :
    ∃ ms', (overMember key pass (.obj ms)).1 = .obj ms' := by
  cases hu : Table.get? ms key with
  | none => exact ⟨ms, by simp only [overMember, hu]⟩
  | some u => exact ⟨Table.put key (pass u).1 ms, by simp only [overMember, hu]⟩

theorem merges_overStackTrace : Merges IsStackTrace (StackTraceAlike false) overStackTrace := by
  have hvars : Merges (MemberIs "vars" fun _ ↦ True) (MemberAlike "vars" (Alike false)) overFrame :=
    merges_overMember merges_redact
  have hframes : Merges (MemberIs "frames" (ElementsAre (MemberIs "vars" fun _ ↦ True)))
      (MemberAlike "frames" (ElementsAlike (MemberAlike "vars" (Alike false))))
      (overMember "frames" (overElements overFrame)) :=
    merges_overMember (merges_overElements hvars)
  refine ⟨?_, ?_, ?_⟩
  · intro v hv
    obtain ⟨ms, -, hkind, heq⟩ | ⟨-, heq⟩ := overStackTrace_cases hv
    · rw [heq]
      exact hframes.clean v hkind
    · exact ⟨v, heq⟩
  · intro v v' hv hv' h
    obtain rfl | h := h
    · rfl
    · obtain ⟨ms, -, hkind, heq⟩ | ⟨hne, -⟩ := overStackTrace_cases hv
      · obtain ⟨ms', -, hkind', heq'⟩ | ⟨hne', -⟩ := overStackTrace_cases hv'
        · rw [heq, heq']
          exact hframes.eq_of_alike v v' hkind hkind' h
        · cases h <;> exact absurd rfl (hne' _)
      · cases h <;> exact absurd rfl (hne _)
  · intro v v' hv hv' h
    obtain ⟨ms, rfl, hkind, heq⟩ | ⟨hne, heq⟩ := overStackTrace_cases hv
    · obtain ⟨ms', rfl, hkind', heq'⟩ | ⟨hne', heq'⟩ := overStackTrace_cases hv'
      · rw [heq, heq'] at h
        exact .inr (hframes.alike_of_eq _ _ hkind hkind' h)
      · obtain ⟨ms', hms'⟩ := overMember_object "frames" (overElements overFrame) ms
        rw [heq, heq'] at h
        rw [h] at hms'
        exact absurd hms' (hne' ms')
    · obtain ⟨ms', rfl, hkind', heq'⟩ | ⟨hne', heq'⟩ := overStackTrace_cases hv'
      · obtain ⟨ms, hms⟩ := overMember_object "frames" (overElements overFrame) ms'
        rw [heq, heq'] at h
        rw [← h] at hms
        exact absurd hms (hne ms)
      · rw [heq, heq'] at h
        exact .inl (Prod.mk.inj h).1

theorem overMember_cases (h : overMember key pass (.obj ms) = (x, none)) :
    (Table.get? ms key = none ∧ x = .obj ms) ∨
      ∃ u w, Table.get? ms key = some u ∧ pass u = (w, none) ∧ x = .obj (Table.put key w ms) := by
  cases hu : Table.get? ms key with
  | none =>
    rw [overMember_of_get?_none hu] at h
    cases h
    exact .inl ⟨rfl, rfl⟩
  | some u =>
    simp only [overMember, hu, Prod.mk.injEq] at h
    obtain ⟨rfl, hfault⟩ := h
    exact .inr ⟨u, (pass u).1, rfl, Prod.ext rfl hfault, rfl⟩

section TwoMembers

variable (hne : other ≠ key)
include hne

theorem MemberAlike.get?_eq (h : MemberAlike other R (.obj ms) (.obj ms')) :
    Table.get? ms' key = Table.get? ms key := by
  cases h with
  | absent => rfl
  | present => exact Table.get?_put_of_ne hne.symm _ _

theorem MemberAlike.memberIs (h : MemberAlike other R (.obj ms) (.obj ms'))
    (hv : MemberIs key P (.obj ms')) : MemberIs key P (.obj ms) := by
  have hkey := h.get?_eq hne
  cases hv with
  | absent hn => exact .absent (hkey.symm.trans hn)
  | present hu hp => exact .present (hkey.symm.trans hu) hp

theorem MemberAlike.put (h : MemberAlike other R (.obj ms) (.obj ms')) (u : Value) :
    MemberAlike other R (.obj (Table.put key u ms)) (.obj (Table.put key u ms')) := by
  cases h with
  | absent hn => exact .absent (by rwa [Table.get?_put_of_ne hne])
  | present hw hr =>
    rw [Table.put_comm hne u _ hw]
    exact .present (by rwa [Table.get?_put_of_ne hne]) hr

theorem MemberIs.of_overMember (h : MemberIs other P (.obj ms))
    (hx : overMember key pass (.obj ms) = (x, none)) : MemberIs other P x := by
  have hput (w : Value) : Table.get? (Table.put key w ms) other = Table.get? ms other :=
    Table.get?_put_of_ne hne ms w
  obtain ⟨-, rfl⟩ | ⟨u, w, -, -, rfl⟩ := overMember_cases hx
  · exact h
  · cases h with
    | absent hn => exact .absent ((hput w).trans hn)
    | present hu hp => exact .present ((hput w).trans hu) hp

theorem overMember_alike (h : MemberAlike other R (.obj ms) (.obj ms'))
    (hx : overMember key pass (.obj ms) = (x, none)) :
    ∃ x', overMember key pass (.obj ms') = (x', none) ∧ MemberAlike other R x x' := by
  have hkey := h.get?_eq hne
  obtain ⟨hu, rfl⟩ | ⟨u, w, hu, hp, rfl⟩ := overMember_cases hx
  · exact ⟨_, overMember_of_get?_none (hkey.trans hu), h⟩
  · exact ⟨_, overMember_of_get? (hkey.trans hu) hp, h.put hne w⟩

/-- If passes over one member leave two objects alike in another, the first object with that member
of the second is between them. -/
theorem exists_between (h₁ : Merges P₁ R₁ first) {x' : Value} (hk : MemberIs key P₁ (.obj ms))
    (hk' : MemberIs key P₁ (.obj ms')) (hx : overMember key first (.obj ms) = (x, none))
    (hx' : overMember key first (.obj ms') = (x', none)) (h : MemberAlike other R₂ x x') :
    ∃ mid, MemberAlike key R₁ (.obj ms) mid ∧ MemberAlike other R₂ mid (.obj ms') := by
  obtain ⟨hu, rfl⟩ | ⟨u, w, hu, hp, rfl⟩ := overMember_cases hx
  · obtain ⟨-, rfl⟩ | ⟨u', w', -, -, rfl⟩ := overMember_cases hx'
    · exact ⟨.obj ms, .absent hu, h⟩
    · have hget := h.get?_eq hne
      rw [hu, Table.get?_put_self] at hget
      cases hget
  · obtain ⟨hu', rfl⟩ | ⟨u', w', hu', hp', rfl⟩ := overMember_cases hx'
    · have hget := h.get?_eq hne
      rw [hu', Table.get?_put_self] at hget
      cases hget
    · have hget := h.get?_eq hne
      rw [Table.get?_put_self, Table.get?_put_self] at hget
      obtain rfl := Option.some.inj hget
      have halike : R₁ u u' :=
        h₁.alike_of_eq u u' (hk.of_get? hu) (hk'.of_get? hu') (hp.trans hp'.symm)
      refine ⟨.obj (Table.put key u' ms), .present hu halike, ?_⟩
      -- Both objects get the member of the second, which has it already.
      have hput := h.put hne u'
      rwa [Table.put_put, Table.put_put, Table.put_of_get? hu'] at hput

theorem andThen_overMember (second : Value → Pass) (h₁ : Merges P₁ R₁ first)
    (hk : MemberIs key P₁ v) (ho : MemberIs other P₂ v) :
    ∃ x, overMember key first v = (x, none) ∧ MemberIs other P₂ x ∧
      andThen (overMember key first) (overMember other second) v = overMember other second x := by
  obtain ⟨x, hx⟩ := (merges_overMember h₁).clean v hk
  obtain ⟨ms, rfl⟩ := hk.isObject
  exact ⟨x, hx, ho.of_overMember hne hx, by simp only [andThen, hx]⟩

/-- Passes over two members, one after the other, merge what is related in both. -/
theorem merges_andThen (h₁ : Merges P₁ R₁ first) (h₂ : Merges P₂ R₂ second) :
    Merges (fun v ↦ MemberIs key P₁ v ∧ MemberIs other P₂ v)
      (fun v v' ↦ ∃ mid, MemberAlike key R₁ v mid ∧ MemberAlike other R₂ mid v')
      (andThen (overMember key first) (overMember other second)) := by
  have hfirst : Merges (MemberIs key P₁) (MemberAlike key R₁) (overMember key first) :=
    merges_overMember h₁
  have hsecond : Merges (MemberIs other P₂) (MemberAlike other R₂) (overMember other second) :=
    merges_overMember h₂
  refine ⟨?_, ?_, ?_⟩
  · rintro v ⟨hk, ho⟩
    obtain ⟨x, -, hox, heq⟩ := andThen_overMember hne second h₁ hk ho
    rw [heq]
    exact hsecond.clean x hox
  · rintro v v' ⟨hk, ho⟩ ⟨hk', ho'⟩ ⟨mid, hmid, hv'⟩
    obtain ⟨x, hx, hox, heq⟩ := andThen_overMember hne second h₁ hk ho
    obtain ⟨x', hx', hox', heq'⟩ := andThen_overMember hne second h₁ hk' ho'
    obtain ⟨ms', rfl⟩ := hk'.isObject
    obtain ⟨ms, rfl⟩ : IsObject mid := by cases hmid <;> exact ⟨_, rfl⟩
    have hkmid : MemberIs key P₁ (.obj ms) := hv'.memberIs hne hk'
    have hxmid := (hfirst.eq_of_alike v (.obj ms) hk hkmid hmid).symm.trans hx
    -- `mid` becomes what `v` becomes, and is alike `v'` in the other member.
    obtain ⟨y, hy, halike⟩ := overMember_alike hne hv' hxmid
    obtain rfl : y = x' := (Prod.mk.inj (hy.symm.trans hx')).1
    rw [heq, heq']
    exact hsecond.eq_of_alike x y hox hox' halike
  · rintro v v' ⟨hk, ho⟩ ⟨hk', ho'⟩ h
    obtain ⟨x, hx, hox, heq⟩ := andThen_overMember hne second h₁ hk ho
    obtain ⟨x', hx', hox', heq'⟩ := andThen_overMember hne second h₁ hk' ho'
    rw [heq, heq'] at h
    have halike := hsecond.alike_of_eq x x' hox hox' h
    obtain ⟨ms, rfl⟩ := hk.isObject
    obtain ⟨ms', rfl⟩ := hk'.isObject
    exact exists_between hne h₁ hk hk' hx hx' halike

end TwoMembers

end Passes

/-- A report with its parts in their places is redacted to the end, and two of them become one just
if they are the same but for the secrets in objects that objects hold. -/
theorem secrets_hidden {e e' : Value} (he : IsReport e) (he' : IsReport e') :
    (∃ r, scrub e = (r, none)) ∧ (scrub e = scrub e' ↔ ReportAlike false e e') := by
  have htrace : Merges (MemberIs "stacktrace" IsStackTrace)
      (MemberAlike "stacktrace" (StackTraceAlike false)) overException :=
    merges_overMember merges_overStackTrace
  have hvalues : Merges (MemberIs "values" (ElementsAre (MemberIs "stacktrace" IsStackTrace)))
      (MemberAlike "values" (ElementsAlike (MemberAlike "stacktrace" (StackTraceAlike false))))
      (overMember "values" (overElements overException)) :=
    merges_overMember (merges_overElements htrace)
  have hscrub := merges_andThen (by decide : "exception" ≠ "extra") merges_overObject hvalues
  have hkind := And.intro he.extra he.exception
  have hkind' := And.intro he'.extra he'.exception
  refine ⟨hscrub.clean e hkind, ?_, ?_⟩
  · exact hscrub.alike_of_eq e e' hkind hkind'
  · exact hscrub.eq_of_alike e e' hkind hkind'

end Redaction

namespace Sample

def crashReport (secret : String) : Value :=
  let config := Value.obj [("config", .obj [("dsn", .str secret)])]
  let trace := Value.obj [("frames", .arr [.obj [("vars", config)]])]
  .obj [("extra", .obj [("attempt", .int 2), ("App_Token", .str secret)]),
    ("exception", .obj [("values", .arr [.obj [("stacktrace", trace)]])])]

def listReport (secret : String) : Value :=
  .obj [("extra", .obj [("items", .arr [.obj [("token", .str secret)]])])]

end Sample

namespace Redaction

theorem isReport_crashReport (secret : String) : IsReport (Sample.crashReport secret) := by
  have hframes (vars : Value) :
      ElementsAre (MemberIs "vars" fun _ ↦ True) (.arr [.obj [("vars", vars)]]) := by
    refine .list fun v hv ↦ ?_
    obtain rfl := List.mem_singleton.1 hv
    exact .present rfl trivial
  refine ⟨.present rfl ⟨_, rfl⟩, .present rfl (.present rfl (.list fun v hv ↦ ?_))⟩
  obtain rfl := List.mem_singleton.1 hv
  exact .present rfl (.inr (.present rfl (hframes _)))

theorem secrets_hidden_crash :
    IsReport (Sample.crashReport "ghs_a") ∧ IsReport (Sample.crashReport "ghs_b") ∧
      (∃ r, scrub (Sample.crashReport "ghs_a") = (r, none)) ∧
        scrub (Sample.crashReport "ghs_a") = scrub (Sample.crashReport "ghs_b") := by
  have hextra : Alike false (.obj [("attempt", .int 2), ("App_Token", .str "ghs_a")])
      (.obj [("attempt", .int 2), ("App_Token", .str "ghs_b")]) :=
    .object (.plain (.same _) (.secret (by decide) .nil))
  have hvars : Alike false (.obj [("config", .obj [("dsn", .str "ghs_a")])])
      (.obj [("config", .obj [("dsn", .str "ghs_b")])]) :=
    .object (.plain (.object (.secret (by decide) .nil)) .nil)
  have hframes : ElementsAlike (MemberAlike "vars" (Alike false))
      (.arr [.obj [("vars", .obj [("config", .obj [("dsn", .str "ghs_a")])])]])
      (.arr [.obj [("vars", .obj [("config", .obj [("dsn", .str "ghs_b")])])]]) :=
    .list (.cons (.present rfl hvars) .nil)
  have halike : ReportAlike false (Sample.crashReport "ghs_a") (Sample.crashReport "ghs_b") := by
    refine ⟨_, .present rfl hextra, .present rfl (.present rfl (.list (.cons ?_ .nil)))⟩
    exact .present rfl (.inr (.present rfl hframes))
  have h := secrets_hidden (isReport_crashReport "ghs_a") (isReport_crashReport "ghs_b")
  exact ⟨isReport_crashReport _, isReport_crashReport _, h.1, h.2.2 halike⟩

/-- A secret in a list is sent as it is. -/
theorem secret_in_list :
    IsReport (Sample.listReport "ghs_a") ∧ IsReport (Sample.listReport "ghs_b") ∧
      ReportAlike true (Sample.listReport "ghs_a") (Sample.listReport "ghs_b") ∧
        scrub (Sample.listReport "ghs_a") ≠ scrub (Sample.listReport "ghs_b") := by
  have hreport (secret : String) : IsReport (Sample.listReport secret) :=
    ⟨.present rfl ⟨_, rfl⟩, .absent rfl⟩
  have hitems : Alike true (.arr [.obj [("token", .str "ghs_a")]])
      (.arr [.obj [("token", .str "ghs_b")]]) :=
    .list rfl (.cons (.object (.secret (by decide) .nil)) .nil)
  have hsent (secret : String) :
      scrub (Sample.listReport secret) = (Sample.listReport secret, none) := rfl
  refine ⟨hreport _, hreport _, ?_, ?_⟩
  · exact ⟨_, .present rfl (.object (.plain hitems .nil)), .absent rfl⟩
  · rw [hsent, hsent]
    simp [Sample.listReport]

end Redaction
end StatusRelay
