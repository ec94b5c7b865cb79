import Mathlib.Data.Option.Basic
import StatusRelay.Proofs.Json.Places
import StatusRelay.Proofs.Redaction

namespace StatusRelay

open Json (Value Members)
open Payload (Step)

namespace Redaction

open Json.Value (outline child? child?_of_leaf)

/-- A key is sensitive when a keyword stands in its lower-case form. -/
def Sensitive (key : String) : Prop :=
  ∃ word ∈ keywords, word.toList <:+: (Text.lower key).toList

theorem containsText_iff {part cs : List Char} : containsText part cs = true ↔ part <:+: cs := by
  induction cs with
  | nil => simp [containsText]
  | cons c cs ih => simp [containsText, ih, List.infix_cons_iff]

theorem isSensitive_iff {key : String} : isSensitive key = true ↔ Sensitive key := by
  simp only [isSensitive, Sensitive, List.any_eq_true, containsText_iff]

/-- The place of a sensitive key to which objects lead, none of them under a sensitive key. -/
inductive Secret : List Step → Prop
  | here {key : String} (h : Sensitive key) : Secret [.member key]
  | deeper {key : String} {p : List Step} (h : ¬ Sensitive key) (hp : Secret p) :
      Secret (.member key :: p)

inductive Below (steps : Step → Prop) (S : List Step → Prop) : List Step → Prop
  | step {s : Step} {p : List Step} (hs : steps s) (hp : S p) : Below steps S (s :: p)

/-- Whether one value is another with the mark at its places of a kind. All places that are neither
of this kind nor below one that is show the same in both. -/
structure Hides (S : List Step → Prop) (v r : Value) : Prop where
  hidden : ∀ p, S p → (v.at? p).isSome → r.at? p = some mark
  kept : ∀ p, (∀ q, S q → (v.at? q).isSome → ¬ q <+: p) →
    (r.at? p).map outline = (v.at? p).map outline

namespace Hides

variable {S T : List Step → Prop} {steps : Step → Prop} {v r x : Value} {p : List Step}

theorem isSome_eq (h : Hides S v r) (hp : ∀ q, S q → (v.at? q).isSome → ¬ q <+: p) :
    (r.at? p).isSome = (v.at? p).isSome := by
  have hkept := congrArg Option.isSome (h.kept p hp)
  simpa only [Option.isSome_map] using hkept

theorem congr (h : Hides S v r) (hST : ∀ p, S p ↔ T p) : Hides T v r := by
  obtain rfl : S = T := funext fun p ↦ propext (hST p)
  exact h

theorem self (h : ∀ p, S p → v.at? p = none) : Hides S v v where
  hidden p hp hv := by
    rw [h p hp] at hv
    cases hv
  kept _ _ := rfl

/-- Where nothing but what is below some steps differs, what is hidden is below these steps. -/
theorem below (ho : r.outline = v.outline)
    (hin : ∀ s, steps s → Option.Rel (Hides S) (v.child? s) (r.child? s))
    (hout : ∀ s, ¬ steps s → r.child? s = v.child? s) : Hides (Below steps S) v r where
  hidden p hp hv := by
    obtain ⟨hs, hp⟩ := hp
    rename_i s p
    have hrel := hin s hs
    rw [Json.Value.at?_cons] at hv ⊢
    cases hrel' : v.child? s with
    | none => simp [hrel'] at hv
    | some c =>
      rw [hrel'] at hrel hv
      cases hr : r.child? s with
      | none =>
        rw [hr] at hrel
        cases hrel
      | some d =>
        rw [hr] at hrel
        cases hrel with
        | some hcd => exact hcd.hidden p hp hv
  kept p hp := by
    cases p with
    | nil => exact congrArg some ho
    | cons s p =>
      rw [Json.Value.at?_cons, Json.Value.at?_cons]
      by_cases hs : steps s
      · have hrel := hin s hs
        cases hv : v.child? s with
        | none =>
          rw [hv] at hrel
          generalize r.child? s = d at hrel
          cases hrel
          rfl
        | some c =>
          rw [hv] at hrel
          generalize r.child? s = d at hrel
          cases hrel with
          | some hcd =>
            apply hcd.kept p
            intro q hq hc hqp
            apply hp (s :: q) (.step hs hq)
            · simpa [hv] using hc
            · exact List.cons_prefix_cons.2 ⟨rfl, hqp⟩
      · rw [hout s hs]

/-- Places of two kinds are hidden one kind after the other, if no place of one kind is below one of
the other. -/
theorem or (h : Hides S v x) (h' : Hides T x r) (hST : ∀ p q, S p → T q → ¬ p <+: q)
    (hTS : ∀ p q, S p → T q → ¬ q <+: p) : Hides (fun p ↦ S p ∨ T p) v r := by
  have hx (p : List Step) (hp : T p) : (x.at? p).isSome = (v.at? p).isSome :=
    h.isSome_eq fun q hq _ ↦ hST q p hq hp
  refine ⟨?_, ?_⟩
  · rintro p (hp | hp) hv
    · have hmark := h.hidden p hp hv
      have hkept := h'.kept p fun q hq _ ↦ hTS p q hp hq
      rw [hmark] at hkept
      cases hr : r.at? p with
      | none => simp [hr] at hkept
      | some d =>
        rw [hr] at hkept
        have hd : d.outline = .leaf mark := Option.some.inj hkept
        cases d with
        | arr => cases hd
        | obj => cases hd
        | _ => exact congrArg some (Json.Value.Outline.leaf.inj hd)
    · exact h'.hidden p hp ((hx p hp).trans hv)
  · intro p hp
    rw [h'.kept p, h.kept p]
    · intro q hq hv
      exact hp q (.inl hq) hv
    · intro q hq hv
      exact hp q (.inr hq) ((hx q hq).symm.trans hv)

end Hides

section Objects

variable {v w : Value} {key : String} {p : List Step}

theorem keys_redactMembers (ms : Members) : Table.keys (redactMembers ms) = Table.keys ms := by
  induction ms with
  | nil => rfl
  | cons m ms ih =>
    simp only [Table.keys] at ih
    simp only [redactMembers, Table.keys, List.map_cons, ih]

theorem get?_redactMembers (ms : Members) (key : String) :
    Table.get? (redactMembers ms) key =
      (Table.get? ms key).map fun v ↦ if isSensitive key then mark else redact v := by
  induction ms with
  | nil => rfl
  | cons m ms ih =>
    rw [redactMembers, Table.get?_cons, Table.get?_cons, ih]
    by_cases hkey : key = m.1
    · rw [if_pos hkey, if_pos hkey, hkey]
      rfl
    · rw [if_neg hkey, if_neg hkey]

theorem outline_redact (v : Value) : (redact v).outline = v.outline := by
  cases v with
  | obj ms => rw [redact, outline, outline, keys_redactMembers]
  | _ => rfl

/-- Only members of objects can be changed. -/
theorem child?_redact (v : Value) (s : Step) :
    (redact v).child? s = v.child? s ∨ ∃ key, s = .member key ∧
      (redact v).child? s =
        (v.child? s).map fun w ↦ if isSensitive key then mark else redact w := by
  cases v with
  | obj ms =>
    cases s with
    | member key =>
      refine .inr ⟨key, rfl, ?_⟩
      rw [redact]
      exact get?_redactMembers ms key
    | element i => exact .inl rfl
  | _ => exact .inl rfl

theorem at?_redact_of_secret (hp : Secret p) (hv : (v.at? p).isSome) :
    (redact v).at? p = some mark := by
  induction hp generalizing v with
  | @here key h =>
    have hs := isSensitive_iff.2 h
    cases v with
    | obj ms =>
      obtain ⟨w, hw⟩ := Option.isSome_iff_exists.1 hv
      have hget : Table.get? ms key = some w := by simpa [child?] using hw
      simp [redact, child?, get?_redactMembers, hget, hs]
    | _ => cases hv
  | @deeper key p h hp ih =>
    have hs : isSensitive key = false := Bool.eq_false_iff.2 (mt isSensitive_iff.1 h)
    cases v with
    | obj ms =>
      simp only [Json.Value.at?_cons, child?] at hv
      cases hget : Table.get? ms key with
      | none => simp [hget] at hv
      | some w =>
        rw [hget] at hv
        have hrest := ih hv
        simp [redact, child?, get?_redactMembers, hget, hs, hrest]
    | _ => cases hv

theorem outline_at?_redact
    (hp : ∀ q, Secret q → (v.at? q).isSome → ¬ q <+: p) :
    ((redact v).at? p).map outline = (v.at? p).map outline := by
  induction p generalizing v with
  | nil => exact congrArg some (outline_redact v)
  | cons s p ih =>
    rw [Json.Value.at?_cons, Json.Value.at?_cons]
    obtain hsame | ⟨key, rfl, hchild⟩ := child?_redact v s
    · rw [hsame]
    · rw [hchild]
      cases hc : v.child? (.member key) with
      | none => rfl
      | some w =>
        by_cases hs : Sensitive key
        · apply absurd (List.prefix_append [Step.member key] p)
          apply hp _ (.here hs)
          simp [hc]
        · rw [Option.map_some, if_neg (mt isSensitive_iff.1 hs)]
          apply ih
          intro q hq hw hqp
          apply hp _ (.deeper hs hq)
          · simpa [hc] using hw
          · exact List.cons_prefix_cons.2 ⟨rfl, hqp⟩

theorem hides_redact (v : Value) : Hides Secret v (redact v) :=
  ⟨fun _ hp hv ↦ at?_redact_of_secret hp hv, fun _ hp ↦ outline_at?_redact hp⟩

mutual

theorem redact_redact (v : Value) : redact (redact v) = redact v := by
  cases v with
  | obj ms => rw [redact, redact, redactMembers_redactMembers]
  | _ => rfl

theorem redactMembers_redactMembers : ∀ ms : Members,
    redactMembers (redactMembers ms) = redactMembers ms
  | [] => rfl
  | (key, v) :: ms => by
    rw [redactMembers, redactMembers, redactMembers_redactMembers ms]
    cases isSensitive key with
    | true => rfl
    | false => simp only [Bool.false_eq_true, if_false, redact_redact v]

end

end Objects

/-- A pass that finds no fault with values of a kind, hides their places of a kind, and does not
change the result any more. -/
def Redacts (P : Value → Prop) (S : List Step → Prop) (pass : Value → Pass) : Prop :=
  ∀ v, P v → ∃ r, pass v = (r, none) ∧ Hides S v r ∧ pass r = (r, none)

section Passes

variable {P P₁ P₂ : Value → Prop} {S S₁ S₂ : List Step → Prop} {key other : String}
  {pass first second : Value → Pass} {v : Value}

theorem redacts_redact : Redacts (fun _ ↦ True) Secret fun v ↦ (redact v, none) := by
  intro v _
  exact ⟨redact v, rfl, hides_redact v, congrArg (·, none) (redact_redact v)⟩

theorem redacts_overObject : Redacts IsObject Secret overObject := by
  rintro _ ⟨ms, rfl⟩
  refine ⟨.obj (redactMembers ms), rfl, ?_, ?_⟩
  · have h := hides_redact (.obj ms)
    rwa [redact] at h
  · rw [overObject, redactMembers_redactMembers]

theorem redacts_overMember (h : Redacts P S pass) :
    Redacts (MemberIs key P) (Below (· = .member key) S) (overMember key pass) := by
  intro v hv
  cases hv with
  | @absent ms hn =>
    refine ⟨.obj ms, overMember_of_get?_none hn, .self ?_, overMember_of_get?_none hn⟩
    rintro _ ⟨rfl, -⟩
    simp [child?, hn]
  | @present ms u hu hp =>
    obtain ⟨r, hr, hhides, hagain⟩ := h u hp
    have hself : Table.get? (Table.put key r ms) key = some r := Table.get?_put_self ms key r
    refine ⟨.obj (Table.put key r ms), overMember_of_get? hu hr, .below ?_ ?_ ?_, ?_⟩
    · rw [outline, outline, Table.keys_put hu]
    · rintro _ rfl
      rw [child?, child?, hu, hself]
      exact .some hhides
    · intro s hs
      cases s with
      | member k => exact Table.get?_put_of_ne (fun hk ↦ hs (congrArg Step.member hk)) ms r
      | element i => rfl
    · rw [overMember_of_get? hself hagain, Table.put_put]

theorem redacts_sweep (h : Redacts P S pass) {vs : List Value} (hvs : ∀ v ∈ vs, P v) :
    ∃ rs, sweep pass vs = (rs, none) ∧ List.Forall₂ (Hides S) vs rs ∧
      sweep pass rs = (rs, none) := by
  induction vs with
  | nil => exact ⟨[], rfl, .nil, rfl⟩
  | cons v vs ih =>
    obtain ⟨hv, hvs⟩ := List.forall_mem_cons.1 hvs
    obtain ⟨r, hr, hhides, hagain⟩ := h v hv
    obtain ⟨rs, hrs, hall, hagain'⟩ := ih hvs
    refine ⟨r :: rs, ?_, .cons hhides hall, ?_⟩
    · simp only [sweep, hr, hrs]
    · simp only [sweep, hagain, hagain']

theorem redacts_overElements (h : Redacts P S pass) :
    Redacts (ElementsAre P) (Below (fun s ↦ ∃ i, s = .element i) S) (overElements pass) := by
  rintro _ ⟨hvs⟩
  rename_i vs
  obtain ⟨rs, hrs, hall, hagain⟩ := redacts_sweep h hvs
  refine ⟨.arr rs, by simp only [overElements, hrs], .below ?_ ?_ ?_, ?_⟩
  · rw [outline, outline, hall.length_eq]
  · rintro _ ⟨i, rfl⟩
    rw [child?, child?]
    by_cases hi : i < vs.length
    · have hi' : i < rs.length := hall.length_eq ▸ hi
      rw [List.getElem?_eq_getElem hi, List.getElem?_eq_getElem hi']
      exact .some (hall.get hi hi')
    · rw [List.getElem?_eq_none (Nat.le_of_not_lt hi),
        List.getElem?_eq_none (hall.length_eq ▸ Nat.le_of_not_lt hi)]
      exact .none
  · intro s hs
    cases s with
    | member key => rfl
    | element i => exact absurd ⟨i, rfl⟩ hs
  · simp only [overElements, hagain]

theorem redacts_overStackTrace :
    Redacts IsStackTrace (Below (· = .member "frames") (Below (fun s ↦ ∃ i, s = .element i)
      (Below (· = .member "vars") Secret))) overStackTrace := by
  intro v hv
  obtain ⟨ms, rfl, hkind, heq⟩ | ⟨hne, heq⟩ := overStackTrace_cases hv
  · obtain ⟨r, hr, hhides, hagain⟩ :=
      redacts_overMember (redacts_overElements (redacts_overMember redacts_redact)) _ hkind
    obtain ⟨ms', hms'⟩ := overMember_object "frames" (overElements overFrame) ms
    obtain rfl : r = .obj ms' := (congrArg Prod.fst hr).symm.trans hms'
    exact ⟨.obj ms', heq.trans hr, hhides, (overStackTrace_object ms').trans hagain⟩
  · refine ⟨v, heq, .self ?_, heq⟩
    rintro _ ⟨rfl, -⟩
    cases v with
    | obj ms => exact absurd rfl (hne ms)
    | _ => rfl

theorem overMember_eq_self_iff {ms : Members} :
    overMember key pass (.obj ms) = (.obj ms, none) ↔
      ∀ u, Table.get? ms key = some u → pass u = (u, none) := by
  constructor
  · intro h u hu
    obtain ⟨hn, -⟩ | ⟨u', w, hu', hp, hms⟩ := overMember_cases h
    · rw [hn] at hu
      cases hu
    · obtain rfl : u' = u := Option.some.inj (hu'.symm.trans hu)
      have hw := Table.get?_put_self ms key w
      rw [← Value.obj.inj hms, hu, Option.some.injEq] at hw
      rw [hp, hw]
  · intro h
    cases hu : Table.get? ms key with
    | none => exact overMember_of_get?_none hu
    | some u => rw [overMember_of_get? hu (h u hu), Table.put_of_get? hu]

theorem redacts_andThen (hne : other ≠ key) (h₁ : Redacts P₁ S₁ first)
    (h₂ : Redacts P₂ S₂ second) :
    Redacts (fun v ↦ MemberIs key P₁ v ∧ MemberIs other P₂ v)
      (fun p ↦ Below (· = .member key) S₁ p ∨ Below (· = .member other) S₂ p)
      (andThen (overMember key first) (overMember other second)) := by
  rintro v ⟨hk, ho⟩
  obtain ⟨ms, rfl⟩ := hk.isObject
  obtain ⟨x, hx, hhides, hagain⟩ := redacts_overMember h₁ _ hk
  have hox : MemberIs other P₂ x := ho.of_overMember hne hx
  obtain ⟨r, hr, hhides', hagain'⟩ := redacts_overMember h₂ x hox
  obtain ⟨ms', rfl⟩ := hox.isObject
  -- The second pass leaves the member alone that the first one has dealt with.
  have hfirst : overMember key first r = (r, none) := by
    obtain ⟨-, rfl⟩ | ⟨u, w, -, -, rfl⟩ := overMember_cases hr
    · exact hagain
    · rw [overMember_eq_self_iff, Table.get?_put_of_ne hne.symm]
      exact overMember_eq_self_iff.1 hagain
  refine ⟨r, ?_, hhides.or hhides' ?_ ?_, ?_⟩
  · simp only [andThen, hx, hr]
  · rintro _ _ ⟨rfl, -⟩ ⟨rfl, -⟩ hpq
    exact hne (Step.member.inj (List.cons_prefix_cons.1 hpq).1).symm
  · rintro _ _ ⟨rfl, -⟩ ⟨rfl, -⟩ hpq
    exact hne (Step.member.inj (List.cons_prefix_cons.1 hpq).1)
  · simp only [andThen, hfirst, hagain']

end Passes

/-- Places in the extra data of a report or in the local variables of a frame, of a kind there. -/
inductive ReportPlace (S : List Step → Prop) : List Step → Prop
  | extra {p : List Step} (hp : S p) : ReportPlace S (.member "extra" :: p)
  | frame (i j : Nat) {p : List Step} (hp : S p) :
      ReportPlace S (.member "exception" :: .member "values" :: .element i ::
        .member "stacktrace" :: .member "frames" :: .element j :: .member "vars" :: p)

theorem redacts_scrub : Redacts IsReport (ReportPlace Secret) scrub := by
  have htraces : Redacts (MemberIs "stacktrace" _) _ (overMember "stacktrace" _) :=
    redacts_overMember redacts_overStackTrace
  have hvalues : Redacts (MemberIs "values" _) _ (overMember "values" _) :=
    redacts_overMember (redacts_overElements htraces)
  have hscrub := redacts_andThen (by decide : "exception" ≠ "extra") redacts_overObject hvalues
  intro e he
  obtain ⟨r, hr, hhides, hagain⟩ := hscrub e ⟨he.extra, he.exception⟩
  refine ⟨r, hr, hhides.congr ?_, hagain⟩
  intro p
  constructor
  · rintro (⟨rfl, hp⟩ | ⟨rfl, rfl, ⟨i, rfl⟩, rfl, rfl, ⟨j, rfl⟩, rfl, hp⟩)
    · exact .extra hp
    · exact .frame i j hp
  · rintro (hp | ⟨i, j, hp⟩)
    · exact .inl ⟨rfl, hp⟩
    · exact .inr ⟨rfl, rfl, ⟨i, rfl⟩, rfl, rfl, ⟨j, rfl⟩, rfl, hp⟩

/-- A place of a report that is neither that of a secret nor below one. -/
def Open (e : Value) (p : List Step) : Prop :=
  ∀ q, ReportPlace Secret q → (e.at? q).isSome → ¬ q <+: p

/-- An open place with no secret below it. -/
def Clear (e : Value) (p : List Step) : Prop :=
  ∀ q, ReportPlace Secret q → (e.at? q).isSome → ¬ q <+: p ∧ ¬ p <+: q

section Places

variable {e r v : Value} {p q : List Step}

theorem Secret.exists_key (h : Secret q) {s : Step} (hs : s ∈ q) : ∃ key, s = .member key := by
  induction h with
  | here h => exact ⟨_, List.mem_singleton.1 hs⟩
  | deeper h hp ih =>
    obtain rfl | hs := List.mem_cons.1 hs
    · exact ⟨_, rfl⟩
    · exact ih hs

/-- From a place in the extra data or in local variables members alone lead to a secret. -/
theorem exists_members (hp : ReportPlace (fun _ ↦ True) p) (hq : ReportPlace Secret q)
    (hpq : p <+: q) : ∃ t, q = p ++ t ∧ ∀ s ∈ t, ∃ key, s = .member key := by
  obtain ⟨t, rfl⟩ := hpq
  refine ⟨t, rfl, ?_⟩
  intro s hs
  generalize heq : p ++ t = q at hq
  cases hp with
  | @extra p =>
    cases hq with
    | extra hq =>
      obtain rfl : p ++ t = _ := (List.cons.inj heq).2
      exact hq.exists_key (List.mem_append_right _ hs)
    | frame => simp at heq
  | @frame i j p =>
    cases hq with
    | extra => simp at heq
    | @frame i' j' p' hq =>
      simp only [List.cons_append, List.cons.injEq] at heq
      obtain ⟨-, -, -, -, -, -, -, rfl⟩ := heq
      exact hq.exists_key (List.mem_append_right _ hs)

/-- What is no object holds no secret. -/
theorem clear_of_ne_object (hp : ReportPlace (fun _ ↦ True) p) (ho : Open e p)
    (hv : e.at? p = some v) (hne : ∀ ms, v ≠ .obj ms) : Clear e p := by
  intro q hq hsome
  refine ⟨ho q hq hsome, ?_⟩
  intro hpq
  obtain ⟨t, rfl, ht⟩ := exists_members hp hq hpq
  cases t with
  | nil =>
    rw [List.append_nil] at hq hsome
    exact ho p hq hsome List.prefix_rfl
  | cons s t =>
    obtain ⟨key, rfl⟩ := ht s List.mem_cons_self
    rw [Json.Value.at?_append, hv, Option.bind_some, Json.Value.at?_cons] at hsome
    cases v with
    | obj ms => exact hne ms rfl
    | _ => cases hsome

theorem Hides.eq_of_clear (h : Hides (ReportPlace Secret) e r) (hd : e.Distinct)
    (hp : Clear e p) : r.at? p = e.at? p := by
  have hopen : Open e p := fun q hq hsome ↦ (hp q hq hsome).1
  have hsome := h.isSome_eq hopen
  cases hv : e.at? p with
  | none =>
    rw [hv] at hsome
    exact Option.not_isSome_iff_eq_none.1 (by simp [hsome])
  | some v =>
    rw [hv] at hsome
    obtain ⟨w, hw⟩ := Option.isSome_iff_exists.1 hsome
    rw [hw, Option.some.injEq]
    apply (hd.at hv).eq_of_outline
    intro t
    have hkept := h.kept (p ++ t)
    rw [Json.Value.at?_append, Json.Value.at?_append, hw, hv] at hkept
    apply hkept
    intro q hq hqsome hqp
    obtain hqp | hpq := List.prefix_or_prefix_of_prefix hqp (List.prefix_append p t)
    · exact (hp q hq hqsome).1 hqp
    · exact (hp q hq hqsome).2 hpq

end Places

/-- The pass over a report comes to its end. Every secret that the report has is replaced by the
mark; every open place shows what it showed before, an object its keys in their order; in the extra
data and in local variables what is no object is the same, and so is all that has no secret in it,
anywhere. A second pass changes nothing. -/
theorem secrets_replaced (he : IsReport e) (hd : e.Distinct) :
    ∃ r, scrub e = (r, none) ∧
      (∀ p, ReportPlace Secret p → (e.at? p).isSome → r.at? p = some mark) ∧
      (∀ p, Open e p → (r.at? p).map outline = (e.at? p).map outline) ∧
      (∀ p v, ReportPlace (fun _ ↦ True) p → Open e p → e.at? p = some v →
        (∀ ms, v ≠ .obj ms) → r.at? p = some v) ∧
      (∀ p, Clear e p → r.at? p = e.at? p) ∧
      scrub r = (r, none) := by
  obtain ⟨r, hr, hhides, hagain⟩ := redacts_scrub e he
  refine ⟨r, hr, hhides.hidden, hhides.kept, ?_, ?_, hagain⟩
  · intro p v hp ho hv hne
    rw [hhides.eq_of_clear hd (clear_of_ne_object hp ho hv hne), hv]
  · intro p hp
    exact hhides.eq_of_clear hd hp

theorem distinct_crashReport (secret : String) : (Sample.crashReport secret).Distinct := by
  have hone (key : String) {v : Value} (hv : v.Distinct) : (Value.obj [(key, v)]).Distinct := by
    refine .obj (by simp [Table.keys]) fun m hm ↦ ?_
    obtain rfl := List.mem_singleton.1 hm
    exact hv
  have hitem {v : Value} (hv : v.Distinct) : (Value.arr [v]).Distinct := by
    refine .arr fun w hw ↦ ?_
    obtain rfl := List.mem_singleton.1 hw
    exact hv
  have hsecret : (Value.str secret).Distinct := .leaf rfl
  have hvars := hone "vars" (hone "config" (hone "dsn" hsecret))
  have hvalues := hitem (hone "stacktrace" (hone "frames" (hitem hvars)))
  refine .obj (show ["extra", "exception"].Nodup by decide) fun m hm ↦ ?_
  simp only [List.mem_cons, List.not_mem_nil, or_false] at hm
  rcases hm with rfl | rfl
  · refine .obj (show ["attempt", "App_Token"].Nodup by decide) fun m hm ↦ ?_
    simp only [List.mem_cons, List.not_mem_nil, or_false] at hm
    rcases hm with rfl | rfl
    · exact .leaf rfl
    · exact hsecret
  · exact hone "values" hvalues

/-- The places of the two secrets in the sample, and one beside them. -/
theorem secrets_replaced_crash :
    IsReport (Sample.crashReport "ghs_a") ∧ (Sample.crashReport "ghs_a").Distinct ∧
      ∃ r, scrub (Sample.crashReport "ghs_a") = (r, none) ∧
        r.at? [.member "extra", .member "App_Token"] = some mark ∧
        r.at? [.member "exception", .member "values", .element 0, .member "stacktrace",
          .member "frames", .element 0, .member "vars", .member "config", .member "dsn"] =
            some mark ∧
        r.at? [.member "extra", .member "attempt"] = some (.int 2) ∧ scrub r = (r, none) := by
  have he := isReport_crashReport "ghs_a"
  have hd := distinct_crashReport "ghs_a"
  have htoken : Sensitive "App_Token" := isSensitive_iff.1 (by decide)
  have hdsn : Sensitive "dsn" := isSensitive_iff.1 (by decide)
  have hconfig : ¬ Sensitive "config" := mt isSensitive_iff.2 (by decide)
  have hattempt : ¬ Sensitive "attempt" := mt isSensitive_iff.2 (by decide)
  have hopen : Open (Sample.crashReport "ghs_a") [.member "extra", .member "attempt"] := by
    rintro _ (hq | ⟨i, j, hq⟩) - hpq
    · have hpq := (List.cons_prefix_cons.1 hpq).2
      cases hq with
      | here h =>
        obtain rfl := Step.member.inj (List.cons_prefix_cons.1 hpq).1
        exact hattempt h
      | deeper h hq =>
        obtain rfl := List.prefix_nil.1 (List.cons_prefix_cons.1 hpq).2
        cases hq
    · exact absurd (Step.member.inj (List.cons_prefix_cons.1 hpq).1) (by decide)
  obtain ⟨r, hr, hhidden, -, hplain, -, hagain⟩ := secrets_replaced he hd
  refine ⟨he, hd, r, hr, ?_, ?_, ?_, hagain⟩
  · exact hhidden _ (.extra (.here htoken)) rfl
  · exact hhidden _ (.frame 0 0 (.deeper hconfig (.here hdsn))) rfl
  · exact hplain _ _ (.extra trivial) hopen rfl (by simp)

end Redaction
end StatusRelay
