import StatusRelay.Proofs.Installation.ListingBody
import StatusRelay.Proofs.Task.Reading

namespace StatusRelay

open Json (Value)

/-- The failures outside the family: neither one of its own, nor the network's, nor a
cancellation. -/
def Failure.IsForeign : Failure → Prop
  | invalid _ _ | shape _ | bodyUnread _ | unwritten _ | timeOutOfRange | signerBroken
  | appNotConfigured | keyParse .unsupported | keyParse .wrongSize => True
  | _ => False

namespace Reading

def HasAddress (v : Value) : Prop :=
  ∃ ms url, v = .obj ms ∧ Table.get? ms "html_url" = some url

/-- A value that can be gone through for addresses. Of texts and objects only the empty ones
can. -/
def ListsAddresses (v : Value) : Prop :=
  v = .str "" ∨ v = .obj [] ∨ ∃ vs, v = .arr vs ∧ ∀ v ∈ vs, HasAddress v

/-- The values that a reading has a use for. -/
def Suits (r : Reading) (v : Value) : Prop :=
  match r with
  | token _ | created _ => ∃ ms, v = .obj ms
  | addresses =>
    ∃ ms, v = .obj ms ∧ ∀ w, Table.get? ms "repositories" = some w → ListsAddresses w
  | checkRuns => ∃ l, CheckRun.Listing.decode v = .ok l
  | raw | response | value | installations _ => True

/-- The bodies that a reading can deal with in a success. A listing of installations has an error of
the family's for nearly all others. -/
def Accepts (r : Reading) (b : Body) : Prop :=
  match r, b with
  | raw, _ | response, _ => True
  | installations _, b => ∀ fault, ¬ b.Escapes fault
  | r, .json v => r.Suits v
  | _, .unread _ _ => False

/-- The bodies that a reading can deal with in a rejection. -/
def Reports (r : Reading) (b : Body) : Prop :=
  match r with
  | raw | installations _ => True
  | _ => ∀ fault, ¬ b.Escapes fault

/-- The responses that a reading can deal with. -/
def Admits (r : Reading) (resp : Response) : Prop :=
  if resp.isRejection then r.Reports resp.body else r.Accepts resp.body

variable {α β : Type} {P Q : Prop}

/-- A check that a value has the structure it needs, and that fails from outside the family if it
has not. -/
structure Tests (P : Prop) (e : Except Failure α) : Prop where
  ok_iff : (∃ a, e = .ok a) ↔ P
  foreign : ∀ f, e = .error f → f.IsForeign

/-- The same for one that may find more to complain about, and does so within the family. -/
structure Judges (P : Prop) (e : Except Failure α) : Prop where
  foreign_iff : (∃ f, e = .error f ∧ f.IsForeign) ↔ ¬ P
  cases : ∀ f, e = .error f → f.IsForeign ∨ ∃ fault, f = .protocol fault

theorem tests_ok (h : P) (a : α) : Tests P (.ok a : Except Failure α) :=
  ⟨⟨fun _ ↦ h, fun _ ↦ ⟨a, rfl⟩⟩, fun _ hf ↦ (by cases hf)⟩

theorem tests_error (h : ¬ P) {f : Failure} (hf : f.IsForeign) :
    Tests P (.error f : Except Failure α) := by
  refine ⟨⟨fun ⟨_, ha⟩ ↦ (by cases ha), fun hp ↦ absurd hp h⟩, ?_⟩
  intro f' hf'
  cases hf'
  exact hf

theorem Tests.bind {x : Except Failure α} {k : α → Except Failure β} (hx : Tests P x)
    (hk : ∀ a, Tests Q (k a)) : Tests (P ∧ Q) (x >>= k) := by
  cases x with
  | error f =>
    have hp : ¬ P := fun hp ↦ by
      obtain ⟨a, ha⟩ := hx.ok_iff.2 hp
      cases ha
    exact tests_error (fun h ↦ hp h.1) (hx.foreign f rfl)
  | ok a =>
    have hp : P := hx.ok_iff.1 ⟨a, rfl⟩
    refine ⟨?_, (hk a).foreign⟩
    rw [and_iff_right hp]
    exact (hk a).ok_iff

theorem Tests.congr {e : Except Failure α} (h : Tests P e) (hpq : P ↔ Q) : Tests Q e :=
  ⟨h.ok_iff.trans hpq, h.foreign⟩

theorem Tests.judges {e : Except Failure α} (h : Tests P e) : Judges P (discard e) := by
  cases e with
  | ok a =>
    refine ⟨⟨fun ⟨f, hf, _⟩ ↦ (by cases hf), fun hp ↦ absurd (h.ok_iff.1 ⟨a, rfl⟩) hp⟩, ?_⟩
    intro f hf
    cases hf
  | error f =>
    have hp : ¬ P := fun hp ↦ by
      obtain ⟨a, ha⟩ := h.ok_iff.2 hp
      cases ha
    refine ⟨⟨fun _ ↦ hp, fun _ ↦ ⟨f, rfl, h.foreign f rfl⟩⟩, ?_⟩
    intro f' hf
    cases hf
    exact .inl (h.foreign f rfl)

theorem judges_ok (h : P) (a : α) : Judges P (discard (.ok a)) := (tests_ok h a).judges

theorem judges_error (h : ¬ P) {f : Failure} (hf : f.IsForeign) :
    Judges P (discard (.error f : Except Failure α)) := (tests_error h hf).judges

theorem judges_protocol (h : P) (fault : ProtocolFault) :
    Judges P (discard (.error (.protocol fault) : Except Failure α)) := by
  refine ⟨⟨?_, fun hp ↦ absurd h hp⟩, ?_⟩
  · rintro ⟨f, hf, hforeign⟩
    cases hf
    exact hforeign.elim
  · intro f hf
    cases hf
    exact .inr ⟨fault, rfl⟩

theorem tests_address (v : Value) : Tests (HasAddress v) (RepositoryScan.address v) := by
  cases v with
  | obj ms =>
    cases hu : Table.get? ms "html_url" with
    | some url =>
      simp only [RepositoryScan.address, hu]
      exact tests_ok ⟨ms, url, rfl, hu⟩ url
    | none =>
      simp only [RepositoryScan.address, hu]
      refine tests_error ?_ trivial
      rintro ⟨ms', url, hv, hu'⟩
      cases hv
      rw [hu] at hu'
      cases hu'
  | _ => exact tests_error (by simp [HasAddress]) trivial

theorem tests_addresses (vs : List Value) :
    Tests (∀ v ∈ vs, HasAddress v) (RepositoryScan.addresses vs) := by
  induction vs with
  | nil => exact tests_ok (by simp) []
  | cons v vs ih =>
    have hrest (url : Value) := ih.bind fun urls ↦ tests_ok trivial (url :: urls)
    exact ((tests_address v).bind hrest).congr (by simp)

theorem tests_elements {w : Value} {k : List Value → Except Failure α}
    (hk : ∀ vs, Tests (∀ v ∈ vs, HasAddress v) (k vs)) :
    Tests (ListsAddresses w) (RepositoryScan.elements w >>= k) := by
  cases w with
  | arr vs =>
    refine (hk vs).congr ⟨fun h ↦ .inr (.inr ⟨vs, rfl, h⟩), ?_⟩
    rintro (h | h | ⟨vs', h, hall⟩) <;> cases h
    exact hall
  | str text =>
    by_cases ht : text = ""
    · subst ht
      exact (hk []).congr ⟨fun _ ↦ .inl rfl, fun _ ↦ by simp⟩
    · have he : RepositoryScan.elements (.str text) = .error (.shape .notContainer) := by
        simp only [RepositoryScan.elements, beq_iff_eq, ht, if_false]
      rw [he]
      exact tests_error (by simp [ListsAddresses, ht]) trivial
  | obj ms =>
    cases ms with
    | nil => exact (hk []).congr ⟨fun _ ↦ .inr (.inl rfl), fun _ ↦ by simp⟩
    | cons m ms => exact tests_error (by simp [ListsAddresses]) trivial
  | _ => exact tests_error (by simp [ListsAddresses]) trivial

theorem judges_ofValue (r : Reading) (v : Value) : Judges (r.Suits v) (r.ofValue v) := by
  cases r with
  | raw | response | value | installations => exact judges_ok trivial ()
  | token id =>
    cases v with
    | obj ms =>
      have hs : Suits (.token id) (.obj ms) := ⟨ms, rfl⟩
      cases ht : Table.get? ms "token" with
      | none =>
        simp only [ofValue, TokenExchange.tokenOf, ht]
        exact judges_protocol hs _
      | some token =>
        simp only [ofValue, TokenExchange.tokenOf, ht]
        split
        · exact judges_ok hs token
        · exact judges_protocol hs _
    | _ => exact judges_error (by simp [Suits]) trivial
  | created run =>
    cases v with
    | obj ms =>
      have hs : Suits (.created run) (.obj ms) := ⟨ms, rfl⟩
      simp only [ofValue, CheckRun.Creation.idOf]
      split
      · exact judges_protocol hs _
      · exact judges_ok hs _
      · exact judges_protocol hs _
    | _ => exact judges_error (by simp [Suits]) trivial
  | checkRuns =>
    simp only [ofValue, CheckRun.Listing.ofBody]
    split
    · rename_i l h
      exact judges_ok ⟨l, h⟩ l
    · rename_i issues h
      exact judges_error (by simp [Suits, h]) trivial
  | addresses =>
    refine Tests.judges ?_
    cases v with
    | obj ms =>
      cases hw : Table.get? ms "repositories" with
      | none =>
        simp only [RepositoryScan.entries, hw]
        exact tests_ok ⟨ms, rfl, by simp [hw]⟩ []
      | some w =>
        simp only [RepositoryScan.entries, hw]
        refine (tests_elements tests_addresses).congr ⟨fun h ↦ ⟨ms, rfl, by simp [hw, h]⟩, ?_⟩
        rintro ⟨ms', hv, h⟩
        cases hv
        exact h w hw
    | _ => exact tests_error (by simp [Suits]) trivial

theorem judges_ofBody (r : Reading) (b : Body) : Judges (r.Accepts b) (r.ofBody b) := by
  have hvalue := judges_ofValue r
  cases r with
  | raw | response => exact judges_ok trivial ()
  | installations url =>
    cases b with
    | unread fault text =>
      cases hf : fault.isCaught with
      | true =>
        rw [ofBody, Installation.ofBody, hf, if_pos rfl]
        refine judges_protocol (fun fault' h ↦ ?_) _
        exact absurd (hf.symm.trans (Body.escapes_unread_iff.1 h).2) (by decide)
      | false =>
        rw [ofBody, Installation.ofBody, hf, if_neg Bool.false_ne_true]
        exact judges_error (fun h ↦ h fault ⟨text, rfl, hf⟩) trivial
    | json v =>
      have hv : Accepts (.installations url) (.json v) := Body.not_escapes_json v
      simp only [ofBody, Installation.ofBody]
      split
      · rename_i es _
        obtain ⟨is, his⟩ | ⟨herror, -⟩ := Installation.ofEntries_cases es
        · rw [his]
          exact judges_ok hv is
        · rw [herror]
          exact judges_protocol hv _
      · exact judges_protocol hv _
  | value | token | addresses | checkRuns | created =>
    cases b with
    | json v => exact hvalue v
    | unread fault text => exact judges_error (α := Unit) id trivial

/-- A rejection leaves the family if its reason is asked for and cannot be read. -/
theorem isForeign_rejection_iff {r : Reading} (hc : r.isChecked = true) (req : Request)
    (resp : Response) : (r.rejection req resp).IsForeign ↔ ¬ r.Reports resp.body := by
  cases r with
  | raw => cases hc
  | installations url => exact iff_of_false id (not_not_intro trivial)
  | response | value | token | addresses | checkRuns | created =>
    rw [rejection_of_ne (fun _ h ↦ by cases h)]
    by_cases hb : ∃ fault, resp.body.Escapes fault
    · obtain ⟨fault, hfault⟩ := hb
      rw [Response.rejection_of_escapes hfault]
      exact iff_of_true trivial fun h ↦ h fault hfault
    · obtain ⟨detail, hdetail⟩ := Response.exists_reason (not_exists.1 hb)
      rw [Response.rejection_eq hdetail]
      exact iff_of_false id (not_not_intro (not_exists.1 hb))

/-- A response leads out of the family just if it cannot be dealt with. -/
theorem exists_isForeign_read_iff {r : Reading} {req : Request} {resp : Response} :
    (∃ f, r.read req (.answered resp) = .error f ∧ f.IsForeign) ↔ ¬ r.Admits resp := by
  cases hr : resp.isRejection with
  | false =>
    rw [read, Admits, hr, Bool.and_false, if_neg Bool.false_ne_true, if_neg Bool.false_ne_true]
    exact (judges_ofBody r resp.body).foreign_iff
  | true =>
    rw [read, Admits, hr, Bool.and_true, if_pos rfl]
    cases hc : r.isChecked with
    | false =>
      cases r with
      | raw => exact iff_of_false (by rintro ⟨f, hf, -⟩; cases hf) (not_not_intro trivial)
      | _ => cases hc
    | true =>
      rw [if_pos rfl, ← isForeign_rejection_iff hc req]
      constructor
      · rintro ⟨f, hf, hforeign⟩
        obtain rfl := Except.error.inj hf
        exact hforeign
      · intro hforeign
        exact ⟨_, rfl, hforeign⟩

end Reading
end StatusRelay
