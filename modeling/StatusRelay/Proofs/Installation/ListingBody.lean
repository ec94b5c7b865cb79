import StatusRelay.Proofs.GitHub.Body
import StatusRelay.Proofs.Installation.QueryRun
import StatusRelay.Proofs.Payload.Fieldwise

namespace StatusRelay

open Json (Value Members)
open Payload (Checked)

namespace Installation

/-- The login that an element shows is that of its account, and empty for none. -/
def ShowsLogin (ms : Members) (login : String) : Prop :=
  match Table.get? ms "account" with
  | some (.obj account) =>
    match Table.get? account "login" with
    | some v => v = .str login
    | none => login = ""
  | some v => v = .null ∧ login = ""
  | none => login = ""

def IsShownBy (i : Installation) (v : Value) : Prop :=
  ∃ ms id, v = .obj ms ∧ Table.get? ms "id" = some id ∧ Payload.Scalar.whole id = .ok i.id ∧
    ShowsLogin ms i.account

/-- An element without fault, although its number may be null or absent. -/
def IsElement (v : Value) : Prop :=
  ∃ ms login, v = .obj ms ∧ ShowsLogin ms login ∧
    ∀ id, Table.get? ms "id" = some id → id = .null ∨ ∃ n, Payload.Scalar.whole id = .ok n

def LacksId (v : Value) : Prop :=
  ∃ ms, v = .obj ms ∧ (Table.get? ms "id" = none ∨ Table.get? ms "id" = some .null)

section Element

variable {ms : Members} {login : String} {v : Value} {e : Entry} {i : Installation}

def readId (ms : Members) : Checked (Option Int) :=
  Checked.member ms "id" (Checked.nullable fun v ↦ .ofExcept (Payload.Scalar.whole v)) (.ok none)

def readAccount (ms : Members) : Checked (Option String) :=
  Checked.member ms "account" (Checked.nullable decodeAccount) (.ok none)

theorem decode_eq_ok : Entry.decode v = .ok e ↔
    ∃ ms, v = .obj ms ∧ readId ms = .ok e.id ∧ readAccount ms = .ok e.account := by
  cases v with
  | obj ms =>
    simp only [Entry.decode, Checked.map_eq_ok, Checked.both_eq_ok]
    constructor
    · rintro ⟨p, ⟨hid, haccount⟩, rfl⟩
      exact ⟨ms, rfl, hid, haccount⟩
    · rintro ⟨_, hms, hid, haccount⟩
      cases hms
      exact ⟨(e.id, e.account), ⟨hid, haccount⟩, rfl⟩
  | _ => simp [Entry.decode, Checked.fail]

theorem decodeAccount_eq_ok : decodeAccount v = .ok login ↔
    ∃ account, v = .obj account ∧
      match Table.get? account "login" with
      | some w => w = .str login
      | none => login = "" := by
  cases v with
  | obj account =>
    simp only [decodeAccount, Value.obj.injEq, exists_eq_left']
    cases hl : Table.get? account "login" with
    | none => simp [Checked.member_eq_ok_of_absent hl, eq_comm]
    | some w =>
      rw [Checked.member_eq_ok hl, Checked.ofExcept_eq_ok]
      cases w <;> simp [Payload.Scalar.text]
  | _ => simp [decodeAccount, Checked.fail]

theorem showsLogin_iff : ShowsLogin ms login ↔
    ∃ account, readAccount ms = .ok account ∧ account.getD "" = login := by
  unfold ShowsLogin readAccount
  cases ha : Table.get? ms "account" with
  | none => simp [Checked.member_eq_ok_of_absent ha, eq_comm]
  | some v =>
    simp only [Checked.member_eq_ok ha, Checked.nullable_eq_ok, decodeAccount_eq_ok]
    cases v <;> simp [eq_comm]

theorem readId_eq_some {n : Int} : readId ms = .ok (some n) ↔
    ∃ id, Table.get? ms "id" = some id ∧ Payload.Scalar.whole id = .ok n := by
  unfold readId
  cases hid : Table.get? ms "id" with
  | none => simp [Checked.member_eq_ok_of_absent hid]
  | some id =>
    simp only [Checked.member_eq_ok hid, Checked.nullable_eq_ok, Checked.ofExcept_eq_ok]
    cases id <;> simp [Payload.Scalar.whole]

theorem readId_eq_none : readId ms = .ok none ↔
    Table.get? ms "id" = none ∨ Table.get? ms "id" = some .null := by
  unfold readId
  cases hid : Table.get? ms "id" with
  | none => simp [Checked.member_eq_ok_of_absent hid]
  | some id => simp [Checked.member_eq_ok hid, Checked.nullable_eq_ok]

theorem ofEntry_eq_ok : ofEntry e = .ok i ↔ e.id = some i.id ∧ e.account.getD "" = i.account := by
  obtain ⟨id, account⟩ := e
  obtain ⟨n, login⟩ := i
  cases id <;> simp [ofEntry]

theorem isShownBy_iff : i.IsShownBy v ↔ ∃ e, Entry.decode v = .ok e ∧ ofEntry e = .ok i := by
  constructor
  · rintro ⟨ms, id, rfl, hid, hn, hlogin⟩
    obtain ⟨account, haccount, hl⟩ := showsLogin_iff.1 hlogin
    have hread : readId ms = .ok (some i.id) := readId_eq_some.2 ⟨id, hid, hn⟩
    exact ⟨⟨some i.id, account⟩, decode_eq_ok.2 ⟨ms, rfl, hread, haccount⟩,
      ofEntry_eq_ok.2 ⟨rfl, hl⟩⟩
  · rintro ⟨e, hd, he⟩
    obtain ⟨ms, rfl, hread, haccount⟩ := decode_eq_ok.1 hd
    obtain ⟨hsome, hl⟩ := ofEntry_eq_ok.1 he
    rw [hsome] at hread
    obtain ⟨id, hid, hn⟩ := readId_eq_some.1 hread
    exact ⟨ms, id, rfl, hid, hn, showsLogin_iff.2 ⟨_, haccount, hl⟩⟩

theorem isElement_iff : IsElement v ↔ ∃ e, Entry.decode v = .ok e := by
  constructor
  · rintro ⟨ms, login, rfl, hlogin, hid⟩
    obtain ⟨account, haccount, -⟩ := showsLogin_iff.1 hlogin
    obtain ⟨number, hread⟩ : ∃ number, readId ms = .ok number := by
      cases hg : Table.get? ms "id" with
      | none => exact ⟨none, readId_eq_none.2 (.inl hg)⟩
      | some id =>
        obtain rfl | ⟨n, hn⟩ := hid id hg
        · exact ⟨none, readId_eq_none.2 (.inr hg)⟩
        · exact ⟨some n, readId_eq_some.2 ⟨id, hg, hn⟩⟩
    exact ⟨⟨number, account⟩, decode_eq_ok.2 ⟨ms, rfl, hread, haccount⟩⟩
  · rintro ⟨⟨number, account⟩, hd⟩
    obtain ⟨ms, rfl, hread, haccount⟩ := decode_eq_ok.1 hd
    refine ⟨ms, account.getD "", rfl, showsLogin_iff.2 ⟨account, haccount, rfl⟩, ?_⟩
    intro id hid
    cases number with
    | none =>
      obtain hg | hg := readId_eq_none.1 hread
      · rw [hg] at hid
        cases hid
      · rw [hg] at hid
        exact .inl (Option.some.inj hid).symm
    | some n =>
      obtain ⟨id', hg, hn⟩ := readId_eq_some.1 hread
      rw [hg] at hid
      obtain rfl := Option.some.inj hid
      exact .inr ⟨n, hn⟩

theorem lacksId_iff (h : Entry.decode v = .ok e) : LacksId v ↔ e.id = none := by
  obtain ⟨ms, rfl, hread, -⟩ := decode_eq_ok.1 h
  simp only [LacksId, Value.obj.injEq, exists_eq_left', ← readId_eq_none, hread, Except.ok.injEq]

end Element

section Entries

variable {e : Entry} {es : List Entry} {is : List Installation} {vs : List Value}

theorem ofEntries_cons_eq_ok : ofEntries (e :: es) = .ok is ↔
    ∃ i is', ofEntry e = .ok i ∧ ofEntries es = .ok is' ∧ is = i :: is' := by
  rw [ofEntries]
  cases ofEntry e with
  | error f => simp [bind, Except.bind]
  | ok i => cases ofEntries es <;> simp [bind, Except.bind, pure, Except.pure, eq_comm]

/-- A listing fails only for want of a number. -/
theorem ofEntries_cases (es : List Entry) :
    (∃ is, ofEntries es = .ok is) ∨
      ofEntries es = .error (.protocol .installationWithoutId) ∧ ∃ e ∈ es, e.id = none := by
  induction es with
  | nil => exact .inl ⟨[], rfl⟩
  | cons e es ih =>
    cases hid : e.id with
    | none =>
      refine .inr ⟨?_, e, List.mem_cons_self, hid⟩
      simp only [ofEntries, ofEntry, hid]
      rfl
    | some id =>
      have he : ofEntry e = .ok ⟨id, e.account.getD ""⟩ := ofEntry_eq_ok.2 ⟨hid, rfl⟩
      obtain ⟨is, his⟩ | ⟨herror, e', hmem, hnone⟩ := ih
      · exact .inl ⟨_, ofEntries_cons_eq_ok.2 ⟨_, is, he, his, rfl⟩⟩
      · refine .inr ⟨?_, e', List.mem_cons_of_mem e hmem, hnone⟩
        simp only [ofEntries, he, herror]
        rfl

theorem exists_entries_iff : (∃ es, List.Forall₂ (fun v e ↦ Entry.decode v = .ok e) vs es ∧
    ofEntries es = .ok is) ↔ List.Forall₂ (fun v i ↦ i.IsShownBy v) vs is := by
  -- All elements are decoded before the first number is looked at. Here the two go element by
  -- element, which comes to the same only because neither depends on the other elements.
  induction vs generalizing is with
  | nil =>
    simp only [List.forall₂_nil_left_iff, exists_eq_left, ofEntries, Except.ok.injEq]
    exact eq_comm
  | cons v vs ih =>
    simp only [List.forall₂_cons_left_iff, ← ih]
    simp only [isShownBy_iff]
    constructor
    · rintro ⟨_, ⟨e, es, he, hes, rfl⟩, his⟩
      obtain ⟨i, is', hi, his', rfl⟩ := ofEntries_cons_eq_ok.1 his
      exact ⟨i, is', ⟨e, he, hi⟩, ⟨es, hes, his'⟩, rfl⟩
    · rintro ⟨i, is', ⟨e, he, hi⟩, ⟨es, hes, his'⟩, rfl⟩
      exact ⟨e :: es, ⟨e, es, he, hes, rfl⟩, ofEntries_cons_eq_ok.2 ⟨i, is', hi, his', rfl⟩⟩

theorem exists_decoded_iff : (∃ es, List.Forall₂ (fun v e ↦ Entry.decode v = .ok e) vs es) ↔
    ∀ v ∈ vs, IsElement v := by
  induction vs with
  | nil => simp
  | cons v vs ih =>
    simp only [List.forall₂_cons_left_iff, List.forall_mem_cons, ← ih]
    simp only [isElement_iff]
    constructor
    · rintro ⟨_, e, es, he, hes, rfl⟩
      exact ⟨⟨e, he⟩, es, hes⟩
    · rintro ⟨⟨e, he⟩, es, hes⟩
      exact ⟨e :: es, e, es, he, hes, rfl⟩

theorem exists_lacksId_iff (h : List.Forall₂ (fun v e ↦ Entry.decode v = .ok e) vs es) :
    (∃ v ∈ vs, LacksId v) ↔ ∃ e ∈ es, e.id = none := by
  induction h with
  | nil => simp
  | cons he _ ih => simp only [List.exists_mem_cons_iff, lacksId_iff he, ih]

end Entries
end Installation

namespace Body

def Lists (b : Body) (is : List Installation) : Prop :=
  ∃ vs, b = .json (.arr vs) ∧ List.Forall₂ (fun v i ↦ Installation.IsShownBy i v) vs is

/-- Whether a body would be a listing if all its elements had a number. -/
def LacksId (b : Body) : Prop :=
  ∃ vs, b = .json (.arr vs) ∧ (∀ v ∈ vs, Installation.IsElement v) ∧
    ∃ v ∈ vs, Installation.LacksId v

end Body

namespace Installation

variable {b : Body} {is : List Installation} {v : Value}

theorem lists_iff : Body.Lists (.json v) is ↔
    ∃ es, Checked.list Entry.decode v = .ok es ∧ ofEntries es = .ok is := by
  simp only [Body.Lists, Body.json.injEq, Checked.list_eq_ok, ← exists_entries_iff]
  constructor
  · rintro ⟨vs, rfl, es, hes, his⟩
    exact ⟨es, ⟨vs, rfl, hes⟩, his⟩
  · rintro ⟨es, ⟨vs, rfl, hes⟩, his⟩
    exact ⟨vs, rfl, es, hes, his⟩

theorem lacksId_body_iff : Body.LacksId (.json v) ↔
    ∃ es, Checked.list Entry.decode v = .ok es ∧ ∃ e ∈ es, e.id = none := by
  simp only [Body.LacksId, Body.json.injEq, Checked.list_eq_ok, ← exists_decoded_iff]
  constructor
  · rintro ⟨vs, rfl, ⟨es, hes⟩, hlacks⟩
    exact ⟨es, ⟨vs, rfl, hes⟩, (exists_lacksId_iff hes).1 hlacks⟩
  · rintro ⟨es, ⟨vs, rfl, hes⟩, hnone⟩
    exact ⟨vs, rfl, ⟨es, hes⟩, (exists_lacksId_iff hes).2 hnone⟩

theorem message_listing_ne (url : String) (cause : ListingFault) :
    (ProtocolFault.listing url cause).message ≠ ProtocolFault.installationWithoutId.message := by
  -- The first characters differ, whatever the URL and the cause.
  have hc : "cannot decode installation list from ".toList.head? = some 'c' := by decide
  have hi : "installation ID is nil".toList.head? = some 'i' := by decide
  intro h
  have hheads : ("cannot decode installation list from " ++ url ++ ": ").toList.head? =
      "installation ID is nil".toList.head? := congrArg (fun s : String ↦ s.toList.head?) h
  rw [String.toList_append, String.toList_append, List.head?_append, List.head?_append, hc,
    hi] at hheads
  cases hheads

theorem ofBody_eq_ok (url : String) : ofBody url b = .ok is ↔ b.Lists is := by
  cases b with
  | unread fault text => simp [ofBody, Body.Lists]
  | json v =>
    rw [lists_iff, ofBody]
    cases Checked.list Entry.decode v <;> simp

/-- What is no listing is refused, and for want of a number only if nothing else is wrong. -/
theorem exists_fault (url : String) (h : ∀ is, ¬ b.Lists is) (hb : ∀ fault, ¬ b.Escapes fault) :
    ∃ fault : ProtocolFault, ofBody url b = .error (.protocol fault) ∧
      (fault.message = "installation ID is nil" ↔ b.LacksId) := by
  cases b with
  | unread fault text =>
    have hcaught : fault.isCaught = true :=
      Bool.not_eq_false _ ▸ fun hf ↦ hb fault ⟨text, rfl, hf⟩
    refine ⟨.listing url (.unread fault), by rw [ofBody, if_pos hcaught],
      iff_of_false (message_listing_ne url _) ?_⟩
    rintro ⟨vs, hvs, -⟩
    cases hvs
  | json v =>
    rw [lacksId_body_iff]
    cases hl : Checked.list Entry.decode v with
    | error issues =>
      refine ⟨.listing url (.invalid issues), by simp only [ofBody, hl], ?_⟩
      exact iff_of_false (message_listing_ne url _) (by simp)
    | ok es =>
      obtain ⟨is, his⟩ | ⟨herror, hnone⟩ := ofEntries_cases es
      · exact absurd (lists_iff.2 ⟨es, hl, his⟩) (h is)
      · exact ⟨.installationWithoutId, by simp only [ofBody, hl, herror],
          iff_of_true rfl ⟨es, rfl, hnone⟩⟩

theorem ofBody_of_escapes {fault : Json.ReadFault} (h : b.Escapes fault) (url : String) :
    ofBody url b = .error (.bodyUnread fault) := by
  obtain ⟨text, rfl, hf⟩ := h
  rw [ofBody, hf, if_neg Bool.false_ne_true]

theorem read_of_lt {status : Int} (hs : status < Response.rejectionStatus) (url : String)
    (b : Body) : (Listing.mk url).read (.answered ⟨status, b⟩) = ofBody url b := by
  have hr : Response.isRejection ⟨status, b⟩ = false := by
    simpa [Response.isRejection] using hs
  simp only [Listing.read, Reply.response, hr, Bool.false_eq_true, if_false]

end Installation

namespace System

/-- Whether a task that is alone sends one request and ends so by the reply to it. The client stays
as it was. -/
def EndsAtOnce (client : Client) (req : Request) (reply : Reply) (op : Operation)
    (r : Except Failure Outcome) : Prop :=
  ∀ now now', ∃ sys, (initial client [op]).run [⟨0, now, .start⟩, ⟨0, now', .reply reply⟩] =
    some sys ∧ sys.result? = some r ∧ sys.sent = [(0, req)] ∧ sys.client = client

variable {client : Client} {req : Request} {reply : Reply} {op : Operation}
  {r r' : Except Failure Outcome}

theorem endsAtOnce_of (st : Running)
    (hs : ∀ now ctx, op.start ⟨0, now⟩ ⟨client, ctx⟩ = ⟨⟨client, ctx⟩, [], .send req st⟩)
    (hd : ∀ now s, (st.resume now req reply s).scope = s ∧
      (st.resume now req reply s).next = .done r) : EndsAtOnce client req reply op r := by
  intro now now'
  obtain ⟨mid, hmid, hclient, hsent, htasks⟩ : ∃ mid,
      (initial client [op]).step ⟨0, now, .start⟩ = some mid ∧ mid.client = client ∧
        mid.sent = [(0, req)] ∧ mid.tasks = [⟨op, .sending req st, RunContext.initial.child⟩] := by
    have hstep : (initial client [op]).step ⟨0, now, .start⟩ = some ((initial client [op]).after 0
        (.create .initial op) (op.start ⟨0, now⟩ ⟨client, RunContext.initial.child⟩)) := rfl
    rw [hs] at hstep
    exact ⟨_, hstep, rfl, rfl, rfl⟩
  obtain ⟨hscope, hnext⟩ := hd now' ⟨client, RunContext.initial.child⟩
  obtain ⟨last, hlast, hends⟩ : ∃ last, mid.run [⟨0, now', .reply reply⟩] = some last ∧
      last.result? = some r ∧ last.sent = [(0, req)] ∧ last.client = client := by
    refine ⟨mid.after 0 ⟨op, .sending req st, RunContext.initial.child⟩
      (st.resume now' req reply ⟨client, RunContext.initial.child⟩), ?_, ?_, ?_, ?_⟩
    · simp only [run, List.foldlM_cons, step, htasks, hclient, List.getElem?_cons_zero]
      rfl
    · simp only [result?, after, htasks, hnext, Phase.ofNext]
      rfl
    · simp only [after, hsent, hnext, requests, List.append_nil]
    · simp only [after, hscope]
  refine ⟨last, ?_, hends⟩
  rw [run, List.foldlM_cons, hmid]
  exact hlast

theorem EndsAtOnce.iff_eq (h : EndsAtOnce client req reply op r) :
    EndsAtOnce client req reply op r' ↔ r = r' := by
  refine ⟨fun h' ↦ ?_, fun hr ↦ hr ▸ h⟩
  obtain ⟨sys, hrun, hr, -⟩ := h .zero .zero
  obtain ⟨sys', hrun', hr', -⟩ := h' .zero .zero
  obtain rfl := Option.some.inj (hrun.symm.trans hrun')
  exact Option.some.inj (hr.symm.trans hr')

theorem endsAtOnce_listing (client : Client) (appToken host : String) (reply : Reply) :
    EndsAtOnce client (.bare "GET" (Installation.listingUrl client host) (.str appToken)) reply
      (.listInstallations appToken host) (((Installation.Listing.mk
        (Installation.listingUrl client host)).read reply).map .installations) := by
  refine endsAtOnce_of (.listingInstallations ⟨Installation.listingUrl client host⟩)
    (fun _ _ ↦ rfl) fun now s ↦ ?_
  simp only [Running.resume, Installation.Listing.resume]
  cases (Installation.Listing.mk (Installation.listingUrl client host)).read reply with
  | ok is => exact ⟨rfl, rfl⟩
  | error f => exact ⟨rfl, rfl⟩

theorem endsAtOnce_resolve {q : ResolveQuery} {f : Failure}
    (h : (Installation.Listing.mk (Installation.listingUrl client q.host)).read reply = .error f) :
    EndsAtOnce client (Resolve.listingRequest q client) reply (.resolve q) (.error f) := by
  refine endsAtOnce_of (.resolving (.listing q ⟨Installation.listingUrl client q.host⟩))
    (fun _ _ ↦ rfl) fun now s ↦ ?_
  simp only [Running.resume, Resolve.resume, Installation.Listing.resume, h, Turn.andThen_error]
  exact ⟨rfl, rfl⟩

/-- What an answer that counts as success comes to when it should list the installations. The
listing is taken just if its body is a list of elements that all have a number and an account that
may be none, and then as it is. For every other body the listing fails as a breach of the protocol,
and so does a query that asked for it, before it exchanges anything and with the client as it was.
Only a body that is nested too deeply to be read makes both fail otherwise, at the same point. -/
theorem listing_all_or_nothing (client : Client) (appToken host : String) {status : Int}
    (hs : status < Response.rejectionStatus) (body : Body) :
    let ends := EndsAtOnce client
      (.bare "GET" (Installation.listingUrl client host) (.str appToken))
      (.answered ⟨status, body⟩)
    let fails := fun f ↦ ends (.listInstallations appToken host) (.error f) ∧
      ∀ target namespaceName, ends (.resolve ⟨appToken, host, target, namespaceName⟩) (.error f)
    (∀ is, ends (.listInstallations appToken host) (.ok (.installations is)) ↔ body.Lists is) ∧
      ((∀ is, ¬ body.Lists is) → (∀ fault, ¬ body.Escapes fault) → ∃ fault : ProtocolFault,
        (fault.message = "installation ID is nil" ↔ body.LacksId) ∧ fails (.protocol fault)) ∧
      ∀ fault, body.Escapes fault → fails (.bodyUnread fault) := by
  intro ends fails
  have hread := Installation.read_of_lt hs (Installation.listingUrl client host) body
  have hends := endsAtOnce_listing client appToken host (.answered ⟨status, body⟩)
  rw [hread] at hends
  have hfails {f : Failure}
      (hf : Installation.ofBody (Installation.listingUrl client host) body = .error f) :
      fails f := by
    refine ⟨?_, fun target namespaceName ↦ endsAtOnce_resolve (hread.trans hf)⟩
    rw [hf] at hends
    exact hends
  refine ⟨fun is ↦ ?_, fun hno hcaught ↦ ?_, fun fault hescapes ↦ ?_⟩
  · refine hends.iff_eq.trans ?_
    rw [← Installation.ofBody_eq_ok (Installation.listingUrl client host)]
    cases Installation.ofBody (Installation.listingUrl client host) body <;> simp [Except.map]
  · obtain ⟨fault, hfault, hmessage⟩ := Installation.exists_fault
      (Installation.listingUrl client host) hno hcaught
    exact ⟨fault, hmessage, hfails hfault⟩
  · exact hfails (Installation.ofBody_of_escapes hescapes _)

end System

namespace Sample

def numberless : Body := .json (.arr [.obj [("id", .str "1")], .obj [("id", .null)]])

theorem numberless_lacksId : numberless.LacksId := by
  have hone : Payload.Scalar.whole (.str "1") = .ok 1 := by decide
  refine ⟨_, rfl, ?_, .obj [("id", .null)], by simp, _, rfl, .inr rfl⟩
  rw [List.forall_mem_cons, List.forall_mem_singleton]
  refine ⟨⟨_, "", rfl, rfl, ?_⟩, ⟨_, "", rfl, rfl, ?_⟩⟩
  · rintro id hid
    obtain rfl := Option.some.inj hid
    exact .inr ⟨1, hone⟩
  · rintro id hid
    exact .inl (Option.some.inj hid).symm

theorem not_lists_numberless (is : List Installation) : ¬ numberless.Lists is := by
  have herror : Installation.ofBody "" numberless =
      .error (.protocol .installationWithoutId) := by rfl
  intro h
  rw [(Installation.ofBody_eq_ok "").2 h] at herror
  cases herror

end Sample

namespace System

/-- A query whose listing has a null number at its end exchanges nothing. -/
theorem listing_all_or_nothing_null_number : (200 : Int) < Response.rejectionStatus ∧
    ∃ fault : ProtocolFault, fault.message = "installation ID is nil" ∧
      EndsAtOnce Sample.appClient
        (.bare "GET" "https://api.github.com/app/installations" (.str "app.jwt"))
        (.answered ⟨200, Sample.numberless⟩) (.resolve Sample.appQuery)
        (.error (.protocol fault)) := by
  have hs : (200 : Int) < Response.rejectionStatus := by decide
  have hcaught (fault : Json.ReadFault) : ¬ Sample.numberless.Escapes fault := by
    rintro ⟨text, hb, -⟩
    cases hb
  obtain ⟨-, hno, -⟩ := listing_all_or_nothing Sample.appClient "app.jwt" "" hs Sample.numberless
  obtain ⟨fault, hmessage, -, hresolve⟩ := hno Sample.not_lists_numberless hcaught
  exact ⟨hs, fault, hmessage.2 Sample.numberless_lacksId, hresolve Sample.target ""⟩

/-- A listing that is nested too deeply is none, and yet it is no breach of the protocol. -/
theorem nested_listing_escapes :
    let body := Body.ofText (String.ofList (List.replicate 100000 '['))
    (200 : Int) < Response.rejectionStatus ∧ (∀ is, ¬ body.Lists is) ∧
      EndsAtOnce Sample.appClient
        (.bare "GET" "https://api.github.com/app/installations" (.str "app.jwt"))
        (.answered ⟨200, body⟩) (.listInstallations "app.jwt" "")
        (.error (.bodyUnread .nestedTooDeep)) := by
  intro body
  have hs : (200 : Int) < Response.rejectionStatus := by decide
  have hescapes : body.Escapes .nestedTooDeep := Body.escapes_nested (by decide)
  have hread := (Installation.read_of_lt hs
    (Installation.listingUrl Sample.appClient "") body).trans
      (Installation.ofBody_of_escapes hescapes _)
  have hends := endsAtOnce_listing Sample.appClient "app.jwt" "" (.answered ⟨200, body⟩)
  rw [hread] at hends
  refine ⟨hs, fun is hlists ↦ ?_, hends⟩
  obtain ⟨text, hbody, -⟩ := hescapes
  obtain ⟨vs, hvs, -⟩ := hlists
  cases hbody.symm.trans hvs

end System
end StatusRelay
