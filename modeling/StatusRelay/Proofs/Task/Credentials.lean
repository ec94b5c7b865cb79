import StatusRelay.Proofs.GitHub.Signing
import StatusRelay.Proofs.Installation.QueryCourse
import StatusRelay.Proofs.Task.Traffic

namespace StatusRelay

open Json (Value)
open Turn (Signed)

inductive AppRequest (base appToken : String) : Request → Prop
  | listing : AppRequest base appToken (.bare "GET" (base ++ Installation.path) (.str appToken))
  | exchange (id : Int) :
      AppRequest base appToken (.bare "POST" (TokenExchange.url base id) (.str appToken))

namespace Operation

def app? : Operation → Option (String × String)
  | exchangeToken appToken host _ _ | mintToken appToken host _ _
  | listInstallations appToken host => some (appToken, host)
  | resolve q => some (q.appToken, q.host)
  | _ => none

/-- The operations that leave the identity and the choice of the credential to the client, and whose
App token, if they have one, is not empty. -/
def Guarded : Operation → Prop
  | immediate _ | call _ | resolveConfigured _ _ _ => False
  | op => ∀ appToken host, op.app? = some (appToken, host) → appToken ≠ ""

/-- What an operation may ask for through a client with an identity. -/
def Permits (op : Operation) (i : Identity) (req : Request) : Prop :=
  i.Signs req ∨ ∃ appToken host, op.app? = some (appToken, host) ∧
    AppRequest (Installation.base ⟨i, none⟩ host) appToken req

end Operation

/-- Whether an identity is base and token of an exchange that was answered. -/
def Granted (past : List Packet) (i : Identity) : Prop :=
  ∃ t req id reply, .back t req reply ∈ past ∧ req.method = "POST" ∧
    req.url = TokenExchange.url i.apiUrl id ∧ reply.Grants i.token

def Held (client : Client) (past : List Packet) (i : Identity) : Prop :=
  i = client.identity ∨ Granted past i

theorem Granted.mono {past past' : List Packet} {i : Identity} (h : Granted past i)
    (hp : past ⊆ past') : Granted past' i := by
  obtain ⟨t, req, id, reply, hb, hreq⟩ := h
  exact ⟨t, req, id, reply, hp hb, hreq⟩

theorem Held.mono {client : Client} {past past' : List Packet} {i : Identity}
    (h : Held client past i) (hp : past ⊆ past') : Held client past' i := h.imp_right (·.mono hp)

namespace Running

def IsOwn : Running → Prop
  | listingRepositories _ | listingCheckRuns _ | ensuring _ | finding _ | creating _
  | publishing _ | reporting _ => True
  | _ => False

end Running

/-- A turn in the client's own name only, after which the task goes on in the same way. -/
structure Turn.Own (i : Identity) (t : Turn Running Outcome) : Prop where
  signed : t.Signed i
  isOwn : ∀ req st, t.next = .send req st → st.IsOwn

namespace Running

inductive Expects (op : Operation) : Running → Request → Prop
  | own {st : Running} {req : Request} (h : st.IsOwn) : Expects op st req
  | installations {l : Installation.Listing} {req : Request} :
      Expects op (.listingInstallations l) req
  | exchange {x : TokenExchange} {req : Request} (hb : Identity.isAbsolute x.apiUrl = true)
      (hm : req.method = "POST") (hu : req.url = TokenExchange.url x.apiUrl x.installation) :
      Expects op (.exchanging x) req
  | query {q : ResolveQuery} {c : Client} {r : Resolve} {req : Request} (ho : op = .resolve q)
      (hb : Identity.isAbsolute c.identity.apiUrl = true) (ha : Resolve.Asks q c r req) :
      Expects op (.resolving r) req

end Running

open Running (Expects IsOwn)

namespace Resolve

variable {q : ResolveQuery} {c c' : Client} {req : Request} {reply : Reply} {st : Resolve}
  {next : Next Resolve Resolution}

theorem Asks.permitted (ha : q.appToken ≠ "")
    (hb : Identity.isAbsolute c.identity.apiUrl = true) (h : Asks q c st req) :
    (Operation.resolve q).Permits c.identity req := by
  have hx (id : Int) : TokenExchange.request c q.appToken q.host id = _ :=
    TokenExchange.request_eq ha (Installation.isAbsolute_base hb q.host) id
  cases h with
  | listing => exact .inr ⟨_, _, rfl, .listing⟩
  | page => exact .inl ⟨_, .inl rfl, rfl, rfl⟩
  | first _ hr | later _ _ hr =>
    obtain rfl := Except.ok.inj ((hx _).symm.trans hr)
    exact .inr ⟨_, _, rfl, .exchange _⟩

/-- An answer leaves the identity as it was, or as the base and the token of an exchange. -/
theorem Course.identity_cases {c₀ : Client} (ha : q.appToken ≠ "")
    (hb : Identity.isAbsolute c₀.identity.apiUrl = true) (h₀ : Asks q c₀ st req)
    (h : Course q c req reply st c' next) (t : TaskId) :
    c'.identity = c.identity ∨ Granted [.back t req reply] c'.identity ∧
      Identity.isAbsolute c'.identity.apiUrl = true := by
  have hbase := Installation.isAbsolute_base hb q.host
  have hx (id : Int) : TokenExchange.request c₀ q.appToken q.host id = _ :=
    TokenExchange.request_eq ha hbase id
  cases h with
  | adopt hm | readopt _ hm =>
    have hg := TokenExchange.grants_of_minted hm
    obtain ⟨rfl, hr⟩ := h₀.of_exchanging
    obtain rfl := Except.ok.inj ((hx _).symm.trans hr)
    exact .inr ⟨⟨t, _, _, reply, List.mem_singleton_self _, rfl, rfl, hg⟩, hbase⟩
  | _ => exact .inl rfl

end Resolve

namespace Operation

/-- The operations that act in the client's own name only. -/
def IsOwn : Operation → Prop
  | listRepositories | listCheckRuns _ | ensureCheckRun _ | findCheckRun _ | createCheckRun _
  | publish _ _ | report _ _ => True
  | _ => False

variable {op : Operation} {i : Identity} {s : Scope} {σ α : Type}

theorem own_map {t : Turn σ α} {wrap : σ → Running} {f : α → Outcome} (h : t.Signed i)
    (hw : ∀ st, (wrap st).IsOwn) : (t.map wrap f).Own i := by
  refine ⟨h.map, ?_⟩
  intro req st hn
  obtain ⟨st', rfl, -⟩ := Turn.next_map hn
  exact hw st'

theorem own_start (ho : op.IsOwn) (caller : Caller) (s : Scope) :
    (op.start caller s).Own s.client.identity := by
  have hs : s.At s.client.identity s.context := ⟨rfl, rfl⟩
  cases op with
  | listRepositories => exact own_map (RepositoryScan.inPlace_start hs).toSigned fun _ ↦ trivial
  | listCheckRuns q => exact own_map (CheckRun.Scan.inPlace_start hs q).toSigned fun _ ↦ trivial
  | ensureCheckRun g =>
    exact own_map (CheckRun.Ensure.inPlace_start hs caller g).toSigned fun _ ↦ trivial
  | findCheckRun g =>
    exact own_map (CheckRun.Lookup.inPlace_start (s := s.attach) hs g.run g.query).toSigned
      fun _ ↦ trivial
  | createCheckRun w =>
    exact own_map (CheckRun.Creation.inPlace_start (s := s.attach) hs caller.now w).toSigned
      fun _ ↦ trivial
  | publish sink w =>
    exact own_map (Publish.inPlace_start hs caller sink w).toSigned fun _ ↦ trivial
  | report r w => exact own_map (Reporter.inBlock_start hs caller r w).toSigned fun _ ↦ trivial
  | _ => exact ho.elim

/-- The operations that wait for a lock act in the client's own name. -/
theorem own_enter {caller : Caller} {t : Turn Running Outcome} (h : op.enter? caller s = some t) :
    op.IsOwn ∧ t.Own s.client.identity := by
  have hs : s.At s.client.identity s.context := ⟨rfl, rfl⟩
  cases op with
  | ensureCheckRun g =>
    obtain rfl := Option.some.inj h
    exact ⟨trivial, own_map (CheckRun.Ensure.inPlace_enter hs caller g).toSigned fun _ ↦ trivial⟩
  | publish sink w =>
    cases sink with
    | checkRun appId =>
      obtain rfl := Option.some.inj h
      exact ⟨trivial, own_map (Publish.inPlace_enter hs caller appId w).toSigned fun _ ↦ trivial⟩
    | commitStatus => cases h
  | report r w =>
    obtain rfl := Option.some.inj h
    exact ⟨trivial, own_map (Reporter.inBlock_enter hs caller r w).toSigned fun _ ↦ trivial⟩
  | _ => cases h

theorem own_resume {st : Running} (h : st.IsOwn) (now : Moment) (req : Request) (reply : Reply)
    (s : Scope) : (st.resume now req reply s).Own s.client.identity := by
  have hs : s.At s.client.identity s.context := ⟨rfl, rfl⟩
  cases st with
  | listingRepositories scan =>
    exact own_map (RepositoryScan.inPlace_resume hs scan req reply).toSigned fun _ ↦ trivial
  | listingCheckRuns scan =>
    exact own_map (CheckRun.Scan.inPlace_resume hs scan req reply).toSigned fun _ ↦ trivial
  | ensuring e =>
    exact own_map (CheckRun.Ensure.inPlace_resume hs now e req reply).toSigned fun _ ↦ trivial
  | finding l =>
    exact own_map (CheckRun.Lookup.inPlace_resume hs l req reply).toSigned fun _ ↦ trivial
  | creating c =>
    exact own_map (CheckRun.Creation.inPlace_resume hs c req reply).toSigned fun _ ↦ trivial
  | publishing p =>
    exact own_map (Publish.inPlace_resume hs now p req reply).toSigned fun _ ↦ trivial
  | reporting p =>
    exact own_map (Reporter.inBlock_resume hs now p req reply).toSigned fun _ ↦ trivial
  | _ => exact h.elim

end Operation

namespace Operation

/-- A turn of an operation that keeps to what it may do: the identity stays, or comes by the reply
with which the turn began, and what is asked next is permitted. -/
structure Behaves (op : Operation) (back : List Packet) (i : Identity)
    (t : Turn Running Outcome) : Prop where
  identity_cases : t.scope.client.identity = i ∨ Granted back t.scope.client.identity ∧
    Identity.isAbsolute t.scope.client.identity.apiUrl = true
  request : ∀ req st, t.next = .send req st →
    op.Permits t.scope.client.identity req ∧ Expects op st req

variable {op : Operation} {back : List Packet} {i : Identity} {s : Scope}

namespace Behaves

theorem finish (hi : s.client.identity = i) (r : Except Failure Outcome) :
    op.Behaves back i (.finish s r) := ⟨.inl hi, fun _ _ hn ↦ by cases hn⟩

theorem ofOwn {t : Turn Running Outcome} (h : t.Own i) : op.Behaves back i t := by
  refine ⟨.inl h.signed.identity_eq, ?_⟩
  intro req st hn
  rw [h.signed.identity_eq]
  exact ⟨.inl (h.signed.signs req st hn), .own (h.isOwn req st hn)⟩

theorem exchange {appToken host : String} (ha : appToken ≠ "")
    (hb : Identity.isAbsolute s.client.identity.apiUrl = true)
    (happ : op.app? = some (appToken, host)) (id : Int) (namespaceName : String)
    (f : Value → Outcome) :
    op.Behaves back s.client.identity
      ((TokenExchange.start appToken host id namespaceName s).map .exchanging f) := by
  have hbase := Installation.isAbsolute_base hb host
  rw [TokenExchange.start_eq, TokenExchange.request_eq ha hbase]
  refine ⟨.inl rfl, ?_⟩
  intro req st hn
  cases hn
  exact ⟨.inr ⟨appToken, host, happ, .exchange id⟩, .exchange hbase rfl rfl⟩

theorem query {q : ResolveQuery} {t : Turn Resolve Resolution} (ha : q.appToken ≠ "")
    (hb : Identity.isAbsolute i.apiUrl = true)
    (hi : t.scope.client.identity = i ∨ Granted back t.scope.client.identity ∧
      Identity.isAbsolute t.scope.client.identity.apiUrl = true)
    (hr : ∀ req st, t.next = .send req st → Resolve.Asks q t.scope.client st req) :
    (resolve q).Behaves back i (t.map .resolving .resolution) := by
  have hbase : Identity.isAbsolute t.scope.client.identity.apiUrl = true := by
    obtain hi | ⟨-, hi⟩ := hi
    · rw [hi]
      exact hb
    · exact hi
  refine ⟨by rwa [Turn.scope_map], ?_⟩
  intro req st hn
  obtain ⟨st', rfl, hsend⟩ := Turn.next_map hn
  have hasks := hr req st' hsend
  rw [Turn.scope_map]
  exact ⟨hasks.permitted ha hbase, .query rfl hbase hasks⟩

end Behaves

theorem Guarded.appToken_ne {appToken host : String} (hg : op.Guarded)
    (h : op.app? = some (appToken, host)) : appToken ≠ "" := by
  cases op with
  | immediate | call | resolveConfigured => exact hg.elim
  | _ => exact hg appToken host h

theorem start_behaves (hg : op.Guarded)
    (hb : Identity.isAbsolute s.client.identity.apiUrl = true) (caller : Caller) :
    op.Behaves [] s.client.identity (op.start caller s) := by
  cases op with
  | immediate | call | resolveConfigured => exact hg.elim
  | exchangeToken appToken host id namespaceName =>
    exact .exchange (hg.appToken_ne rfl) hb rfl id namespaceName _
  | mintToken appToken host id namespaceName =>
    simp only [start, TokenExchange.startUnlessZero]
    split
    · exact .finish rfl _
    · rw [Turn.map_map]
      exact .exchange (hg.appToken_ne rfl) hb rfl id namespaceName _
  | listInstallations appToken host =>
    refine ⟨.inl rfl, ?_⟩
    intro req st hn
    cases hn
    exact ⟨.inr ⟨appToken, host, rfl, .listing⟩, .installations⟩
  | resolve q =>
    obtain ⟨hs, st, req, hn, hasks⟩ := Resolve.start_asks (q := q) (s := s)
    refine .query (hg.appToken_ne rfl) hb (.inl (by rw [hs])) ?_
    intro req' st' hn'
    obtain ⟨rfl, rfl⟩ := Next.send.inj (hn.symm.trans hn')
    rw [hs]
    exact hasks
  | listRepositories | listCheckRuns | ensureCheckRun | findCheckRun | createCheckRun | publish
  | report => exact .ofOwn (own_start (by trivial) caller s)

theorem resume_behaves (hg : op.Guarded) {st : Running} {req : Request} (he : Expects op st req)
    (hb : Identity.isAbsolute s.client.identity.apiUrl = true) (now : Moment) (t : TaskId)
    (reply : Reply) :
    op.Behaves [.back t req reply] s.client.identity (st.resume now req reply s) := by
  cases he with
  | own h => exact .ofOwn (own_resume h now req reply s)
  | @installations l =>
    simp only [Running.resume, Installation.Listing.resume]
    cases l.read reply <;> exact .finish rfl _
  | @exchange x _ hbase hm hu =>
    cases hx : x.minted req reply with
    | error f =>
      simp only [Running.resume, TokenExchange.resume, hx, Turn.ofExcept_error, Turn.map,
        Turn.andThen_error]
      exact .finish rfl _
    | ok token =>
      simp only [Running.resume, TokenExchange.resume, hx, Turn.ofExcept_ok, Turn.map,
        Turn.done_eq, Turn.andThen_log, Turn.andThen_ok]
      refine ⟨.inr ⟨⟨t, req, x.installation, reply, List.mem_singleton_self _, hm, hu,
        TokenExchange.grants_of_minted hx⟩, hbase⟩, ?_⟩
      intro req' st hn
      cases hn
  | @query q c r _ ho hbase ha =>
    subst ho
    have happ : q.appToken ≠ "" := hg.appToken_ne rfl
    have hc := Resolve.resume_course ha reply s
    exact .query happ hb (hc.identity_cases happ hbase ha t) fun _ _ hn ↦ hc.asks hn

end Operation

namespace System

variable {client : Client} {ops : List Operation} {past back : List Packet} {sys sys' : System}
  {m : Move} {task : Task} {c : Client} {p : Phase}

theorem Deals.behaves (h : Deals sys m task back c p) (hg : task.op.Guarded)
    (hb : Identity.isAbsolute sys.client.identity.apiUrl = true)
    (he : ∀ req st, task.phase = .sending req st → Expects task.op st req) :
    (c.identity = sys.client.identity ∨ Granted back c.identity ∧
      Identity.isAbsolute c.identity.apiUrl = true) ∧
    ∀ req st, p = .sending req st → task.op.Permits c.identity req ∧ Expects task.op st req := by
  cases h with
  | start hp ht =>
    obtain ⟨hi, hr⟩ := Operation.start_behaves (s := ⟨sys.client, task.context⟩) hg hb
      ⟨m.task, m.now⟩
    rw [ht] at hi hr
    exact ⟨hi, fun req st hn ↦ hr req st (next_of_ofNext hn)⟩
  | resume hp ht =>
    obtain ⟨hi, hr⟩ := Operation.resume_behaves (s := ⟨sys.client, task.context⟩) hg (he _ _ hp) hb
      m.now m.task _
    rw [ht] at hi hr
    exact ⟨hi, fun req st hn ↦ hr req st (next_of_ofNext hn)⟩
  | enter hp ht =>
    obtain ⟨hi, hr⟩ : task.op.Behaves [] sys.client.identity _ :=
      .ofOwn (Operation.own_enter ht).2
    exact ⟨hi, fun req st hn ↦ hr req st (next_of_ofNext hn)⟩
  | cancel hi => exact ⟨.inl hi, fun _ _ hn ↦ by cases hn⟩

/-- What the past of a system tells about its identity, its tasks and the requests in it. -/
structure Keeps (client : Client) (ops : List Operation) (past : List Packet) (sys : System) :
    Prop where
  isAbsolute : Identity.isAbsolute sys.client.identity.apiUrl = true
  held : Held client past sys.client.identity
  tasks : ∀ (t : TaskId) (task : Task), sys.tasks[t]? = some task → ops[t]? = some task.op ∧
    ∀ req st, task.phase = .sending req st → Expects task.op st req
  permitted : ∀ (before : List Packet) (t : TaskId) (req : Request), before ++ [.out t req] <+: past →
    ∃ op i, ops[t]? = some op ∧ Held client before i ∧ op.Permits i req

theorem keeps_initial (hb : Identity.isAbsolute client.identity.apiUrl = true) :
    Keeps client ops [] (initial client ops) where
  isAbsolute := hb
  held := .inl rfl
  tasks t task ht := by
    obtain ⟨op, hop, rfl⟩ := initial_tasks ht
    exact ⟨hop, fun _ _ hp ↦ by cases hp⟩
  permitted before t req h := by simp at h

theorem Keeps.step (hg : ∀ op ∈ ops, op.Guarded) (h : Keeps client ops past sys)
    (hs : sys.step m = some sys') :
    Keeps client ops (past ++ (sys.incoming m ++ sys.outgoing sys')) sys' := by
  obtain ⟨task, p, hc, hd⟩ := step_cases hs
  obtain ⟨hop, hexpects⟩ := h.tasks _ _ hc.found
  obtain ⟨hi, hr⟩ := hd.behaves (hg _ (List.mem_of_getElem? hop)) h.isAbsolute hexpects
  -- A request of this move is made in the name that the reply has left behind.
  have hheld : Held client (past ++ sys.incoming m) sys'.client.identity := by
    obtain hi | ⟨hgranted, -⟩ := hi
    · rw [hi]
      exact h.held.mono (List.subset_append_left _ _)
    · exact .inr (hgranted.mono (List.subset_append_right _ _))
  refine ⟨?_, ?_, ?_, ?_⟩
  · obtain hi | ⟨-, hb⟩ := hi
    · rw [hi]
      exact h.isAbsolute
    · exact hb
  · exact hheld.mono (incoming_subset past sys sys' m)
  · exact hc.forall_tasks h.tasks (fun ctx ↦ ⟨hop, fun req st hp ↦ (hr req st hp).2⟩)
      fun _ _ _ ht ↦ ht
  · intro before t req hbefore
    obtain hbefore | ⟨rfl, rfl, hp⟩ := hc.sent_before_or hbefore
    · exact h.permitted before t req hbefore
    · obtain ⟨st, rfl⟩ := Phase.sending_of_request? hp
      exact ⟨task.op, _, hop, hheld, (hr req st rfl).1⟩

/-- Whatever the interleaving and the answers, the client's identity is always one that was
configured or granted, and each request goes to the base of such an identity by its token, or is one
of the App and goes by the App's. The grant comes before the request. -/
theorem credentials_kept (hb : Identity.isAbsolute client.identity.apiUrl = true)
    (hg : ∀ op ∈ ops, op.Guarded) {moves : List Move}
    (hr : (initial client ops).run moves = some sys) :
    let past := (initial client ops).traffic moves
    Held client past sys.client.identity ∧ past.filterMap Packet.sent? = sys.sent ∧
      ∀ before t req, before ++ [.out t req] <+: past →
        ∃ op i, ops[t]? = some op ∧ Held client before i ∧ op.Permits i req := by
  have hk := traffic_induction (P := Keeps client ops) (keeps_initial hb) (Keeps.step hg) hr
  exact ⟨hk.held, filterMap_sent?_traffic hr, hk.permitted⟩

end System

namespace Sample

def mixedOps : List Operation := [.resolve hostedQuery, .listRepositories, .resolve appQuery]

/-- Both queries wait for their exchanges at the same time, and the last answer decides whose
repositories the listing shows. -/
def mixedMoves : List Move :=
  [start 0, start 2, answer 0 (listing [1]), answer 2 (listing [2]), answer 2 (grant "t2"),
    answer 0 (grant "t1"), start 1, answer 2 (page [target])]

theorem guarded_mixedOps : ∀ op ∈ mixedOps, op.Guarded := by
  intro op hop
  simp only [mixedOps, List.mem_cons, List.not_mem_nil, or_false] at hop
  obtain rfl | rfl | rfl := hop <;> intro appToken host h <;> cases h <;> decide

end Sample

namespace System

theorem credentials_kept_two_hosts :
    Identity.isAbsolute Sample.appClient.identity.apiUrl = true ∧
      (∀ op ∈ Sample.mixedOps, op.Guarded) ∧
      ∃ sys, (initial Sample.appClient Sample.mixedOps).run Sample.mixedMoves = some sys ∧
        let past := (initial Sample.appClient Sample.mixedOps).traffic Sample.mixedMoves
        Held Sample.appClient past sys.client.identity ∧ past.filterMap Packet.sent? = sys.sent ∧
          ∀ before t req, before ++ [.out t req] <+: past →
            ∃ op i, Sample.mixedOps[t]? = some op ∧ Held Sample.appClient before i ∧
              op.Permits i req := by
  have hb : Identity.isAbsolute Sample.appClient.identity.apiUrl = true := by decide
  have hr : ((initial Sample.appClient Sample.mixedOps).run Sample.mixedMoves).isSome = true := by
    decide
  obtain ⟨sys, hr⟩ := Option.isSome_iff_exists.1 hr
  exact ⟨hb, Sample.guarded_mixedOps, sys, hr, credentials_kept hb Sample.guarded_mixedOps hr⟩

end System
end StatusRelay
