import Mathlib.Data.List.Forall2
import StatusRelay.Proofs.GitHub.Alike

namespace StatusRelay

open Json (Value)

namespace Settings

def appToken (s : Settings) (clock : Moment) : Except Failure AppToken := do
  let app ← s.identity
  let now ← AppToken.now clock
  AppToken.create (.int app.appId) app.privateKey now

def Signs (s : Settings) (clock : Moment) : Prop :=
  ∃ token, s.appToken clock = .ok token ∧ token.text ≠ ""

end Settings

theorem Turn.ofExcept_bind {σ α β γ : Type} (s : Scope) (r : Except Failure α)
    (f : α → Except Failure β) (rest : β → Turn σ γ) :
    ofExcept s (r >>= f) rest = ofExcept s r fun a ↦ ofExcept s (f a) rest := by
  cases r <;> rfl

theorem Resolve.startConfigured_eq (settings : Settings) (clock : Moment) (target : String)
    (headers : Table String) (s : Scope) : startConfigured clock settings target headers s =
      .ofExcept s (settings.appToken clock) fun token ↦
        start ⟨token.text, Enterprise.hostOf headers, target, settings.namespaceName⟩ s := by
  simp only [startConfigured, Settings.appToken, Turn.ofExcept_bind]

namespace Operation

/-- Operations that are the same but for what identifies the App. Tokens for it are not empty, and
keys sign at each of the given times. -/
inductive Alike (times : List Moment) : Operation → Operation → Prop
  | same (op : Operation) : Alike times op op
  | exchangeToken {appToken appToken' : String} (h : appToken ≠ "") (h' : appToken' ≠ "")
      (host : String) (id : Int) (namespaceName : String) :
      Alike times (.exchangeToken appToken host id namespaceName)
        (.exchangeToken appToken' host id namespaceName)
  | mintToken {appToken appToken' : String} (h : appToken ≠ "") (h' : appToken' ≠ "")
      (host : String) (id : Int) (namespaceName : String) :
      Alike times (.mintToken appToken host id namespaceName)
        (.mintToken appToken' host id namespaceName)
  | listInstallations (appToken appToken' host : String) :
      Alike times (.listInstallations appToken host) (.listInstallations appToken' host)
  | resolve {q : ResolveQuery} {appToken : String} (h : q.appToken ≠ "") (h' : appToken ≠ "") :
      Alike times (.resolve q) (.resolve { q with appToken })
  | resolveConfigured {s : Settings} {privateKey : String} (h : ∀ now ∈ times, s.Signs now)
      (h' : ∀ now ∈ times, { s with privateKey }.Signs now) (target : String)
      (headers : Table String) :
      Alike times (.resolveConfigured s target headers)
        (.resolveConfigured { s with privateKey } target headers)

end Operation

inductive Running.Alike : Running → Running → Prop
  | same (st : Running) : Alike st st
  | resolving {r r' : Resolve} (h : r.Alike r') : Alike (.resolving r) (.resolving r')

theorem Running.alike_of_eq {σ : Type} {wrap : σ → Running} (st st' : σ) (h : st = st') :
    (wrap st).Alike (wrap st') := h ▸ .same _

open Running (alike_of_eq)

variable {known : Prop} {s s' : Scope} {times : List Moment} {req req' : Request}

theorem truthy_eq_of_ne_empty {text text' : String} (h : text ≠ "") (h' : text' ≠ "") :
    (Value.str text').truthy = (Value.str text).truthy := by
  have ht : (Value.str text).truthy = true := bne_iff_ne.2 h
  have ht' : (Value.str text').truthy = true := bne_iff_ne.2 h'
  rw [ht, ht']

namespace Immediate

theorem alike_run (h : s.Alike known s') (i : Immediate) :
    (i.run s).1.Alike known (i.run s').1 ∧ (i.run s').2 = (i.run s).2 := by
  cases i with
  | assign apiUrl token =>
    refine ⟨h.adopt ⟨?_, ?_, ?_⟩, rfl⟩
    · rw [h.client.identity.apiUrl_eq]
    · cases token with
      | some token => rfl
      | none => exact h.client.identity.truthy_eq
    · intro hk
      rw [h.client.identity.token_eq hk]
  | store run v =>
    cases v with
    | int id => exact ⟨h.attach.mapRuns (·.store run id), rfl⟩
    | _ => exact ⟨h.attach, rfl⟩
  | load run =>
    refine ⟨h.attach, ?_⟩
    simp only [Immediate.run, h.attach.client.runs_eq]
  | listingUrl host =>
    refine ⟨h, ?_⟩
    simp only [Immediate.run, Installation.listingUrl, h.client.base_eq]
  | sinkFor r e => exact ⟨h, rfl⟩
  | reporterCache r =>
    refine ⟨?_, rfl⟩
    simp only [Immediate.run, reporterScope]
    split
    · exact h.attach
    · exact h

end Immediate

namespace Call

theorem request_alike {c c' : Client} (h : c.Alike known c') (a : Call) :
    (a.request c').map Request.anonymous = (a.request c).map Request.anonymous := by
  cases a with
  | unchecked => rfl
  | _ => exact h.request_eq rfl _ _ _ _

theorem result_eq (hreq : req'.anonymous = req.anonymous) (reply : Reply) (a : Call) :
    a.result req' reply = a.result req reply := by
  cases a <;> simp only [result, Request.accepted_eq hreq, Request.json_eq hreq]

end Call

namespace Operation

theorem alike_startUnlessZero (h : s.Alike known s') {appToken appToken' : String}
    (ht : (Value.str appToken').truthy = (Value.str appToken).truthy) (host : String) (id : Int)
    (namespaceName : String) :
    (TokenExchange.startUnlessZero appToken host id namespaceName s).Alike known Eq
      (TokenExchange.startUnlessZero appToken' host id namespaceName s') := by
  unfold TokenExchange.startUnlessZero
  split
  · exact .finish h _
  · exact (TokenExchange.alike_start h ht host id namespaceName).map fun _ _ ↦ congrArg _

/-- Queries for one App by two keys are alike when both keys sign. -/
theorem alike_startConfigured (h : s.Alike known s') {settings : Settings} {privateKey : String}
    {now : Moment} (hs : settings.Signs now) (hs' : { settings with privateKey }.Signs now)
    (target : String) (headers : Table String) :
    (Resolve.startConfigured now settings target headers s).Alike known Resolve.Alike
      (Resolve.startConfigured now { settings with privateKey } target headers s') := by
  obtain ⟨token, ht, hne⟩ := hs
  obtain ⟨token', ht', hne'⟩ := hs'
  simp only [Resolve.startConfigured_eq, ht, ht', Turn.ofExcept_ok]
  exact Resolve.alike_start h (.withToken (truthy_eq_of_ne_empty hne hne'))

theorem alike_start_self (h : s.Alike known s') (caller : Caller) (op : Operation) :
    (op.start caller s).Alike known Running.Alike (op.start caller s') := by
  cases op with
  | immediate i =>
    obtain ⟨hs, hr⟩ := Immediate.alike_run h i
    simp only [start, hr]
    exact .finish hs _
  | call c => exact .send h (c.request_alike h.client) (.same _)
  | exchangeToken appToken host id ns =>
    exact (TokenExchange.alike_start h rfl host id ns).map alike_of_eq
  | mintToken appToken host id ns => exact (alike_startUnlessZero h rfl host id ns).map alike_of_eq
  | listRepositories => exact (RepositoryScan.alike_start h).map alike_of_eq
  | listCheckRuns q => exact (CheckRun.Scan.alike_start h q).map alike_of_eq
  | listInstallations appToken host =>
    exact (Installation.Listing.alike_start h _ _ host).map alike_of_eq
  | resolve q => exact (Resolve.alike_start h (.withToken rfl)).map fun _ _ ↦ .resolving
  | resolveConfigured settings target headers =>
    refine Turn.Alike.map (R := Resolve.Alike) ?_ fun _ _ ↦ .resolving
    rw [Resolve.startConfigured_eq, Resolve.startConfigured_eq]
    exact .ofExcept h fun token ↦ Resolve.alike_start h (.withToken rfl)
  | ensureCheckRun g => exact (CheckRun.Ensure.alike_start h caller g).map alike_of_eq
  | findCheckRun g => exact (CheckRun.Lookup.alike_start h.attach g.run g.query).map alike_of_eq
  | createCheckRun w =>
    exact (CheckRun.Creation.alike_start h.attach caller.now w).map alike_of_eq
  | publish sink w => exact (Publish.alike_start h caller sink w).map alike_of_eq
  | report r w => exact (Reporter.alike_start h caller r w).map alike_of_eq

variable {op op' : Operation}

theorem alike_start (h : s.Alike known s') (ho : op.Alike times op') {caller : Caller}
    (hm : caller.now ∈ times) :
    (op.start caller s).Alike known Running.Alike (op'.start caller s') := by
  cases ho with
  | same => exact alike_start_self h caller op
  | exchangeToken ht ht' host id ns =>
    exact (TokenExchange.alike_start h (truthy_eq_of_ne_empty ht ht') host id ns).map alike_of_eq
  | mintToken ht ht' host id ns =>
    exact (alike_startUnlessZero h (truthy_eq_of_ne_empty ht ht') host id ns).map alike_of_eq
  | listInstallations appToken appToken' host =>
    exact (Installation.Listing.alike_start h _ _ host).map alike_of_eq
  | resolve ht ht' =>
    exact (Resolve.alike_start h (.withToken (truthy_eq_of_ne_empty ht ht'))).map fun _ _ ↦
      .resolving
  | resolveConfigured hs hs' target headers =>
    exact (alike_startConfigured h (hs _ hm) (hs' _ hm) target headers).map fun _ _ ↦ .resolving

theorem alike_enter? (h : s.Alike known s') (ho : op.Alike times op') (caller : Caller)
    {t : Turn Running Outcome} (ht : op.enter? caller s = some t) :
    ∃ t', op'.enter? caller s' = some t' ∧ t.Alike known Running.Alike t' := by
  -- Only operations that want a check run wait for a lock, and they are the same.
  cases ho with
  | same =>
    cases op with
    | ensureCheckRun g =>
      obtain rfl := Option.some.inj ht
      exact ⟨_, rfl, (CheckRun.Ensure.alike_enter h caller g).map alike_of_eq⟩
    | publish sink w =>
      cases sink with
      | checkRun appId =>
        obtain rfl := Option.some.inj ht
        exact ⟨_, rfl, (Publish.alike_enter h caller appId w).map alike_of_eq⟩
      | commitStatus => cases ht
    | report r w =>
      obtain rfl := Option.some.inj ht
      exact ⟨_, rfl, (Reporter.alike_enter h caller r w).map alike_of_eq⟩
    | _ => cases ht
  | _ => cases ht

theorem alike_withdraw (h : s.Alike known s') (ho : op.Alike times op') (caller : Caller)
    (run : String) : (op.withdraw caller run s).Alike known (op'.withdraw caller run s') := by
  have hw := h.mapLock run (·.withdraw caller.task)
  cases ho with
  | same =>
    cases op with
    | report r w => exact hw.leave
    | _ => exact hw
  | _ => exact hw

end Operation

namespace Running

variable {st st' : Running}

theorem alike_resume_self (h : s.Alike known s') (hx : st.exchange? = none)
    (hreq : req'.anonymous = req.anonymous) (now : Moment) (reply : Reply) :
    (st.resume now req reply s).Alike known Running.Alike (st.resume now req' reply s') := by
  cases st with
  | call c =>
    simp only [resume, c.result_eq hreq]
    exact .finish h _
  | exchanging x => cases hx
  | listingRepositories scan =>
    exact (RepositoryScan.alike_resume h scan hreq reply).map alike_of_eq
  | listingCheckRuns scan => exact (CheckRun.Scan.alike_resume h scan hreq reply).map alike_of_eq
  | listingInstallations l => exact Turn.Alike.map (R := Eq) (.finish h _) alike_of_eq
  | resolving r =>
    have hr := Resolve.alike_resume h (Resolve.Alike.refl r) hreq reply
    refine (hr.mono .inl).map fun _ _ ↦ .resolving
  | ensuring e => exact (CheckRun.Ensure.alike_resume h now e hreq reply).map alike_of_eq
  | finding l => exact (CheckRun.Lookup.alike_resume h l hreq reply).map alike_of_eq
  | creating c => exact (CheckRun.Creation.alike_resume h c hreq reply).map alike_of_eq
  | publishing p => exact (Publish.alike_resume h now p hreq reply).map alike_of_eq
  | reporting p => exact (Reporter.alike_resume h now p hreq reply).map alike_of_eq

/-- From an exchange that grants a token on, the clients have the same one. -/
theorem alike_resume (h : s.Alike known s') (hst : st.Alike st')
    (hreq : req'.anonymous = req.anonymous) (now : Moment) (reply : Reply) :
    (st.resume now req reply s).Alike (known ∨ (st.adoption? req reply).isSome = true)
      Running.Alike (st'.resume now req' reply s') := by
  cases hst with
  | resolving hr => exact (Resolve.alike_resume h hr hreq reply).map fun _ _ ↦ .resolving
  | same =>
    by_cases hx : st.exchange? = none
    · refine (alike_resume_self h hx hreq now reply).mono (Or.rec id ?_)
      simp [adoption?_of_exchange? hx]
    · cases st with
      | exchanging x =>
        refine ((TokenExchange.alike_resume h x hreq reply).mono (Or.imp_right ?_)).map alike_of_eq
        simp only [adoption?, exchange?]
        cases reply.token? req <;> simp
      | resolving r =>
        exact (Resolve.alike_resume h (.refl r) hreq reply).map fun _ _ ↦ .resolving
      | _ => exact absurd rfl hx

theorem alike_cancel (h : s.Alike known s') (hst : st.Alike st') :
    (st.cancel s).Alike known (st'.cancel s') := by
  cases hst with
  | same =>
    cases st with
    | ensuring e => exact h.mapLock _ _
    | publishing p => exact Publish.alike_cancel h p
    | reporting p => exact (Publish.alike_cancel h p).leave
    | _ => exact h
  | resolving => exact h

end Running

inductive Phase.Alike : Phase → Phase → Prop
  | ready : Alike .ready .ready
  | sending {req req' : Request} {st st' : Running} (hreq : req'.anonymous = req.anonymous)
      (hst : st.Alike st') : Alike (.sending req st) (.sending req' st')
  | waiting (run : String) : Alike (.waiting run) (.waiting run)
  | finished (r : Except Failure Outcome) : Alike (.finished r) (.finished r)

theorem Phase.alike_ofNext {n n' : Next Running Outcome} (h : n.Alike Running.Alike n') :
    (Phase.ofNext n).Alike (Phase.ofNext n') := by
  cases h with
  | done r => exact .finished r
  | send hreq hst => exact .sending hreq hst
  | wait run => exact .waiting run

structure Task.Alike (times : List Moment) (task task' : Task) : Prop where
  op : task.op.Alike times task'.op
  phase : task.phase.Alike task'.phase
  context_eq : task'.context = task.context

theorem Task.Alike.result?_eq {task task' : Task} (h : task.Alike times task') :
    task'.result? = task.result? := by
  obtain ⟨op, phase, context⟩ := task
  obtain ⟨op', phase', context'⟩ := task'
  obtain ⟨-, hp, -⟩ := h
  cases hp <;> rfl

section

variable {α β : Type} {R : α → β → Prop} {as : List α} {bs : List β} {a : α} {b : β}

theorem forall₂_set (h : List.Forall₂ R as bs) (hab : R a b) :
    ∀ i, List.Forall₂ R (as.set i a) (bs.set i b) := by
  induction h with
  | nil => exact fun _ ↦ .nil
  | cons hx hxs ih =>
    intro i
    cases i with
    | zero => exact .cons hab hxs
    | succ i => exact .cons hx (ih i)

theorem forall₂_getElem? (h : List.Forall₂ R as bs) :
    ∀ {i : Nat}, as[i]? = some a → ∃ b, bs[i]? = some b ∧ R a b := by
  induction h with
  | nil =>
    intro i ha
    cases ha
  | cons hx hxs ih =>
    intro i ha
    cases i with
    | zero =>
      obtain rfl := Option.some.inj ha
      exact ⟨_, rfl, hx⟩
    | succ i => exact ih ha

end

namespace System

def exposed (sys : System) : List (TaskId × Request) := sys.sent.map fun x ↦ (x.1, x.2.anonymous)

theorem requests_exposed_eq (t : TaskId) {n n' : Next Running Outcome}
    (h : n.Alike Running.Alike n') : (requests t n').map (fun x ↦ (x.1, x.2.anonymous)) =
      (requests t n).map fun x ↦ (x.1, x.2.anonymous) := by
  cases h with
  | send hreq hst => simp only [requests, List.map_cons, List.map_nil, hreq]
  | _ => rfl

theorem adoption?_of_reply {sys : System} {m : Move} {task : Task} {req : Request} {st : Running}
    {reply : Reply} (hf : sys.tasks[m.task]? = some task) (hp : task.phase = .sending req st)
    (hm : m.happening = .reply reply) : sys.adoption? m = st.adoption? req reply := by
  simp only [adoption?, incoming, hf, Option.map_some, Option.bind_eq_bind, Option.bind_some,
    Task.pending?, hp, hm]

theorem incoming_of_ne_reply {sys : System} {m : Move} (h : ∀ reply, m.happening ≠ .reply reply) :
    sys.incoming m = [] := by
  unfold incoming
  split
  · rename_i hm
    exact absurd hm (h _)
  · rfl

/-- Systems that differ in credentials alone. -/
structure Alike (times : List Moment) (known : Prop) (sys sys' : System) : Prop where
  client : sys.client.Alike known sys'.client
  tasks : List.Forall₂ (Task.Alike times) sys.tasks sys'.tasks
  exposed_eq : sys'.exposed = sys.exposed
  records_eq : sys'.records = sys.records

namespace Alike

variable {sys sys' next : System} {t : TaskId} {task task' : Task} {m : Move}
  {u u' : Turn Running Outcome}

theorem mono {known' : Prop} (h : sys.Alike times known sys') (hk : known' → known) :
    sys.Alike times known' sys' :=
  ⟨⟨h.client.identity.mono hk, h.client.cache_eq⟩, h.tasks, h.exposed_eq, h.records_eq⟩

theorem after {known' : Prop} (h : sys.Alike times known sys') (htask : task.Alike times task')
    (hu : u.Alike known' Running.Alike u') :
    (sys.after t task u).Alike times known' (sys'.after t task' u') := by
  have hmoved : Task.Alike times
      { task with phase := .ofNext u.next, context := u.scope.context }
      { task' with phase := .ofNext u'.next, context := u'.scope.context } :=
    ⟨htask.op, Phase.alike_ofNext hu.next, hu.scope.context_eq⟩
  refine ⟨hu.scope.client, forall₂_set h.tasks hmoved t, ?_, ?_⟩
  · have hbefore := h.exposed_eq
    have hsent := requests_exposed_eq t hu.next
    simp only [exposed, System.after, List.map_append] at hbefore ⊢
    rw [hbefore, hsent]
  · simp only [System.after, h.records_eq, hu.records_eq]

theorem cancelled (h : sys.Alike times known sys') (htask : task.Alike times task')
    (hs : s.Alike known s') :
    (sys.cancelled t task s).Alike times known (sys'.cancelled t task' s') := by
  have hmoved : Task.Alike times
      { task with phase := .finished (.error .cancelled), context := s.context }
      { task' with phase := .finished (.error .cancelled), context := s'.context } :=
    ⟨htask.op, .finished _, hs.context_eq⟩
  exact ⟨hs.client, forall₂_set h.tasks hmoved t, h.exposed_eq, h.records_eq⟩

/-- What is enabled on one side is enabled on the other. -/
theorem step_of_ne_reply (h : sys.Alike times known sys') (hm : m.now ∈ times)
    (hq : ∀ reply, m.happening ≠ .reply reply) (hs : sys.step m = some next) :
    ∃ next', sys'.step m = some next' ∧ next.Alike times known next' := by
  cases hf : sys.tasks[m.task]? with
  | none => simp [System.step, hf] at hs
  | some task =>
    obtain ⟨task', hf', htask⟩ := forall₂_getElem? h.tasks hf
    obtain ⟨op, phase, ctx⟩ := task
    obtain ⟨op', phase', ctx'⟩ := task'
    have hscope : Scope.Alike known ⟨sys.client, ctx⟩ ⟨sys'.client, ctx'⟩ :=
      ⟨h.client, htask.context_eq⟩
    have hphase := htask.phase
    obtain ⟨t, now, happening⟩ := m
    simp only [System.step, hf] at hs
    simp only [System.step, hf']
    cases happening with
    | reply reply => exact absurd rfl (hq reply)
    | start =>
      cases hphase with
      | ready =>
        obtain rfl := Option.some.inj hs
        exact ⟨_, rfl, h.after htask (Operation.alike_start hscope htask.op hm)⟩
      | _ => simp at hs
    | enter =>
      cases hphase with
      | waiting run =>
        simp only [Option.ite_none_right_eq_some, Option.map_eq_some_iff] at hs
        obtain ⟨hmay, u, he, rfl⟩ := hs
        obtain ⟨u', he', hu⟩ := Operation.alike_enter? hscope htask.op ⟨t, now⟩ he
        have hmay' : sys'.mayEnter t run = true := by
          rw [← hmay, mayEnter, mayEnter, h.client.runs_eq]
        simp only [hmay', if_true, he', Option.map_some]
        exact ⟨_, rfl, h.after htask hu⟩
      | _ => simp at hs
    | cancel =>
      cases hphase with
      | ready =>
        obtain rfl := Option.some.inj hs
        exact ⟨_, rfl, h.cancelled htask hscope⟩
      | sending hreq hst =>
        obtain rfl := Option.some.inj hs
        exact ⟨_, rfl, h.cancelled htask (Running.alike_cancel hscope hst)⟩
      | waiting run =>
        obtain rfl := Option.some.inj hs
        exact ⟨_, rfl, h.cancelled htask
          (Operation.alike_withdraw hscope htask.op ⟨t, now⟩ run)⟩
      | finished => simp at hs

theorem step_of_reply (h : sys.Alike times known sys') {reply : Reply}
    (hr : m.happening = .reply reply) (hs : sys.step m = some next) :
    ∃ next', sys'.step m = some next' ∧
      next.Alike times (known ∨ (sys.adoption? m).isSome = true) next' := by
  cases hf : sys.tasks[m.task]? with
  | none => simp [System.step, hf] at hs
  | some task =>
    obtain ⟨task', hf', htask⟩ := forall₂_getElem? h.tasks hf
    have hgrant {req : Request} {st : Running} (hp : task.phase = .sending req st) :=
      adoption?_of_reply hf hp hr
    obtain ⟨op, phase, ctx⟩ := task
    obtain ⟨op', phase', ctx'⟩ := task'
    have hscope : Scope.Alike known ⟨sys.client, ctx⟩ ⟨sys'.client, ctx'⟩ :=
      ⟨h.client, htask.context_eq⟩
    have hphase := htask.phase
    simp only [System.step, hf, hr] at hs
    simp only [System.step, hf', hr]
    cases hphase with
    | sending hreq hst =>
      obtain rfl := Option.some.inj hs
      rw [hgrant rfl]
      exact ⟨_, rfl, h.after htask (Running.alike_resume hscope hst hreq m.now reply)⟩
    | _ => simp at hs

theorem step (h : sys.Alike times known sys') (hm : m.now ∈ times) (hs : sys.step m = some next) :
    ∃ next', sys'.step m = some next' ∧
      next.Alike times (known ∨ (sys.adoption? m).isSome = true) next' := by
  by_cases hq : ∀ reply, m.happening ≠ .reply reply
  · obtain ⟨next', hs', hn⟩ := h.step_of_ne_reply hm hq hs
    refine ⟨next', hs', hn.mono (Or.rec id ?_)⟩
    simp [adoption?_of_incoming_nil (incoming_of_ne_reply hq)]
  · obtain ⟨reply, hr⟩ := not_forall_not.1 hq
    exact h.step_of_reply hr hs

theorem run {moves : List Move} : ∀ {known : Prop} {sys sys' : System},
    sys.Alike times known sys' → (∀ m ∈ moves, m.now ∈ times) → sys.run moves = some next →
    ∃ next', sys'.run moves = some next' ∧
      next.Alike times (known ∨ sys.adoptions moves ≠ []) next' := by
  induction moves with
  | nil =>
    intro known sys sys' h _ hr
    obtain rfl := Option.some.inj hr
    exact ⟨sys', rfl, h.mono (Or.rec id fun hne ↦ absurd rfl hne)⟩
  | cons m moves ih =>
    intro known sys sys' h hm hr
    obtain ⟨mid, hs, hr⟩ := Option.bind_eq_some_iff.1 hr
    obtain ⟨mid', hs', hmid⟩ := h.step (hm m List.mem_cons_self) hs
    obtain ⟨next', hr', hnext⟩ := ih hmid (fun m' hm' ↦ hm m' (List.mem_cons_of_mem m hm')) hr
    refine ⟨next', Option.bind_eq_some_iff.2 ⟨mid', hs', hr'⟩, hnext.mono ?_⟩
    rintro (hk | hne)
    · exact .inl (.inl hk)
    · rw [adoptions, trail_cons hs] at hne
      cases hg : sys.adoption? m with
      | some i => exact .inl (.inr rfl)
      | none =>
        rw [hg, Option.map_none, Option.toList_none, List.nil_append] at hne
        exact .inr hne

end Alike

theorem alike_initial {client client' : Client} {ops ops' : List Operation}
    (hc : client.Alike known client') (ho : List.Forall₂ (Operation.Alike times) ops ops') :
    (initial client ops).Alike times known (initial client' ops') := by
  refine ⟨hc, ?_, rfl, rfl⟩
  rw [initial, initial, List.forall₂_map_left_iff, List.forall₂_map_right_iff]
  exact ho.imp fun op op' h ↦ ⟨h, .ready, rfl⟩

/-- Any moves that a client can make with some token, some tokens for the App and some key of it, it
can make with any others. Of the credentials nothing is seen in the requests, apart from what
authorises them, nor in the results, the failures, the log, the cache or the base of the client. And
after an exchange that has granted a token the client has that one in any case. -/
theorem credentials_confined {client : Client} {token : Value} {ops ops' : List Operation}
    {moves : List Move} {sys : System} (hk : client.identity.token.truthy = true)
    (hk' : token.truthy = true)
    (ho : List.Forall₂ (Operation.Alike (moves.map Move.now)) ops ops')
    (hr : (initial client ops).run moves = some sys) :
    ∃ sys', (initial { client with identity := ⟨client.identity.apiUrl, token⟩ } ops').run moves =
        some sys' ∧
      sys'.exposed = sys.exposed ∧
      sys'.tasks.map Task.result? = sys.tasks.map Task.result? ∧
      sys'.records = sys.records ∧
      sys'.client.cache = sys.client.cache ∧
      sys'.client.identity.apiUrl = sys.client.identity.apiUrl ∧
      ((initial client ops).adoptions moves ≠ [] →
        sys'.client.identity.token = sys.client.identity.token) := by
  have hc : client.Alike False { client with identity := ⟨client.identity.apiUrl, token⟩ } :=
    ⟨⟨rfl, hk'.trans hk.symm, False.elim⟩, rfl⟩
  obtain ⟨sys', hr', h⟩ := (alike_initial hc ho).run (fun m hm ↦ List.mem_map_of_mem hm) hr
  refine ⟨sys', hr', h.exposed_eq, ?_, h.records_eq, h.client.cache_eq,
    h.client.identity.apiUrl_eq, fun hg ↦ h.client.identity.token_eq (.inr hg)⟩
  rw [← List.forall₂_eq_eq_eq, List.forall₂_map_left_iff, List.forall₂_map_right_iff]
  exact (h.tasks.imp fun _ _ ht ↦ ht.result?_eq).flip

end System

namespace Sample

def matchMoves : List Move :=
  [start 0, answer 0 (listing [1, 2]), answer 0 (grant "t1"), answer 0 (page [target])]

end Sample

namespace System

/-- Neither the token that the client had nor that of the App is seen in the end. -/
theorem credentials_confined_matched : ∃ sys sys',
    (initial (.create "https://api.github.com" (.str "a")) [.resolve Sample.appQuery]).run
        Sample.matchMoves = some sys ∧
      (initial (.create "https://api.github.com" (.str "b"))
        [.resolve { Sample.appQuery with appToken := "other.jwt" }]).run Sample.matchMoves =
          some sys' ∧
      sys'.exposed = sys.exposed ∧
      sys'.tasks.map Task.result? = sys.tasks.map Task.result? ∧
      sys'.client.identity.token = sys.client.identity.token := by
  have hr : ((initial (.create "https://api.github.com" (.str "a"))
      [.resolve Sample.appQuery]).run Sample.matchMoves).isSome = true := rfl
  obtain ⟨sys, hr⟩ := Option.isSome_iff_exists.1 hr
  have hgranted : (initial (.create "https://api.github.com" (.str "a"))
      [.resolve Sample.appQuery]).adoptions Sample.matchMoves ≠ [] := by
    intro h
    cases h
  have hops : List.Forall₂ (Operation.Alike (Sample.matchMoves.map Move.now))
      [.resolve Sample.appQuery] [.resolve { Sample.appQuery with appToken := "other.jwt" }] :=
    .cons (.resolve (by decide) (by decide)) .nil
  have hk : (Value.str "b").truthy = true := rfl
  obtain ⟨sys', hr', hexposed, hresults, -, -, -, htoken⟩ := credentials_confined rfl hk hops hr
  exact ⟨sys, sys', hr, hr', hexposed, hresults, htoken hgranted⟩

end System
end StatusRelay
