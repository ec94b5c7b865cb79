import StatusRelay.Proofs.Installation.SharedIdentity
import StatusRelay.Proofs.Task.Credentials
import StatusRelay.Proofs.Task.FailFast

namespace StatusRelay

open Json (Value)
open Phase (ofNext)

namespace Operation

/-- The operations that set the identity without asking anybody. -/
def Assigns : Operation → Prop
  | immediate (.assign _ _) => True
  | _ => False

def host? : Operation → Option String
  | exchangeToken _ host _ _ | mintToken _ host _ _ | listInstallations _ host => some host
  | resolve q => some q.host
  | resolveConfigured _ _ headers => some (Enterprise.hostOf headers)
  | _ => none

def IsQuery : Operation → Prop
  | resolve _ | resolveConfigured _ _ _ => True
  | _ => False

theorem IsOwn.host?_eq {op : Operation} (h : op.IsOwn) : op.host? = none := by
  cases op <;> first | rfl | exact h.elim

end Operation

namespace Running

def exchange? : Running → Option TokenExchange
  | exchanging x | resolving (.exchanging _ _ _ _ x) => some x
  | _ => none

/-- The identity that an answer grants: the base of the exchange with the token in the answer. -/
def adoption? (req : Request) (reply : Reply) (st : Running) : Option Identity :=
  match st.exchange?, reply.token? req with
  | some x, some token => some ⟨x.apiUrl, token⟩
  | _, _ => none

inductive Suits (op : Operation) (c : Client) : Running → Request → Prop
  | own {st : Running} {req : Request} (h : st.IsOwn) (ho : op.host? = none) : Suits op c st req
  | call {a : Call} {req : Request} (ho : op.host? = none) : Suits op c (.call a) req
  | installations {l : Installation.Listing} {req : Request} :
      Suits op c (.listingInstallations l) req
  | exchange {host namespaceName : String} {id : Int} {req : Request} (ho : op.host? = some host) :
      Suits op c (.exchanging ⟨Installation.base c host, id, namespaceName⟩) req
  | query {q : ResolveQuery} {r : Resolve} {req : Request} (ho : op.host? = some q.host)
      (ha : Resolve.Asks q c r req) : Suits op c (.resolving r) req

variable {op : Operation} {c : Client} {st : Running} {req : Request} {reply : Reply}

theorem IsOwn.exchange?_eq (h : st.IsOwn) : st.exchange? = none := by
  cases st <;> first | rfl | exact h.elim

theorem adoption?_of_exchange? (h : st.exchange? = none) : st.adoption? req reply = none := by
  simp only [adoption?, h]

theorem adoption?_eq_some {i : Identity} : st.adoption? req reply = some i ↔
    ∃ x, st.exchange? = some x ∧ reply.Grants i.token ∧ i.apiUrl = x.apiUrl := by
  constructor
  · intro h
    unfold adoption? at h
    split at h
    · rename_i x token hx ht
      obtain rfl := Option.some.inj h
      have hm : x.minted req reply = .ok token := TokenExchange.minted_of_token? ht
      exact ⟨x, hx, TokenExchange.grants_of_minted hm, rfl⟩
    · cases h
  · rintro ⟨x, hx, hg, hi⟩
    obtain ⟨apiUrl, token⟩ := i
    obtain rfl : apiUrl = x.apiUrl := hi
    simp only [adoption?, hx, hg.token?_eq req]

/-- The base of an exchange is the one that its host had when it was asked for. -/
theorem Suits.apiUrl_eq {x : TokenExchange} (h : st.Suits op c req) (hx : st.exchange? = some x) :
    ∃ host, op.host? = some host ∧ x.apiUrl = Installation.base c host := by
  cases h with
  | own h =>
    rw [h.exchange?_eq] at hx
    cases hx
  | call | installations => cases hx
  | exchange ho =>
    cases hx
    exact ⟨_, ho, rfl⟩
  | query ho ha =>
    cases ha with
    | listing | page => cases hx
    | first | later =>
      cases hx
      exact ⟨_, ho, rfl⟩

theorem Suits.cancel_eq (h : st.Suits op c req) (ho : op.host? ≠ none) (s : Scope) :
    st.cancel s = s := by
  cases h with
  | own _ hn => exact absurd hn ho
  | _ => rfl

end Running

/-- What a move of a task makes of the client: it has the identity that the task adopts, or else its
own, and keeps its cache if the task acts for the App. -/
structure Operation.Leaves (op : Operation) (i? : Option Identity) (c c' : Client) (p : Phase) :
    Prop where
  identity_eq : c'.identity = i?.getD c.identity
  cache_eq : op.host? ≠ none → c'.cache = c.cache
  suits : ∀ req st, p = .sending req st → st.Suits op c' req
  ne_waiting : op.host? ≠ none → ∀ run, p ≠ .waiting run

namespace Operation

variable {op : Operation} {i? : Option Identity} {s : Scope} {c c' : Client}
  {t : Turn Running Outcome} {p : Phase} {req : Request} {reply : Reply} {st : Running}

namespace Leaves

theorem finish (hi : c'.identity = i?.getD c.identity) (hc : op.host? ≠ none → c'.cache = c.cache)
    (r : Except Failure Outcome) : op.Leaves i? c c' (.finished r) :=
  ⟨hi, hc, fun _ _ hp ↦ (by cases hp), fun _ _ hp ↦ (by cases hp)⟩

theorem ask (hi : c'.identity = i?.getD c.identity) (hc : op.host? ≠ none → c'.cache = c.cache)
    (h : st.Suits op c' req) : op.Leaves i? c c' (.sending req st) := by
  refine ⟨hi, hc, ?_, fun _ _ hp ↦ (by cases hp)⟩
  intro req' st' hp
  cases hp
  exact h

theorem own (h : t.Own s.client.identity) (ho : op.host? = none) :
    op.Leaves none s.client t.scope.client (ofNext t.next) where
  identity_eq := h.signed.identity_eq
  cache_eq hn := absurd ho hn
  suits req st hp := .own (h.isOwn req st (System.next_of_ofNext hp)) ho
  ne_waiting hn := absurd ho hn

theorem send {r : Except Failure Request} (h : ∀ req, r = .ok req → st.Suits op s.client req) :
    op.Leaves none s.client (Turn.send s r st : Turn Running Outcome).scope.client
      (ofNext (Turn.send s r st : Turn Running Outcome).next) := by
  cases r with
  | error f => exact finish rfl (fun _ ↦ rfl) _
  | ok req => exact ask rfl (fun _ ↦ rfl) (h req rfl)

theorem query {q : ResolveQuery} {u : Turn Resolve Resolution} (ho : op.host? = some q.host)
    (hi : u.scope.client.identity = i?.getD c.identity) (hc : u.scope.client.cache = c.cache)
    (ha : ∀ req st, u.next = .send req st → Resolve.Asks q u.scope.client st req)
    (hw : ∀ run, u.next ≠ .wait run) :
    op.Leaves i? c (u.map Running.resolving Outcome.resolution).scope.client
      (ofNext (u.map Running.resolving Outcome.resolution).next) := by
  rw [Turn.scope_map, Resolve.ofNext_map]
  cases hn : u.next with
  | done r => exact finish hi (fun _ ↦ hc) _
  | send req st => exact ask hi (fun _ ↦ hc) (.query ho (ha req st hn))
  | wait run => exact absurd hn (hw run)

end Leaves

theorem exchange_leaves {appToken host namespaceName : String} {id : Int} {f : Value → Outcome}
    (ho : op.host? = some host) :
    let t := (TokenExchange.start appToken host id namespaceName s).map Running.exchanging f
    op.Leaves none s.client t.scope.client (ofNext t.next) := by
  rw [TokenExchange.start_eq]
  cases TokenExchange.request s.client appToken host id with
  | error f => exact .finish rfl (fun _ ↦ rfl) _
  | ok req => exact .ask rfl (fun _ ↦ rfl) (.exchange ho)

theorem query_leaves {q : ResolveQuery} (ho : op.host? = some q.host) :
    let t := (Resolve.start q s).map Running.resolving Outcome.resolution
    op.Leaves none s.client t.scope.client (ofNext t.next) :=
  .ask rfl (fun _ ↦ rfl) (.query ho .listing)

end Operation

theorem Resolve.startConfigured_cases (now : Moment) (settings : Settings) (target : String)
    (headers : Table String) (s : Scope) :
    (∃ f, startConfigured now settings target headers s = .finish s (.error f)) ∨
      ∃ q, q.host = Enterprise.hostOf headers ∧
        startConfigured now settings target headers s = start q s := by
  unfold startConfigured
  cases settings.identity with
  | error f => exact .inl ⟨f, rfl⟩
  | ok app =>
    rw [Turn.ofExcept_ok]
    cases AppToken.now now with
    | error f => exact .inl ⟨f, rfl⟩
    | ok clock =>
      rw [Turn.ofExcept_ok]
      cases AppToken.create (.int app.appId) app.privateKey clock with
      | error f => exact .inl ⟨f, rfl⟩
      | ok token => exact .inr ⟨_, rfl, rfl⟩

namespace Operation

variable {op : Operation} {s : Scope}

theorem immediate_leaves {i : Immediate} (h : ¬ (immediate i).Assigns) (s : Scope) :
    (i.run s).1.client.identity = s.client.identity := by
  cases i with
  | assign => exact absurd trivial h
  | store run v =>
    have hs : s.attach.client.identity = s.client.identity := rfl
    simp only [Immediate.run]
    split
    · rename_i id s' hstore
      exact (CheckRun.Ensure.identity_store hstore).trans hs
    · exact hs
  | reporterCache r =>
    simp only [Immediate.run, Immediate.reporterScope]
    split <;> rfl
  | _ => rfl

theorem start_leaves (ha : ¬ op.Assigns) (caller : Caller) (s : Scope) :
    op.Leaves none s.client (op.start caller s).scope.client
      (ofNext (op.start caller s).next) := by
  cases op with
  | immediate i => exact .finish (immediate_leaves ha s) (fun hn ↦ absurd rfl hn) _
  | call a => exact .send fun _ _ ↦ .call rfl
  | exchangeToken => exact exchange_leaves rfl
  | mintToken =>
    simp only [start, TokenExchange.startUnlessZero]
    split
    · exact .finish rfl (fun _ ↦ rfl) _
    · rw [Turn.map_map]
      exact exchange_leaves rfl
  | listInstallations => exact .ask rfl (fun _ ↦ rfl) .installations
  | resolve q => exact query_leaves rfl
  | resolveConfigured settings target headers =>
    obtain ⟨f, hf⟩ | ⟨q, hq, hs⟩ :=
      Resolve.startConfigured_cases caller.now settings target headers s
    · rw [start, hf]
      exact .finish rfl (fun _ ↦ rfl) _
    · rw [start, hs]
      exact query_leaves (congrArg some hq.symm)
  -- The rest go by the identity that the client has.
  | listRepositories | listCheckRuns | ensureCheckRun | findCheckRun | createCheckRun | publish
  | report => exact .own (own_start (by trivial) caller s) rfl

end Operation

namespace Resolve

theorem Course.adopts {q : ResolveQuery} {c c' : Client} {req : Request} {reply : Reply}
    {r : Resolve} {next : Next Resolve Resolution} (h : Course q c req reply r c' next) :
    c'.identity = ((Running.resolving r).adoption? req reply).getD c.identity ∧
      c'.cache = c.cache := by
  cases h with
  | adopt hm | readopt _ hm =>
    simp only [Running.adoption?, Running.exchange?, TokenExchange.token?_eq_some hm,
      Option.getD_some, and_self]
  | unminted hm =>
    simp only [Running.adoption?, Running.exchange?, TokenExchange.token?_eq_none hm,
      Option.getD_none, and_self]
  | _ => exact ⟨rfl, rfl⟩

end Resolve

namespace Operation

variable {op : Operation} {c : Client} {req : Request} {st : Running}

theorem resume_leaves (h : st.Suits op c req) (now : Moment) (reply : Reply) (s : Scope) :
    op.Leaves (st.adoption? req reply) s.client (st.resume now req reply s).scope.client
      (ofNext (st.resume now req reply s).next) := by
  cases h with
  | own h ho =>
    rw [Running.adoption?_of_exchange? h.exchange?_eq]
    exact .own (own_resume h now req reply s) ho
  | call ho => exact .finish rfl (fun hn ↦ absurd ho hn) _
  | @installations l =>
    simp only [Running.resume, Installation.Listing.resume]
    cases l.read reply <;> exact .finish rfl (fun _ ↦ rfl) _
  | @exchange host namespaceName id _ ho =>
    generalize hx : TokenExchange.mk (Installation.base c host) id namespaceName = x
    cases hm : x.minted req reply with
    | error f =>
      simp only [Running.adoption?, Running.exchange?, TokenExchange.token?_eq_none hm,
        Running.resume, TokenExchange.resume, hm, Turn.ofExcept_error]
      exact .finish rfl (fun _ ↦ rfl) _
    | ok token =>
      simp only [Running.adoption?, Running.exchange?, TokenExchange.token?_eq_some hm,
        Running.resume, TokenExchange.resume, hm, Turn.ofExcept_ok, Turn.map, Turn.done_eq,
        Turn.andThen_log, Turn.andThen_ok, Turn.scope_log, Turn.next_log]
      refine Leaves.finish ?_ (fun _ ↦ ?_) _
      · rfl
      · rfl
  | @query q r _ ho ha =>
    have hc := Resolve.resume_course ha reply s
    obtain ⟨hi, hcache⟩ := hc.adopts
    exact .query ho hi hcache (fun _ _ hn ↦ hc.asks hn) hc.ne_wait

end Operation

namespace System

variable {client : Client} {ops : List Operation} {past : List Move} {sys sys' mid : System}
  {m : Move} {task : Task} {c : Client} {p : Phase} {back : List Packet} {t : TaskId}

def adoption? (sys : System) (m : Move) : Option Identity :=
  match sys.tasks[m.task]?.map Task.phase, sys.incoming m with
  | some (.sending _ st), [.back _ req reply] => st.adoption? req reply
  | _, _ => none

/-- Only a reply grants anything. -/
theorem adoption?_of_incoming_nil (h : sys.incoming m = []) : sys.adoption? m = none := by
  simp only [adoption?, h]
  split
  · rename_i heq
    cases heq
  · rfl

theorem adoption?_eq_some (hf : sys.tasks[m.task]? = some task) {i : Identity} :
    sys.adoption? m = some i ↔ ∃ req st reply x, task.phase = .sending req st ∧
      st.exchange? = some x ∧ m.happening = .reply reply ∧ reply.Grants i.token ∧
      i.apiUrl = x.apiUrl := by
  obtain ⟨op, phase, ctx⟩ := task
  simp only [adoption?, incoming, hf, Option.map_some, Option.bind_eq_bind, Option.bind_some,
    Task.pending?]
  cases phase with
  | sending req st =>
    cases m.happening with
    | reply reply =>
      simp only [Running.adoption?_eq_some]
      constructor
      · rintro ⟨x, hx, hg, hi⟩
        exact ⟨req, st, reply, x, rfl, hx, rfl, hg, hi⟩
      · rintro ⟨_, _, _, x, hp, hx, hr, hg, hi⟩
        cases hp
        cases hr
        exact ⟨x, hx, hg, hi⟩
    | _ => simp
  | _ => simp

/-- The identities that are granted in a run, each with the task that it is granted to. -/
def adoptions : System → List Move → List (TaskId × Identity) :=
  trail fun mid m _ ↦ ((mid.adoption? m).map (m.task, ·)).toList

/-- Whether the last move of a task, in a run from one state to another, led to `asked`. -/
def LastLeft (sys : System) (moves : List Move) (t : TaskId) (asked sys' : System) : Prop :=
  ∃ before mid m after, moves = before ++ m :: after ∧ Cut sys before mid m asked after sys' ∧
    m.task = t ∧ ∀ m' ∈ after, m'.task ≠ t

theorem run_concat (hr : sys.run past = some mid) (hs : mid.step m = some sys') :
    sys.run (past ++ [m]) = some sys' := by
  simp only [run] at hr ⊢
  rw [List.foldlM_append, hr]
  simpa using hs

theorem LastLeft.moved (hr : sys.run past = some mid) (hs : mid.step m = some sys') :
    LastLeft sys (past ++ [m]) m.task sys' sys' :=
  ⟨past, mid, m, [], rfl, ⟨hr, hs, rfl⟩, rfl, fun _ h ↦ by cases h⟩

theorem LastLeft.concat {asked : System} (h : LastLeft sys past t asked mid)
    (hs : mid.step m = some sys') (hne : t ≠ m.task) : LastLeft sys (past ++ [m]) t asked sys' := by
  obtain ⟨before, mid', m', after, rfl, hc, ht, hafter⟩ := h
  refine ⟨before, mid', m', after ++ [m], by simp, ⟨hc.before, hc.step, ?_⟩, ht, ?_⟩
  · exact run_concat hc.after hs
  · intro m'' hm
    obtain hm | hm := List.mem_append.1 hm
    · exact hafter m'' hm
    · rw [List.mem_singleton.1 hm]
      exact hne.symm

theorem Deals.leaves (h : Deals sys m task back c p) (hb : sys.incoming m = back)
    (hf : sys.tasks[m.task]? = some task) (ha : ¬ task.op.Assigns)
    (hsuits : ∀ req st, task.phase = .sending req st → ∃ c, st.Suits task.op c req)
    (hw : task.op.host? ≠ none → ∀ run, task.phase ≠ .waiting run) :
    task.op.Leaves (sys.adoption? m) sys.client c p := by
  have hphase : sys.tasks[m.task]?.map Task.phase = some task.phase := by rw [hf, Option.map_some]
  cases h with
  | start hp ht =>
    subst ht
    simp only [adoption?, hphase, hp]
    exact Operation.start_leaves ha ⟨m.task, m.now⟩ ⟨sys.client, task.context⟩
  | @resume req st reply _ hp ht =>
    subst ht
    obtain ⟨c₀, hst⟩ := hsuits req st hp
    simp only [adoption?, hphase, hp, hb]
    exact Operation.resume_leaves hst m.now reply ⟨sys.client, task.context⟩
  | enter hp ht =>
    obtain ⟨hown, hturn⟩ := Operation.own_enter ht
    simp only [adoption?, hphase, hp]
    exact .own hturn hown.host?_eq
  | cancel hi hc =>
    rw [adoption?_of_incoming_nil hb]
    refine .finish hi (fun hn ↦ ?_) _
    -- Only a task inside a section has anything to give back, and a task for the App never is.
    rw [hc, abandoned]
    cases hp : task.phase with
    | sending req st =>
      obtain ⟨c₀, hst⟩ := hsuits req st hp
      simp only [hst.cancel_eq hn]
    | waiting run => exact absurd hp (hw hn run)
    | _ => rfl

structure Poised (client : Client) (ops : List Operation) (past : List Move) (sys : System)
    (t : TaskId) (task : Task) : Prop where
  not_assigns : ¬ task.op.Assigns
  suits : ∀ req st, task.phase = .sending req st →
    ∃ asked, LastLeft (initial client ops) past t asked sys ∧ st.Suits task.op asked.client req
  ne_waiting : task.op.host? ≠ none → ∀ run, task.phase ≠ .waiting run

theorem Poised.leaves (h : Poised client ops past sys m.task task)
    (hf : sys.tasks[m.task]? = some task)
    (hd : Deals sys m task (sys.incoming m) sys'.client p) :
    task.op.Leaves (sys.adoption? m) sys.client sys'.client p := by
  refine hd.leaves rfl hf h.not_assigns (fun req st hp ↦ ?_) h.ne_waiting
  obtain ⟨asked, -, hsuits⟩ := h.suits req st hp
  exact ⟨asked.client, hsuits⟩

structure Reached (client : Client) (ops : List Operation) (past : List Move) (sys : System) :
    Prop where
  run : (initial client ops).run past = some sys
  tasks : ∀ t task, sys.tasks[t]? = some task → Poised client ops past sys t task

theorem reached_initial (ha : ∀ op ∈ ops, ¬ op.Assigns) :
    Reached client ops [] (initial client ops) := by
  refine ⟨rfl, ?_⟩
  intro t task ht
  obtain ⟨op, hop, rfl⟩ := initial_tasks ht
  exact ⟨ha op (List.mem_of_getElem? hop), fun _ _ hp ↦ (by cases hp), fun _ _ hp ↦ (by cases hp)⟩

theorem Reached.step (h : Reached client ops past sys) (hs : sys.step m = some sys') :
    Reached client ops (past ++ [m]) sys' := by
  obtain ⟨task, p, hc, hd⟩ := step_cases hs
  have hmoved := h.tasks m.task task hc.found
  have hleaves := hmoved.leaves hc.found hd
  refine ⟨run_concat h.run hs, hc.forall_tasks h.tasks (fun ctx ↦ ?_) ?_⟩
  · refine ⟨hmoved.not_assigns, ?_, hleaves.ne_waiting⟩
    intro req st hp
    exact ⟨sys', .moved h.run hs, hleaves.suits req st hp⟩
  · intro t task' hne hpoised
    refine ⟨hpoised.not_assigns, ?_, hpoised.ne_waiting⟩
    intro req st hp
    obtain ⟨asked, hlast, hsuits⟩ := hpoised.suits req st hp
    exact ⟨asked, hlast.concat hs hne, hsuits⟩

theorem Reached.onward {moves : List Move} : ∀ {past : List Move} {mid : System},
    Reached client ops past mid → mid.run moves = some sys →
      Reached client ops (past ++ moves) sys := by
  induction moves with
  | nil =>
    intro past mid h hr
    obtain rfl := Option.some.inj hr
    rwa [List.append_nil]
  | cons m moves ih =>
    intro past mid h hr
    obtain ⟨mid', hs, hr⟩ := Option.bind_eq_some_iff.1 hr
    have hrest := ih (h.step hs) hr
    rwa [List.append_assoc] at hrest

theorem Reached.identity_eq {during : List Move} : ∀ {past : List Move} {mid : System},
    Reached client ops past mid → mid.run during = some sys →
      sys.client.identity =
        ((mid.adoptions during).map Prod.snd).getLastD mid.client.identity := by
  -- The past grows as the rest of the run gets shorter, so it is not fixed here.
  induction during with
  | nil =>
    intro past mid _ hr
    obtain rfl := Option.some.inj hr
    rfl
  | cons m during ih =>
    intro past mid h hr
    obtain ⟨mid', hs, hr⟩ := Option.bind_eq_some_iff.1 hr
    obtain ⟨task, p, hc, hd⟩ := step_cases hs
    have hmoved := ((h.tasks m.task task hc.found).leaves hc.found hd).identity_eq
    rw [ih (h.step hs) hr, hmoved, adoptions, trail_cons hs, List.map_append]
    cases mid.adoption? m with
    | none => rfl
    | some i => exact List.getLastD_cons.symm

def grantedTo (t : TaskId) (granted : List (TaskId × Identity)) : List Identity :=
  (granted.filter (·.1 == t)).map Prod.snd

/-- From wherever a run has led to: a move changes the identity just when it grants one to its task,
and then to the base that the host of the task had when the task last moved, which is when it asked,
with the token that is granted; and a task that acts for the App leaves the cache alone. So the
identity is always the one that was granted last. A query that fails, while nobody else is granted
anything, leaves the identity of its last exchange, or the one from before. -/
theorem identity_changes_by_exchange (ha : ∀ op ∈ ops, ¬ op.Assigns)
    (hp : (initial client ops).run past = some mid) :
    (∀ m mid' task, mid.step m = some mid' → mid.tasks[m.task]? = some task →
      mid'.client.identity = (mid.adoption? m).getD mid.client.identity ∧
      (∀ i, mid.adoption? m = some i → ∃ asked host,
        LastLeft (initial client ops) past m.task asked mid ∧ task.op.host? = some host ∧
        i.apiUrl = Installation.base asked.client host) ∧
      (task.op.host? ≠ none → mid'.client.cache = mid.client.cache)) ∧
    ∀ during sys, mid.run during = some sys →
      sys.client.identity =
        ((mid.adoptions during).map Prod.snd).getLastD mid.client.identity ∧
      ∀ t task f, mid.tasks[t]? = some task → task.op.IsQuery → task.phase = .ready →
        sys.tasks[t]?.map Task.phase = some (.finished (.error f)) →
        (∀ granted ∈ mid.adoptions during, granted.1 = t) →
          sys.client.identity =
            (grantedTo t (mid.adoptions during)).getLastD mid.client.identity := by
  have hreached : Reached client ops past mid := by
    have h := (reached_initial ha).onward hp
    rwa [List.nil_append] at h
  refine ⟨?_, ?_⟩
  · intro m mid' task hs ht
    obtain ⟨task', p, hc, hd⟩ := step_cases hs
    obtain rfl := Option.some.inj (hc.found.symm.trans ht)
    have hpoised := hreached.tasks m.task task' ht
    have hleaves := hpoised.leaves ht hd
    refine ⟨hleaves.identity_eq, ?_, hleaves.cache_eq⟩
    intro i hi
    obtain ⟨req, st, reply, x, hphase, hx, -, -, hbase⟩ := (adoption?_eq_some ht).1 hi
    obtain ⟨asked, hlast, hsuits⟩ := hpoised.suits req st hphase
    obtain ⟨host, hhost, hurl⟩ := hsuits.apiUrl_eq hx
    exact ⟨asked, host, hlast, hhost, hbase.trans hurl⟩
  · intro during sys hr
    have hlast := hreached.identity_eq hr
    refine ⟨hlast, ?_⟩
    intro t task f _ _ _ _ hown
    have hall : (mid.adoptions during).filter (·.1 == t) = mid.adoptions during := by
      simpa only [List.filter_eq_self, beq_iff_eq] using hown
    rw [grantedTo, hall]
    exact hlast

end System

namespace Sample

def midwayMoves : List Move :=
  [start 0, answer 0 (listing [1, 2]), answer 0 (grant "t1"), answer 0 (page []),
    ⟨0, morning, .reply unauthorized⟩]

end Sample

namespace System

theorem identity_changes_by_exchange_midway :
    (∀ op ∈ [Operation.resolve Sample.appQuery], ¬ op.Assigns) ∧
      ∃ sys f,
        (initial Sample.appClient [.resolve Sample.appQuery]).run Sample.midwayMoves = some sys ∧
        sys.tasks[0]?.map Task.phase = some (.finished (.error f)) ∧
        sys.client.identity = ⟨"https://api.github.com", .str "t1"⟩ := by
  have ha : ∀ op ∈ [Operation.resolve Sample.appQuery], ¬ op.Assigns := by
    intro op hop
    rw [List.mem_singleton.1 hop]
    exact id
  obtain ⟨sys, f, hr, hf⟩ : ∃ sys f,
      (initial Sample.appClient [.resolve Sample.appQuery]).run Sample.midwayMoves = some sys ∧
        sys.tasks[0]?.map Task.phase = some (.finished (.error f)) := ⟨_, _, rfl, rfl⟩
  have hgranted : (initial Sample.appClient [.resolve Sample.appQuery]).adoptions
      Sample.midwayMoves = [(0, ⟨"https://api.github.com", .str "t1"⟩)] := rfl
  have hstart : (initial Sample.appClient [.resolve Sample.appQuery]).run [] =
      some (initial Sample.appClient [.resolve Sample.appQuery]) := rfl
  obtain ⟨-, hstretch⟩ := identity_changes_by_exchange ha hstart
  obtain ⟨-, hquery⟩ := hstretch Sample.midwayMoves sys hr
  have hlast := hquery 0 _ f rfl trivial rfl hf (by simp [hgranted])
  rw [hgranted] at hlast
  exact ⟨ha, sys, f, hr, hf, hlast⟩

end System
end StatusRelay
