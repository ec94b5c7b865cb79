import StatusRelay.Proofs.Installation.QueryCourse
import StatusRelay.Proofs.Task.Misreading
import StatusRelay.Proofs.Task.Traffic

namespace StatusRelay

namespace Operation

def mayList : Operation → Bool
  | listInstallations _ _ | resolve _ => true
  | _ => false

def mayAsk : Operation → Bool
  | listInstallations _ _ => false
  | _ => true

end Operation

/-- The failure with which a reply to a request ends the operation that waits for it. Unless it was
the installations that were asked for, the reason of a rejection is looked up in its body, and a body
that is nested too deeply hides the rejection. -/
inductive Reply.Refuses (op : Operation) (req : Request) : Reply → Failure → Prop
  | rejected {r : Response} {detail : Option String} (ho : op.mayAsk = true)
      (h : r.isRejection = true) (hd : r.reason = .ok detail) :
      Refuses op req (.answered r) (.rejected req.url r.status detail)
  | listing {r : Response} (ho : op.mayList = true) (h : r.isRejection = true) :
      Refuses op req (.answered r)
        (.rejected req.url r.status (some Installation.rejectionDetail))
  | nested {r : Response} {fault : Json.ReadFault} (ho : op.mayAsk = true)
      (h : r.isRejection = true) (hb : r.body.Escapes fault) :
      Refuses op req (.answered r) (.bodyUnread fault)
  | broken {kind message : String} :
      Refuses op req (.broken kind message) (.network kind message)

def Reply.IsRefusal : Reply → Prop
  | answered r => r.isRejection = true
  | broken _ _ => True

namespace Failure

/-- The failures that come from the network or as a rejection. -/
def IsRemote : Failure → Prop
  | rejected _ _ _ | network _ _ => True
  | _ => False

theorem IsLocal.not_isRemote {now : Moment} {f : Failure} (h : f.IsLocal now) : ¬ f.IsRemote := by
  cases h <;> exact id

theorem IsForeign.not_isRemote {f : Failure} (h : f.IsForeign) : ¬ f.IsRemote := by
  cases f with
  | rejected | network => exact h.elim
  | _ => exact id

end Failure

namespace Reading

variable {r : Reading} {op : Operation} {req : Request} {reply : Reply} {f : Failure}

structure Serves (r : Reading) (op : Operation) (req : Request) : Prop where
  checked : r.isChecked = true
  listing : r = .installations req.url ∧ op.mayList = true ∨
    (∀ url, r ≠ .installations url) ∧ op.mayAsk = true

theorem read_of_isRefusal (hs : r.Serves op req) (h : reply.IsRefusal) :
    ∃ f, r.read req reply = .error f ∧ reply.Refuses op req f := by
  cases reply with
  | broken kind message => exact ⟨_, rfl, .broken⟩
  | answered resp =>
    have hr : resp.isRejection = true := h
    have hread : r.read req (.answered resp) = .error (r.rejection req resp) := by
      simp only [read, hs.checked, hr, Bool.and_self, if_true]
    refine ⟨_, hread, ?_⟩
    obtain ⟨rfl, ho⟩ | ⟨hne, ho⟩ := hs.listing
    · exact .listing ho hr
    · rw [rejection_of_ne hne]
      by_cases hb : ∃ fault, resp.body.Escapes fault
      · obtain ⟨fault, hfault⟩ := hb
        rw [Response.rejection_of_escapes hfault]
        exact .nested ho hr hfault
      · obtain ⟨detail, hdetail⟩ := Response.exists_reason (not_exists.1 hb)
        rw [Response.rejection_eq hdetail]
        exact .rejected ho hr hdetail

theorem refuses_of_read (hs : r.Serves op req) (h : r.read req reply = .error f)
    (hf : f.IsRemote) : reply.Refuses op req f := by
  by_cases hrefusal : reply.IsRefusal
  · obtain ⟨f', hread, hrefuses⟩ := read_of_isRefusal hs hrefusal
    obtain rfl : f = f' := Except.error.inj (h.symm.trans hread)
    exact hrefuses
  · cases reply with
    | broken => exact absurd trivial hrefusal
    | answered resp =>
      have hr : resp.isRejection = false := Bool.eq_false_iff.2 hrefusal
      rw [read, hr, Bool.and_false, if_neg Bool.false_ne_true] at h
      obtain hforeign | ⟨fault, rfl⟩ := (judges_ofBody r resp.body).cases f h
      · exact absurd hf hforeign.not_isRemote
      · exact hf.elim

end Reading

namespace Running

def Names (op : Operation) (req : Request) : Running → Prop
  | call c => op = .call c
  | listingInstallations l => l.url = req.url ∧ op.mayList = true
  | resolving r => (∃ q, op = .resolve q) ∧ ∃ q c, Resolve.Asks q c r req
  | _ => op.mayAsk = true

variable {op : Operation} {req : Request} {st : Running}

theorem Names.serves_reading (h : st.Names op req) (ho : op.IsChecked) :
    st.reading.Serves op req := by
  cases st with
  | call c =>
    obtain rfl : op = .call c := h
    cases c with
    | unchecked => exact ho.elim
    | _ => exact ⟨rfl, .inr ⟨nofun, rfl⟩⟩
  | listingInstallations l => exact ⟨rfl, .inl ⟨congrArg Reading.installations h.1, h.2⟩⟩
  | resolving r =>
    obtain ⟨⟨q, rfl⟩, q', c, ha⟩ := h
    cases ha with
    | listing => exact ⟨rfl, .inl ⟨rfl, rfl⟩⟩
    | _ => exact ⟨rfl, .inr ⟨nofun, rfl⟩⟩
  | ensuring e => cases e <;> exact ⟨rfl, .inr ⟨nofun, h⟩⟩
  | publishing p | reporting p =>
    cases p with
    | ensuring e => cases e <;> exact ⟨rfl, .inr ⟨nofun, h⟩⟩
    | _ => exact ⟨rfl, .inr ⟨nofun, h⟩⟩
  | _ => exact ⟨rfl, .inr ⟨nofun, h⟩⟩

end Running

namespace Turn

theorem names_map {σ α : Type} {op : Operation} {req : Request} {st : Running} {t : Turn σ α}
    {wrap : σ → Running} {f : α → Outcome} (h : (t.map wrap f).next = .send req st)
    (hw : ∀ st, (wrap st).Names op req) : st.Names op req := by
  obtain ⟨st', rfl, -⟩ := next_map h
  exact hw st'

end Turn

namespace Operation

variable {op : Operation} {caller : Caller} {now : Moment} {s : Scope} {req req' : Request}
  {st st' : Running} {f : Failure}

theorem names_of_resolve {t : Turn Resolve Resolution} (ho : ∃ q, op = .resolve q)
    (h : (t.map Running.resolving Outcome.resolution).next = .send req st)
    (ht : ∀ req st, t.next = .send req st → ∃ q c, Resolve.Asks q c st req) : st.Names op req := by
  obtain ⟨st', rfl, hn⟩ := Turn.next_map h
  exact ⟨ho, ht req st' hn⟩

theorem asks_of_start {q : ResolveQuery} {st : Resolve}
    (h : (Resolve.start q s).next = .send req st) : ∃ q c, Resolve.Asks q c st req := by
  obtain ⟨-, st', req', hn, ha⟩ := Resolve.start_asks (q := q) (s := s)
  cases hn.symm.trans h
  exact ⟨_, _, ha⟩

theorem start_names (ho : op.IsChecked) (h : (op.start caller s).next = .send req st) :
    st.Names op req := by
  cases op with
  | immediate => cases h
  | call c =>
    simp only [start] at h
    cases hr : c.request s.client with
    | error f =>
      rw [hr] at h
      cases h
    | ok req' =>
      rw [hr] at h
      cases h
      rfl
  | listInstallations appToken host =>
    obtain ⟨l, rfl, hn⟩ := Turn.next_map h
    obtain ⟨rfl, rfl⟩ := Next.send.inj hn
    exact ⟨rfl, rfl⟩
  | resolve q => exact names_of_resolve ⟨q, rfl⟩ h fun _ _ ↦ asks_of_start
  | resolveConfigured => exact ho.elim
  | exchangeToken | mintToken | listRepositories | listCheckRuns | ensureCheckRun | findCheckRun
  | createCheckRun | publish | report => exact Turn.names_map h fun _ ↦ rfl

theorem enter_names {u : Turn Running Outcome} (hu : op.enter? caller s = some u)
    (h : u.next = .send req st) : st.Names op req := by
  cases op with
  | ensureCheckRun g =>
    obtain rfl := Option.some.inj hu
    exact Turn.names_map h fun _ ↦ rfl
  | publish sink w =>
    cases sink with
    | checkRun appId =>
      obtain rfl := Option.some.inj hu
      exact Turn.names_map h fun _ ↦ rfl
    | commitStatus => cases hu
  | report r w =>
    obtain rfl := Option.some.inj hu
    exact Turn.names_map h fun _ ↦ rfl
  | _ => cases hu

theorem resume_names {reply : Reply} (hst : st.Names op req)
    (h : (st.resume now req reply s).next = .send req' st') : st'.Names op req' := by
  cases st with
  | call => cases h
  | listingInstallations l =>
    obtain ⟨st', rfl, hn⟩ := Turn.next_map h
    cases hn
  | resolving r =>
    obtain ⟨ho, q, c, ha⟩ := hst
    refine names_of_resolve ho h fun req st hn ↦ ?_
    exact ⟨q, _, (Resolve.resume_course ha reply s).asks hn⟩
  | exchanging | listingRepositories | listingCheckRuns | ensuring | finding | creating
  | publishing | reporting => exact Turn.names_map h fun _ ↦ hst

end Operation

def Packet.task : Packet → TaskId
  | out t _ => t
  | back t _ _ => t

namespace System

variable {client : Client} {ops : List Operation} {past back : List Packet} {sys sys' : System}
  {m : Move} {task : Task} {c : Client} {p : Phase}

theorem task_of_mem_incoming {x : Packet} (hx : x ∈ sys.incoming m) : x.task = m.task := by
  obtain hi | ⟨req, reply, hi⟩ := incoming_cases sys m
  · rw [hi] at hx
    cases hx
  · rw [hi, List.mem_singleton] at hx
    rw [hx]
    rfl

theorem Carries.task_of_mem_outgoing (h : Carries sys m task p sys') {x : Packet}
    (hx : x ∈ sys.outgoing sys') : x.task = m.task := by
  rw [h.outgoing_eq, Option.mem_toList, Option.map_eq_some_iff] at hx
  obtain ⟨req, -, rfl⟩ := hx
  rfl

/-- What the past of a system tells about a task: the state it is in, what has become of a refusal,
and where its failure comes from. -/
structure Heeded (past : List Packet) (t : TaskId) (task : Task) : Prop where
  names : ∀ req st, task.phase = .sending req st → st.Names task.op req
  refused : ∀ req reply, .back t req reply ∈ past → reply.IsRefusal →
    (past.filter (·.task == t)).getLast? = some (.back t req reply) ∧
      ∃ f, task.phase = .finished (.error f) ∧ reply.Refuses task.op req f
  source : ∀ f, task.phase = .finished (.error f) → f.IsRemote →
    ∃ req reply, .back t req reply ∈ past ∧ reply.Refuses task.op req f

/-- What a move makes of its task, which waited for nothing or for just this reply. -/
theorem Deals.heeded (h : Deals sys m task back c p) (ho : task.op.IsChecked)
    (hn : ∀ req st, task.phase = .sending req st → st.Names task.op req) :
    (∀ req st, p = .sending req st → st.Names task.op req) ∧
    (∀ req reply, .back m.task req reply ∈ back → reply.IsRefusal →
      ∃ f, p = .finished (.error f) ∧ reply.Refuses task.op req f) ∧
    ∀ f, p = .finished (.error f) → f.IsRemote →
      ∃ req reply, .back m.task req reply ∈ back ∧ reply.Refuses task.op req f := by
  cases h with
  | start hp ht =>
    subst ht
    refine ⟨?_, fun _ _ hb ↦ (by cases hb), ?_⟩
    · exact fun req st hnext ↦ Operation.start_names ho (next_of_ofNext hnext)
    · intro f hf hr
      obtain hf | hf := (Operation.isFree_start ho m.task _).only f (done_of_ofNext hf)
      · cases hf
      · exact absurd hr hf.not_isRemote
  | enter hp ht =>
    refine ⟨?_, fun _ _ hb ↦ (by cases hb), ?_⟩
    · exact fun req st hnext ↦ Operation.enter_names ht (next_of_ofNext hnext)
    · intro f hf hr
      obtain hf | hf := (Operation.isFree_enter ht).only f (done_of_ofNext hf)
      · cases hf
      · exact absurd hr hf.not_isRemote
  | @resume req st reply _ hp ht =>
    subst ht
    have hst := hn req st hp
    obtain ⟨hfails, honly⟩ := st.heeds_resume m.now req reply ⟨sys.client, task.context⟩
    refine ⟨?_, ?_, ?_⟩
    · exact fun req' st' hnext ↦ Operation.resume_names hst (next_of_ofNext hnext)
    · intro req' reply' hb hrefusal
      simp only [List.mem_singleton, Packet.back.injEq, true_and] at hb
      obtain ⟨rfl, rfl⟩ := hb
      obtain ⟨f, hread, hf⟩ := Reading.read_of_isRefusal (hst.serves_reading ho) hrefusal
      exact ⟨f, by rw [hfails f hread]; rfl, hf⟩
    · intro f hf hr
      obtain hread | hlocal := honly f (done_of_ofNext hf)
      · have hrefuses := Reading.refuses_of_read (hst.serves_reading ho) hread hr
        exact ⟨req, reply, List.mem_singleton_self _, hrefuses⟩
      · exact absurd hr hlocal.not_isRemote
  | cancel hi =>
    refine ⟨fun _ _ hp ↦ (by cases hp), fun _ _ hb ↦ (by cases hb), ?_⟩
    intro f hf hr
    cases hf
    exact hr.elim

/-- A packet of another task changes nothing for a task. -/
theorem Heeded.append {t : TaskId} {new : List Packet} (h : Heeded past t task)
    (hnew : ∀ x ∈ new, x.task ≠ t) : Heeded (past ++ new) t task where
  names := h.names
  refused req reply hb hr := by
    have hfilter : new.filter (·.task == t) = [] := by
      simpa only [List.filter_eq_nil_iff, beq_iff_eq] using hnew
    rw [List.filter_append, hfilter, List.append_nil]
    obtain hb | hb := List.mem_append.1 hb
    · exact h.refused req reply hb hr
    · exact absurd rfl (hnew _ hb)
  source f hf hr := by
    obtain ⟨req, reply, hb, hrefuses⟩ := h.source f hf hr
    exact ⟨req, reply, List.mem_append_left _ hb, hrefuses⟩

theorem Heeded.move (h : Heeded past m.task task) (ho : task.op.IsChecked)
    (hs : sys.step m = some sys') (hc : Carries sys m task p sys')
    (hd : Deals sys m task (sys.incoming m) sys'.client p) (ctx : RunContext) :
    Heeded (past ++ (sys.incoming m ++ sys.outgoing sys')) m.task ⟨task.op, p, ctx⟩ := by
  obtain ⟨hnames, hrefused, hsource⟩ := hd.heeded ho h.names
  refine ⟨hnames, ?_, ?_⟩
  · intro req reply hb hr
    -- A refusal from before would have finished the task, and this move could not be made.
    have hbefore : .back m.task req reply ∉ past := by
      intro hb
      obtain ⟨-, f, hf, -⟩ := h.refused req reply hb hr
      exact not_finished_of_step hs hc.found _ hf
    obtain hb | hb := List.mem_append.1 hb
    · exact absurd hb hbefore
    · obtain hb | hb := List.mem_append.1 hb
      · obtain ⟨f, hp, hrefuses⟩ := hrefused req reply hb hr
        have hin : sys.incoming m = [.back m.task req reply] := by
          obtain hi | ⟨req', reply', hi⟩ := incoming_cases sys m
          · rw [hi] at hb
            cases hb
          · rw [hi, List.mem_singleton] at hb
            rw [hi, hb]
        have hout : sys.outgoing sys' = [] := by
          rw [hc.outgoing_eq, hp]
          rfl
        refine ⟨?_, f, hp, hrefuses⟩
        rw [hin, hout, List.append_nil, List.filter_append]
        simp [Packet.task]
      · rw [hc.outgoing_eq, Option.mem_toList, Option.map_eq_some_iff] at hb
        obtain ⟨req', -, hb⟩ := hb
        cases hb
  · intro f hf hr
    obtain ⟨req, reply, hb, hrefuses⟩ := hsource f hf hr
    exact ⟨req, reply, List.mem_append_right _ (List.mem_append_left _ hb), hrefuses⟩

def HeedsAll (past : List Packet) (sys : System) : Prop :=
  ∀ (t : TaskId) (task : Task), sys.tasks[t]? = some task → task.op.IsChecked → Heeded past t task

theorem heedsAll_initial : HeedsAll [] (initial client ops) := by
  intro t task ht _
  obtain ⟨op, hop, rfl⟩ := initial_tasks ht
  exact ⟨fun _ _ hp ↦ (by cases hp), fun _ _ hb ↦ (by cases hb), fun _ hp ↦ (by cases hp)⟩

theorem HeedsAll.step (h : HeedsAll past sys) (hs : sys.step m = some sys') :
    HeedsAll (past ++ (sys.incoming m ++ sys.outgoing sys')) sys' := by
  obtain ⟨task, p, hc, hd⟩ := step_cases hs
  refine hc.forall_tasks h (fun ctx ho ↦ (h m.task task hc.found ho).move ho hs hc hd ctx) ?_
  intro t task' hne hheeded ho
  refine (hheeded ho).append fun x hx ↦ ?_
  obtain hx | hx := List.mem_append.1 hx
  · rw [task_of_mem_incoming hx]
    exact hne.symm
  · rw [hc.task_of_mem_outgoing hx]
    exact hne.symm

/-- Whatever else is under way: a refusal is the last that passes between a task and the network.
The task has finished with the failure that the refusal stands for, a rejection with the URL and the
status of the one request. And no task fails as if it was refused that was not. -/
theorem refusal_is_final {moves : List Move} (hr : (initial client ops).run moves = some sys)
    {t : TaskId} (ht : sys.tasks[t]? = some task) (ho : task.op.IsChecked) :
    let past := (initial client ops).traffic moves
    (∀ req reply, .back t req reply ∈ past → reply.IsRefusal →
      (past.filter (·.task == t)).getLast? = some (.back t req reply) ∧
        ∃ f, task.phase = .finished (.error f) ∧ reply.Refuses task.op req f) ∧
    ∀ f, task.phase = .finished (.error f) → f.IsRemote →
      ∃ req reply, .back t req reply ∈ past ∧ reply.Refuses task.op req f := by
  have h := traffic_induction (P := HeedsAll) heedsAll_initial HeedsAll.step hr t task ht ho
  exact ⟨h.refused, h.source⟩

end System

namespace Sample

def unauthorized : Reply := .answered ⟨401, .json (.arr [])⟩

def turnedAway : List Move := [start 0, answer 0 (listing [1]), ⟨0, morning, .reply unauthorized⟩]

end Sample

namespace System

theorem refusal_is_final_exchange :
    ∃ sys task req, (initial Sample.appClient [.resolve Sample.appQuery]).run Sample.turnedAway =
        some sys ∧ sys.tasks[0]? = some task ∧ task.op.IsChecked ∧
      let past := (initial Sample.appClient [.resolve Sample.appQuery]).traffic Sample.turnedAway
      .back 0 req Sample.unauthorized ∈ past ∧
        (past.filter (·.task == 0)).getLast? = some (.back 0 req Sample.unauthorized) ∧
        (∃ f, task.phase = .finished (.error f) ∧ Sample.unauthorized.Refuses task.op req f) ∧
        ∀ f, task.phase = .finished (.error f) → f.IsRemote →
          ∃ req reply, .back 0 req reply ∈ past ∧ reply.Refuses task.op req f := by
  obtain ⟨sys, task, hr, ht, ho⟩ : ∃ sys task,
      (initial Sample.appClient [.resolve Sample.appQuery]).run Sample.turnedAway = some sys ∧
        sys.tasks[0]? = some task ∧ task.op.IsChecked := ⟨_, _, rfl, rfl, trivial⟩
  obtain ⟨req, hb⟩ : ∃ req, .back 0 req Sample.unauthorized ∈
      (initial Sample.appClient [.resolve Sample.appQuery]).traffic Sample.turnedAway := by
    obtain ⟨a, b, req, ht⟩ : ∃ a b req,
        (initial Sample.appClient [.resolve Sample.appQuery]).traffic Sample.turnedAway =
          [.out 0 a, .back 0 a b, .out 0 req, .back 0 req Sample.unauthorized] :=
      ⟨_, _, _, rfl⟩
    exact ⟨req, by simp [ht]⟩
  obtain ⟨hrefused, hsource⟩ := refusal_is_final hr ht ho
  obtain ⟨hlast, hfinished⟩ := hrefused req _ hb rfl
  exact ⟨sys, task, req, hr, ht, ho, hb, hlast, hfinished, hsource⟩

/-- An error of the server with a body that is nested too deeply does not come out as a rejection. -/
theorem nested_rejection_hidden :
    let client : Client := .create "https://api.github.com" (.str "t")
    let body := Body.ofText (String.ofList (List.replicate 100000 '['))
    ∃ sys task, (initial client [.listRepositories]).run
        [Sample.start 0, ⟨0, Sample.morning, .reply (.answered ⟨500, body⟩)⟩] = some sys ∧
      sys.tasks[0]? = some task ∧
      task.phase = .finished (.error (.bodyUnread .nestedTooDeep)) := by
  intro client body
  obtain ⟨text, hbody, -⟩ : body.Escapes .nestedTooDeep := Body.escapes_nested (by decide)
  rw [hbody]
  exact ⟨_, _, rfl, rfl, rfl⟩

end System
end StatusRelay
