import StatusRelay.Proofs.CheckRun.Section
import StatusRelay.Task.System

namespace StatusRelay

open Json (Value)
open CheckRun (Goal Ensure)
open CheckRun.Ensure (Asks Answered Entered Started Resumed granted released filled)

namespace Operation

def goal? : Operation → Option Goal
  | ensureCheckRun g => some g
  | publish (.checkRun appId) w => some ⟨w, appId⟩
  | report r w => if w.event.onCommit then none else some ⟨w.worded, r.appId⟩
  | _ => none

inductive Wants : Operation → Goal → Prop
  | ensure (g : Goal) : Wants (ensureCheckRun g) g
  | publish (appId : Int) (w : StatusWrite) : Wants (publish (.checkRun appId) w) ⟨w, appId⟩
  | report (r : Reporter) (w : StatusWrite) (h : w.event.onCommit = false) :
      Wants (report r w) ⟨w.worded, r.appId⟩

theorem wants_of_goal? {op : Operation} {g : Goal} (h : op.goal? = some g) : op.Wants g := by
  cases op with
  | ensureCheckRun g' =>
    obtain rfl : g' = g := by simpa only [goal?, Option.some.injEq] using h
    exact .ensure g'
  | publish sink w =>
    cases sink with
    | commitStatus => simp [goal?] at h
    | checkRun appId =>
      obtain rfl : ⟨w, appId⟩ = g := by simpa only [goal?, Option.some.injEq] using h
      exact .publish appId w
  | report r w =>
    by_cases hc : w.event.onCommit
    · simp [goal?, hc] at h
    · obtain rfl : ⟨w.worded, r.appId⟩ = g := by simpa [goal?, hc] using h
      exact .report r w (by simpa using hc)
  | _ => simp [goal?] at h

theorem Wants.goal?_eq {op : Operation} {g : Goal} (h : op.Wants g) : op.goal? = some g := by
  cases h with
  | report r w hc => simp [goal?, hc]
  | _ => rfl

def holding (op : Operation) (e : Ensure) : Running :=
  match op with
  | publish _ _ => .publishing (.ensuring e)
  | report _ _ => .reporting (.ensuring e)
  | _ => .ensuring e

def updating? : Operation → Option Running
  | publish _ _ => some (.publishing .updating)
  | report _ _ => some (.reporting .updating)
  | _ => none

def conclude (op : Operation) (now : Moment) (t : Turn Ensure Int) : Turn Running Outcome :=
  match op with
  | publish _ w => (t.andThen .ensuring (Publish.update now w)).map .publishing fun _ ↦ .written
  | report _ w =>
    (Reporter.close (t.andThen .ensuring (Publish.update now w.worded))).map .reporting
      fun _ ↦ .written
  | _ => t.map .ensuring .checkRun

end Operation

namespace StatusWrite

def Updates (w : StatusWrite) (i : Identity) (id : Int) (req : Request) : Prop :=
  ∃ now body bearer, w.updatePayload? now = some body ∧
    req = ⟨"PATCH", i.url (w.checkRunPath id), bearer, some body, none⟩

/-- The requests by which a status gets to a commit: its own, and that of its comment. -/
inductive Posts (w : StatusWrite) : Request → Prop
  | status {i : Identity} {now : Moment} {body bearer : Value}
      (h : w.statusPayload? now = some body) :
      Posts w ⟨"POST", i.url w.statusesPath, bearer, some body, none⟩
  | comment {i : Identity} {bearer : Value} :
      Posts w ⟨"POST", i.url w.commentsPath, bearer, some (commentPayload w.status.comment), none⟩

end StatusWrite

namespace Task

inductive Settled (i : Identity) (op : Operation) (g : Goal) (id : Int) : Phase → Prop
  | answer (h : op.updating? = none) : Settled i op g id (.finished (.ok (.checkRun id)))
  | update {st : Running} {req : Request} (h : op.updating? = some st)
      (hr : g.write.Updates i id req) : Settled i op g id (.sending req st)
  | fail {st : Running} {f : Failure} (h : op.updating? = some st) :
      Settled i op g id (.finished (.error f))

inductive Leads (i : Identity) (op : Operation) (g : Goal) : Next Ensure Int → Phase → Prop
  | ask {req : Request} {e : Ensure} : Leads i op g (.send req e) (.sending req (op.holding e))
  | wait {run : String} : Leads i op g (.wait run) (.waiting run)
  | fail {f : Failure} : Leads i op g (.done (.error f)) (.finished (.error f))
  | settle {id : Int} {p : Phase} (h : Settled i op g id p) : Leads i op g (.done (.ok id)) p

end Task

namespace Publish

theorem update_cases (now : Moment) (w : StatusWrite) (s : Scope) (id : Int) :
    (∃ f, update now w s id = .finish s (.error f)) ∨
      ∃ req, w.Updates s.client.identity id req ∧
        update now w s id = ⟨s, [], .send req updating⟩ := by
  cases hb : w.updatePayload? now with
  | none => exact .inl ⟨.timeOutOfRange, by simp only [update, hb, Turn.fail_eq]⟩
  | some body =>
    cases hr : s.client.send "PATCH" (w.checkRunPath id) body with
    | error f => exact .inl ⟨f, by simp only [update, hb, hr, Turn.send_error]⟩
    | ok req =>
      obtain ⟨bearer, -, rfl⟩ := Client.request_eq_ok hr
      exact .inr ⟨_, ⟨now, body, bearer, hb, rfl⟩, by simp only [update, hb, hr, Turn.send_ok]⟩

theorem post_cases (now : Moment) (w : StatusWrite) (s : Scope) :
    (∃ f, post now w s = .finish s (.error f)) ∨
      ∃ req, w.Posts req ∧ post now w s = ⟨s, [], .send req (posting w)⟩ := by
  cases hb : w.statusPayload? now with
  | none => exact .inl ⟨.timeOutOfRange, by simp only [post, hb, Turn.fail_eq]⟩
  | some body =>
    cases hr : s.client.send "POST" w.statusesPath body with
    | error f => exact .inl ⟨f, by simp only [post, hb, hr, Turn.send_error]⟩
    | ok req =>
      obtain ⟨bearer, -, hreq⟩ := Client.request_eq_ok hr
      exact .inr ⟨req, hreq ▸ .status hb, by simp only [post, hb, hr, Turn.send_ok]⟩

theorem comment_cases (w : StatusWrite) (s : Scope) :
    (∃ r, comment w s = .finish s r) ∨
      ∃ req, w.Posts req ∧ comment w s = ⟨s, [], .send req commenting⟩ := by
  cases hw : w.status.wantsComment w.event with
  | false =>
    refine .inl ⟨.ok (), ?_⟩
    simp only [comment, hw, Bool.false_eq_true, if_false, Turn.done_eq]
  | true =>
    cases hr : s.client.send "POST" w.commentsPath (commentPayload w.status.comment) with
    | error f => exact .inl ⟨.error f, by simp only [comment, hw, hr, if_true, Turn.send_error]⟩
    | ok req =>
      obtain ⟨bearer, -, hreq⟩ := Client.request_eq_ok hr
      exact .inr ⟨req, hreq ▸ .comment, by simp only [comment, hw, hr, if_true, Turn.send_ok]⟩

end Publish

namespace Operation

open StatusRelay.Task (Leads Settled)

variable {op : Operation} {g : Goal}

theorem conclude_leads (hg : op.Wants g) (now : Moment) (t : Turn Ensure Int) :
    (op.conclude now t).scope.client = t.scope.client ∧
      Leads t.scope.client.identity op g t.next (.ofNext (op.conclude now t).next) := by
  obtain ⟨s, rs, next⟩ := t
  match next with
  | .send req e => cases hg <;> exact ⟨rfl, .ask⟩
  | .wait run => cases hg <;> exact ⟨rfl, .wait⟩
  | .done (.error f) => cases hg <;> exact ⟨rfl, .fail⟩
  | .done (.ok id) =>
    cases hg with
    | ensure => exact ⟨rfl, .settle (.answer rfl)⟩
    | publish appId w =>
      obtain ⟨f, hu⟩ | ⟨req, hr, hu⟩ := Publish.update_cases now w s id
      · simp only [conclude, Turn.andThen, Turn.map, Turn.followedBy]
        rw [hu]
        exact ⟨rfl, .settle (.fail rfl)⟩
      · simp only [conclude, Turn.andThen, Turn.map, Turn.followedBy]
        rw [hu]
        exact ⟨rfl, .settle (.update rfl hr)⟩
    | report r w =>
      obtain ⟨f, hu⟩ | ⟨req, hr, hu⟩ := Publish.update_cases now w.worded s id
      · simp only [conclude, Reporter.close, Turn.andThen, Turn.map, Turn.followedBy]
        rw [hu]
        exact ⟨rfl, .settle (.fail rfl)⟩
      · simp only [conclude, Reporter.close, Turn.andThen, Turn.map, Turn.followedBy]
        rw [hu]
        exact ⟨rfl, .settle (.update rfl hr)⟩

theorem resume_holding (hg : op.Wants g) {e : Ensure} (he : e.goal = g) (now : Moment)
    (req : Request) (reply : Reply) (s : Scope) :
    (op.holding e).resume now req reply s = op.conclude now (e.resume now req reply s) := by
  cases hg with
  | ensure => rfl
  | publish appId w => simp only [holding, Running.resume, Publish.resume, conclude, he]
  | report r w =>
    simp only [holding, Running.resume, Reporter.resume, Publish.resume, conclude, he]

theorem enter?_eq (hg : op.Wants g) (caller : Caller) (s : Scope) :
    op.enter? caller s = some (op.conclude caller.now (Ensure.enter caller g s)) := by
  cases hg <;> rfl

/-- An operation fails before it looks at the cache, or starts with the look for its check run,
perhaps in a block of its own. -/
theorem start_cases (hg : op.Wants g) (caller : Caller) (s : Scope) :
    (∃ f, op.start caller s = .finish s (.error f)) ∨
      ∃ s' : Scope, s'.client = s.client ∧
        let t := op.conclude caller.now (Ensure.start caller g s')
        (op.start caller s).scope = t.scope ∧ (op.start caller s).next = t.next := by
  cases hg with
  | ensure => exact .inr ⟨s, rfl, rfl, rfl⟩
  | publish => exact .inr ⟨s, rfl, rfl, rfl⟩
  | report r w hc =>
    cases hp : r.hasClient && s.client.identity.token.truthy with
    | true =>
      refine .inr ⟨s.enter w.worded.status.run, rfl, ?_⟩
      have hs : Sink.ofEvent w.event r.appId = .checkRun r.appId := by simp [Sink.ofEvent, hc]
      simp only [start, Reporter.start, Reporter.prepare, hp, hs, if_true, Turn.ofExcept_ok,
        Publish.start, conclude, Turn.map, Reporter.close, Turn.andThen_log]
      exact ⟨rfl, rfl⟩
    | false =>
      refine .inl ⟨.noClient, ?_⟩
      simp only [start, Reporter.start, Reporter.prepare, hp, Bool.false_eq_true, if_false,
        Turn.ofExcept_error, Turn.map, Turn.andThen_error]

end Operation

namespace Phase

def request? : Phase → Option Request
  | sending req _ => some req
  | _ => none

end Phase

namespace Task

inductive Placed (i : Identity) (op : Operation) (g : Goal) : Phase → Prop
  | ready : Placed i op g .ready
  | waiting : Placed i op g (.waiting g.run)
  | inside {e : Ensure} {req : Request} (ha : Asks i g e req) :
      Placed i op g (.sending req (op.holding e))
  | updating {st : Running} {id : Int} {req : Request} (hs : op.updating? = some st)
      (hr : g.write.Updates i id req) : Placed i op g (.sending req st)
  | finished {r : Except Failure Outcome} : Placed i op g (.finished r)

/-- Whether a task may take its lock: it is free for all, or it is the task's turn. -/
inductive Admits (t : TaskId) (l : Lock) (run : String) : Phase → Happening → Prop
  | atOnce (h : l.isOpen = true) : Admits t l run .ready .start
  | afterWait (h : l.next? = some t) : Admits t l run (.waiting run) .enter

inductive Course (t : TaskId) (op : Operation) (g : Goal) (c : Client) :
    Phase → Happening → Client → Phase → Prop
  | refuse {h : Happening} {f : Failure} : Course t op g c .ready h c (.finished (.error f))
  | known {id : Int} {p : Phase} (hn : c.runs.load g.run = some id)
      (hp : Settled c.identity op g id p) : Course t op g c .ready .start c.attach p
  | queue (hn : c.runs.load g.run = none) (ho : (c.runs.lock g.run).isOpen = false) :
      Course t op g c .ready .start (c.mapRuns (·.mapLock g.run (·.enqueue t))) (.waiting g.run)
  | take {p p' : Phase} {h : Happening} {c' : Client} {next : Next Ensure Int}
      (hn : c.runs.load g.run = none) (ho : Admits t (c.runs.lock g.run) g.run p h)
      (he : Entered g (granted g t c) c' next) (hp : Leads c.identity op g next p') :
      Course t op g c p h c' p'
  | knownLate {id : Int} {p : Phase} (hn : c.runs.load g.run = some id)
      (ho : (c.runs.lock g.run).next? = some t) (hp : Settled c.identity op g id p) :
      Course t op g c (.waiting g.run) .enter (released g (granted g t c)) p
  | withdraw : Course t op g c (.waiting g.run) .cancel
      (c.mapRuns (·.mapLock g.run (·.withdraw t))) (.finished (.error .cancelled))
  | answer {e : Ensure} {req : Request} {reply : Reply} {c' : Client} {next : Next Ensure Int}
      {p : Phase} (ha : Asks c.identity g e req) (hr : Answered g c req reply e c' next)
      (hp : Leads c.identity op g next p) :
      Course t op g c (.sending req (op.holding e)) (.reply reply) c' p
  | abandon {e : Ensure} {req : Request} (ha : Asks c.identity g e req) :
      Course t op g c (.sending req (op.holding e)) .cancel (released g c)
        (.finished (.error .cancelled))
  | close {st : Running} {id : Int} {req : Request} {reply : Reply} {r : Except Failure Outcome}
      (hs : op.updating? = some st) (hr : g.write.Updates c.identity id req) :
      Course t op g c (.sending req st) (.reply reply) c (.finished r)
  | drop {st : Running} {id : Int} {req : Request} (hs : op.updating? = some st)
      (hr : g.write.Updates c.identity id req) :
      Course t op g c (.sending req st) .cancel c (.finished (.error .cancelled))

section

variable {t : TaskId} {op : Operation} {g : Goal} {c c' : Client} {next : Next Ensure Int}
  {p p' : Phase} {h : Happening}

theorem Course.ofStarted (hs : Started t g c c' next) (hl : Leads c.identity op g next p) :
    Course t op g c .ready .start c' p := by
  cases hs with
  | known hn =>
    cases hl with
    | settle hp => exact .known hn hp
  | take hn ho he => exact .take hn (.atOnce ho) he hl
  | queue hn ho =>
    cases hl with
    | wait => exact .queue hn ho

theorem Course.ofResumed (ho : (c.runs.lock g.run).next? = some t) (hr : Resumed t g c c' next)
    (hl : Leads c.identity op g next p) : Course t op g c (.waiting g.run) .enter c' p := by
  cases hr with
  | known hn =>
    cases hl with
    | settle hp => exact .knownLate hn ho hp
  | take hn he => exact .take hn (.afterWait ho) he hl

theorem Course.identity_eq (hc : Course t op g c p h c' p') : c'.identity = c.identity := by
  cases hc with
  | take hn ho he hp => exact he.identity_eq
  | answer ha hr hp => exact hr.identity_eq
  | _ => rfl

theorem Settled.placed {i : Identity} {id : Int} (hs : Settled i op g id p) :
    Placed i op g p := by
  cases hs with
  | answer => exact .finished
  | update hop hr => exact .updating hop hr
  | fail => exact .finished

theorem Course.placed (hc : Course t op g c p h c' p') : Placed c'.identity op g p' := by
  rw [hc.identity_eq]
  cases hc with
  | known hn hp | knownLate hn ho hp => exact hp.placed
  | queue => exact .waiting
  | take hn ho he hp =>
    cases he with
    | look ha =>
      cases hp
      exact .inside ha
    | fail =>
      cases hp
      exact .finished
  | answer ha hr hp =>
    cases hr with
    | more _ _ ha' | create _ _ _ ha' =>
      cases hp
      exact .inside ha'
    | reuse | confirm =>
      cases hp with
      | settle hs => exact hs.placed
    | giveUp | fail =>
      cases hp
      exact .finished
  | _ => exact .finished

end

end Task

namespace Operation

open StatusRelay.Task (Leads Settled Course Placed)

variable {op : Operation} {g : Goal}

theorem start_course (hg : op.Wants g) (caller : Caller) (s : Scope) :
    Course caller.task op g s.client .ready .start (op.start caller s).scope.client
      (.ofNext (op.start caller s).next) := by
  obtain ⟨f, ht⟩ | ⟨s', hc, hs, hn⟩ := start_cases hg caller s
  · rw [ht]
    exact .refuse
  · obtain ⟨hs', hl⟩ := conclude_leads hg caller.now (Ensure.start caller g s')
    have he := Ensure.start_started (g := g) (s := s') caller
    rw [he.identity_eq] at hl
    rw [hs, hn, hs', ← hc]
    exact .ofStarted he hl

theorem enter_course (hg : op.Wants g) (caller : Caller) (s : Scope)
    (ho : (s.client.runs.lock g.run).next? = some caller.task) :
    ∃ t, op.enter? caller s = some t ∧
      Course caller.task op g s.client (.waiting g.run) .enter t.scope.client (.ofNext t.next) := by
  refine ⟨_, enter?_eq hg caller s, ?_⟩
  obtain ⟨hs, hl⟩ := conclude_leads hg caller.now (Ensure.enter caller g s)
  have he := Ensure.enter_resumed (g := g) (s := s) caller
  rw [he.identity_eq] at hl
  rw [hs]
  exact .ofResumed ho he hl

theorem resume_course (hg : op.Wants g) {e : Ensure} {req : Request} (t : TaskId) (s : Scope)
    (ha : Asks s.client.identity g e req) (now : Moment) (reply : Reply) :
    let u := (op.holding e).resume now req reply s
    Course t op g s.client (.sending req (op.holding e)) (.reply reply) u.scope.client
      (.ofNext u.next) := by
  intro u
  have hu : u = op.conclude now (e.resume now req reply s) :=
    resume_holding hg ha.goal_eq now req reply s
  obtain ⟨hs, hl⟩ := conclude_leads hg now (e.resume now req reply s)
  have hr := Ensure.resume_answered (s := s) now ha reply
  rw [hr.identity_eq] at hl
  rw [hu, hs]
  exact .answer ha hr hl

theorem resume_updating (hg : op.Wants g) {st : Running} (hs : op.updating? = some st)
    (now : Moment) (req : Request) (reply : Reply) (s : Scope) :
    ∃ r, (st.resume now req reply s).scope.client = s.client ∧
      (st.resume now req reply s).next = .done r := by
  have hf (r : Except Failure Unit) :
      ∃ r', ((Turn.finish s r).map Running.publishing fun _ ↦ Outcome.written).scope.client =
        s.client ∧ ((Turn.finish s r).map Running.publishing fun _ ↦ Outcome.written).next =
        .done r' := by
    cases r <;> exact ⟨_, rfl, rfl⟩
  cases hg with
  | ensure => simp [updating?] at hs
  | publish appId w =>
    obtain rfl : Running.publishing .updating = st := by simpa [updating?] using hs
    exact hf (Publish.settle req reply)
  | report r w =>
    obtain rfl : Running.reporting .updating = st := by simpa [updating?] using hs
    cases hr : Publish.settle req reply <;>
      exact ⟨_, by simp only [Running.resume, Reporter.resume, Publish.resume, hr]; rfl,
        by simp only [Running.resume, Reporter.resume, Publish.resume, hr]; rfl⟩

theorem cancel_holding (hg : op.Wants g) {e : Ensure} (he : e.goal = g) (s : Scope) :
    ((op.holding e).cancel s).client = released g s.client := by
  cases hg <;> rw [← he] <;> rfl

theorem cancel_updating (hg : op.Wants g) {st : Running} (hs : op.updating? = some st)
    (s : Scope) : (st.cancel s).client = s.client := by
  cases hg with
  | ensure => simp [updating?] at hs
  | publish appId w =>
    obtain rfl : Running.publishing .updating = st := by simpa [updating?] using hs
    rfl
  | report r w =>
    obtain rfl : Running.reporting .updating = st := by simpa [updating?] using hs
    rfl

theorem withdraw_client (op : Operation) (caller : Caller) (run : String) (s : Scope) :
    (op.withdraw caller run s).client =
      s.client.mapRuns (·.mapLock run (·.withdraw caller.task)) := by
  cases op <;> rfl

end Operation

namespace System

open StatusRelay.Task (Course Placed)

variable {sys sys' : System} {m : Move} {task : Task} {g : Goal}

theorem requests_ofNext (t : TaskId) (next : Next Running Outcome) :
    requests t next = ((Phase.ofNext next).request?.map (t, ·)).toList := by
  cases next <;> rfl

/-- What every move keeps, a whole run keeps. -/
theorem run_induction {P : System → Prop}
    (hstep : ∀ {sys m sys'}, P sys → System.step sys m = some sys' → P sys') {moves : List Move} :
    ∀ {sys : System}, P sys → sys.run moves = some sys' → P sys' := by
  induction moves with
  | nil =>
    intro sys hp hr
    obtain rfl := Option.some.inj hr
    exact hp
  | cons m moves ih =>
    intro sys hp hr
    obtain ⟨mid, hs, hr⟩ := Option.bind_eq_some_iff.1 hr
    exact ih (hstep hp hs) hr

/-- A move of a task that wants a check run takes its course; all other tasks stay as they are. -/
theorem step_course (h : sys.step m = some sys') (ht : sys.tasks[m.task]? = some task)
    (hg : task.op.Wants g) (hp : Placed sys.client.identity task.op g task.phase) :
    ∃ p ctx, sys'.tasks = sys.tasks.set m.task ⟨task.op, p, ctx⟩ ∧
      sys'.sent = sys.sent ++ (p.request?.map (m.task, ·)).toList ∧
      Course m.task task.op g sys.client task.phase m.happening sys'.client p := by
  obtain ⟨op, phase, ctx⟩ := task
  obtain ⟨id, now, happening⟩ := m
  simp only at ht hg hp ⊢
  simp only [step, ht] at h
  cases hp with
  | ready =>
    cases happening with
    | start =>
      obtain rfl := Option.some.inj h
      exact ⟨_, _, rfl, by rw [← requests_ofNext]; rfl,
        Operation.start_course hg ⟨id, now⟩ ⟨sys.client, ctx⟩⟩
    | cancel =>
      obtain rfl := Option.some.inj h
      exact ⟨_, _, rfl, (List.append_nil _).symm, .refuse⟩
    | _ => simp at h
  | waiting =>
    cases happening with
    | enter =>
      simp only [Option.ite_none_right_eq_some, mayEnter, beq_iff_eq] at h
      obtain ⟨ho, h⟩ := h
      obtain ⟨t, ht, hc⟩ := Operation.enter_course hg ⟨id, now⟩ ⟨sys.client, ctx⟩ ho
      rw [ht] at h
      obtain rfl := Option.some.inj h
      exact ⟨_, _, rfl, by rw [← requests_ofNext]; rfl, hc⟩
    | cancel =>
      obtain rfl := Option.some.inj h
      refine ⟨_, _, rfl, (List.append_nil _).symm, ?_⟩
      simp only [cancelled, Operation.withdraw_client]
      exact .withdraw
    | _ => simp at h
  | inside ha =>
    cases happening with
    | reply reply =>
      obtain rfl := Option.some.inj h
      exact ⟨_, _, rfl, by rw [← requests_ofNext]; rfl,
        Operation.resume_course hg id ⟨sys.client, ctx⟩ ha now reply⟩
    | cancel =>
      obtain rfl := Option.some.inj h
      refine ⟨_, _, rfl, (List.append_nil _).symm, ?_⟩
      simp only [cancelled, Operation.cancel_holding hg ha.goal_eq]
      exact .abandon ha
    | _ => simp at h
  | @updating st _ req hs hr =>
    cases happening with
    | reply reply =>
      obtain rfl := Option.some.inj h
      obtain ⟨r, hc, hn⟩ := Operation.resume_updating hg hs now req reply ⟨sys.client, ctx⟩
      refine ⟨_, _, rfl, by rw [← requests_ofNext]; rfl, ?_⟩
      simp only [after, hc, hn]
      exact .close hs hr
    | cancel =>
      obtain rfl := Option.some.inj h
      refine ⟨_, _, rfl, (List.append_nil _).symm, ?_⟩
      simp only [cancelled, Operation.cancel_updating hg hs]
      exact .drop hs hr
    | _ => simp at h
  | finished => cases happening <;> simp at h

end System
end StatusRelay
