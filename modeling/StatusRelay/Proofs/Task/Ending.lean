import StatusRelay.Proofs.Task.Agreement

namespace StatusRelay

open CheckRun (Goal Ensure)
open CheckRun.Ensure (Asks Answered Entered Started Resumed)

def Next.result? {σ α : Type} : Next σ α → Option (Except Failure α)
  | done r => some r
  | _ => none

namespace CheckRun.Ensure

/-- What becomes of the entries of a cache: they stay, unless the run gets its number. -/
structure Files (run : String) (ids ids' : Table Int) (r : Option (Except Failure Int)) : Prop where
  filed : ∀ id, r = some (.ok id) → ids'.get? run = some id
  kept : (∀ id, r ≠ some (.ok id)) → ids' = ids

variable {t : TaskId} {g : Goal} {c c' : Client} {next : Next Ensure Int}

theorem Files.unchanged (run : String) {ids : Table Int} {r : Option (Except Failure Int)}
    (h : ∀ id, r ≠ some (.ok id)) : Files run ids ids r :=
  ⟨fun id hr ↦ absurd hr (h id), fun _ ↦ rfl⟩

theorem Files.found {run : String} {ids ids' : Table Int} {id : Int}
    (h : ids'.get? run = some id) : Files run ids ids' (some (.ok id)) := by
  refine ⟨?_, fun hr ↦ absurd rfl (hr id)⟩
  intro id' hr
  simp only [Option.some.injEq, Except.ok.injEq] at hr
  rw [h, hr]

theorem Entered.files (h : Entered g c c' next) :
    Files g.run c.runs.ids c'.runs.ids next.result? := by
  cases h <;> exact .unchanged _ (by simp [Next.result?])

theorem Started.files (h : Started t g c c' next) :
    Files g.run c.runs.ids c'.runs.ids next.result? := by
  cases h with
  | known hn => exact .found hn
  | take hn ho he => exact he.files
  | queue => exact .unchanged _ (by simp [Next.result?])

theorem Resumed.files (h : Resumed t g c c' next) :
    Files g.run c.runs.ids c'.runs.ids next.result? := by
  cases h with
  | known hn => exact .found hn
  | take hn he => exact he.files

theorem Answered.files {req : Request} {reply : Reply} {e : Ensure}
    (h : Answered g c req reply e c' next) : Files g.run c.runs.ids c'.runs.ids next.result? := by
  cases h with
  | reuse | confirm => exact .found (RunCache.load_store_self c.runs g.run _)
  | _ => exact .unchanged _ (by simp [Next.result?])

end CheckRun.Ensure

open CheckRun.Ensure (Files)

namespace Phase

def IsPast : Phase → Prop
  | sending _ st => st.ensure? = none
  | finished _ => True
  | _ => False

end Phase

namespace Task

variable {t : TaskId} {op : Operation} {g : Goal} {c c' : Client} {p p' : Phase} {h : Happening}

theorem Settled.isPast {i : Identity} {id : Int} (hs : Settled i op g id p) : p.IsPast := by
  cases hs with
  | update hop => exact ensure?_of_updating? hop
  | _ => trivial

theorem Leads.isPast {i : Identity} {next : Next Ensure Int} {r : Except Failure Int}
    (hl : Leads i op g next p) (hr : next.result? = some r) : p.IsPast := by
  cases hl with
  | settle hs => exact hs.isPast
  | fail => trivial
  | _ => cases hr

/-- Only a task inside, which then has the number of its check run, changes an entry. -/
theorem Course.ids_eq_or (hc : Course t op g c p h c' p') :
    c'.runs.ids = c.runs.ids ∨ p.standing = .inside ∧ ∃ id, Settled c.identity op g id p' := by
  cases hc with
  | take hn ho he => cases he <;> exact .inl rfl
  | answer ha hr hp =>
    cases hr with
    | reuse | confirm =>
      cases hp with
      | settle hs => exact .inr ⟨Phase.standing_holding _ _ _, _, hs⟩
    | _ => exact .inl rfl
  | _ => exact .inl rfl

theorem Course.isPast (hc : Course t op g c p h c' p') (hp : p.IsPast) : p'.IsPast := by
  cases hc with
  | known _ hs | knownLate _ _ hs => exact hs.isPast
  | queue | withdraw => exact hp.elim
  | take hn ho => cases ho <;> exact hp.elim
  | answer => simp [Phase.IsPast] at hp
  | _ => trivial

theorem standing_of_isPast (hp : p.IsPast) : p.standing = .outside := by
  cases p with
  | sending req st =>
    have hn : st.ensure? = none := hp
    simp [Phase.standing, hn]
  | finished => rfl
  | _ => exact hp.elim

end Task

namespace Operation

open StatusRelay.Task (Leads)

variable {op : Operation} {g : Goal}

def beginning? (caller : Caller) (op : Operation) (s : Scope) : Option (Turn Ensure Int) :=
  match op with
  | ensureCheckRun g => some (Ensure.start caller g s)
  | publish (.checkRun appId) w => some (Ensure.start caller ⟨w, appId⟩ s)
  | report r w =>
    match r.prepare w s.client with
    | .ok (.checkRun appId, w) =>
      some (Ensure.start caller ⟨w, appId⟩ (s.enter w.status.run))
    | _ => none
  | _ => none

theorem beginning?_cases (hg : op.Wants g) (caller : Caller) (s : Scope) :
    (op.beginning? caller s = none ∧ ∃ f, op.start caller s = .finish s (.error f)) ∨
      ∃ s' : Scope, s'.client = s.client ∧
        op.beginning? caller s = some (Ensure.start caller g s') ∧
        let t := op.conclude caller.now (Ensure.start caller g s')
        (op.start caller s).scope.client = t.scope.client ∧
          (op.start caller s).next = t.next := by
  cases hg with
  | ensure => exact .inr ⟨s, rfl, rfl, rfl, rfl⟩
  | publish appId w => exact .inr ⟨s, rfl, rfl, rfl, rfl⟩
  | report r w hw =>
    have hsink : Sink.ofEvent w.event r.appId = .checkRun r.appId := by simp [Sink.ofEvent, hw]
    cases hp : r.hasClient && s.client.identity.token.truthy with
    | false =>
      have hrefused : r.prepare w s.client = .error .noClient := by
        simp only [Reporter.prepare, hp, Bool.false_eq_true, if_false]
      refine .inl ⟨by simp only [beginning?, hrefused], .noClient, ?_⟩
      simp only [start, Reporter.start, hrefused, Turn.ofExcept_error, Turn.map, Turn.andThen_error]
    | true =>
      have hprepared : r.prepare w s.client = .ok (.checkRun r.appId, w.worded) := by
        simp only [Reporter.prepare, hp, if_true, hsink]
      refine .inr ⟨s.enter w.worded.status.run, rfl, by simp only [beginning?, hprepared], ?_⟩
      simp only [start, Reporter.start, hprepared, Turn.ofExcept_ok, Publish.start, conclude,
        Turn.map, Turn.andThen_log]
      exact ⟨rfl, rfl⟩

structure Ends (g : Goal) (c : Client) (u : Turn Running Outcome)
    (r : Option (Except Failure Int)) : Prop where
  files : Files g.run c.runs.ids u.scope.client.runs.ids r
  isPast : r ≠ none → (Phase.ofNext u.next).IsPast

variable {caller : Caller} {s s' : Scope}

theorem conclude_ends (hg : op.Wants g) (now : Moment) {t : Turn Ensure Int}
    (hf : Files g.run s.client.runs.ids t.scope.client.runs.ids t.next.result?) :
    Ends g s.client (op.conclude now t) t.next.result? := by
  obtain ⟨hc, hl⟩ := conclude_leads hg now t
  refine ⟨by rwa [hc], ?_⟩
  intro hr
  obtain ⟨r, hr⟩ := Option.ne_none_iff_exists'.1 hr
  exact hl.isPast hr

theorem start_ends (hg : op.Wants g) (caller : Caller) (s : Scope) :
    Ends g s.client (op.start caller s) ((op.beginning? caller s).bind (·.next.result?)) := by
  obtain ⟨hb, f, ht⟩ | ⟨s', hs, hb, hc, hn⟩ := beginning?_cases hg caller s
  · rw [hb, ht]
    exact ⟨.unchanged _ (by simp), fun hr ↦ absurd rfl hr⟩
  · have he := conclude_ends (s := s') hg caller.now
      (CheckRun.Ensure.start_started caller).files
    rw [hs] at he
    rw [hb, Option.bind_some]
    exact ⟨by rw [hc]; exact he.files, by rw [hn]; exact he.isPast⟩

theorem enter_ends (hg : op.Wants g) (caller : Caller) (s : Scope) :
    Ends g s.client (op.conclude caller.now (Ensure.enter caller g s))
      (Ensure.enter caller g s).next.result? :=
  conclude_ends hg caller.now (CheckRun.Ensure.enter_resumed caller).files

theorem resume_ends (hg : op.Wants g) {i : Identity} {e : Ensure} {req : Request}
    (ha : Asks i g e req) (now : Moment) (reply : Reply) (s : Scope) :
    Ends g s.client ((op.holding e).resume now req reply s)
      (e.resume now req reply s).next.result? := by
  rw [resume_holding hg ha.goal_eq]
  exact conclude_ends hg now (CheckRun.Ensure.resume_answered now ha reply).files

theorem resume_updating_ends (hg : op.Wants g) {st : Running} (hst : op.updating? = some st)
    (now : Moment) (req : Request) (reply : Reply) (s : Scope) :
    Ends g s.client (st.resume now req reply s) none := by
  obtain ⟨r, hc, -⟩ := resume_updating hg hst now req reply s
  rw [← hc]
  exact ⟨.unchanged _ (by simp), fun hr ↦ absurd rfl hr⟩

end Operation

namespace System

open StatusRelay.Task (Placed)

variable {sys sys' : System} {m : Move} {t : TaskId} {run : String} {moves : List Move}

/-- What comes of the look for a check run with a move, if the move ends it. -/
def ensured? (sys : System) (m : Move) : Option (Except Failure Int) :=
  match sys.tasks[m.task]? with
  | none => none
  | some task =>
    let caller : Caller := ⟨m.task, m.now⟩
    let s : Scope := ⟨sys.client, task.context⟩
    match task.phase, m.happening with
    | .ready, .start => (task.op.beginning? caller s).bind (·.next.result?)
    | .waiting _, .enter => task.op.goal?.bind fun g ↦ (Ensure.enter caller g s).next.result?
    | .sending req st, .reply reply =>
      st.ensure?.bind fun e ↦ (e.resume m.now req reply s).next.result?
    | .waiting _, .cancel => some (.error .cancelled)
    | .sending _ st, .cancel => st.ensure?.map fun _ ↦ .error .cancelled
    | _, _ => none

/-- Whether the look of a task for its check run is over. -/
def IsPast (sys : System) (t : TaskId) : Prop :=
  ∃ task, sys.tasks[t]? = some task ∧ task.phase.IsPast

theorem Carries.isPast {task : Task} {p : Phase} (h : Carries sys m task p sys')
    (hp : p.IsPast) : sys'.IsPast m.task := by
  obtain ⟨ctx, hmoved⟩ := h.getElem?_self
  exact ⟨_, hmoved, hp⟩

/-- A move leaves the entries as they are, unless it ends a look and the run gets its number. -/
theorem Disciplined.ensured (h : sys.Disciplined) (hs : sys.step m = some sys') :
    ∃ run, sys.run? m.task = some run ∧
      Files run sys.client.runs.ids sys'.client.runs.ids (sys.ensured? m) ∧
      (sys.ensured? m ≠ none → sys'.IsPast m.task) := by
  cases htask : sys.tasks[m.task]? with
  | none => simp [System.step, htask] at hs
  | some task =>
    obtain ⟨g, hg, hp⟩ := h.placed m.task task htask
    refine ⟨g.run, run?_eq htask hg, ?_⟩
    have hturn (u : Turn Running Outcome) := (carries_after htask u).isPast
    have hcancel (s : Scope) := (carries_cancelled htask s).isPast trivial
    obtain ⟨op, phase, ctx⟩ := task
    obtain ⟨id, now, happening⟩ := m
    have ht : sys.tasks[id]? = some ⟨op, phase, ctx⟩ := htask
    change op.Wants g at hg
    change Placed sys.client.identity op g phase at hp
    simp only [System.step, ht] at hs
    simp only [ensured?, ht]
    -- Whatever it interrupts, a cancellation leaves the entries alone.
    cases hp with
    | ready =>
      cases happening with
      | start =>
        obtain rfl := Option.some.inj hs
        have he := Operation.start_ends hg ⟨id, now⟩ ⟨sys.client, ctx⟩
        exact ⟨he.files, fun hr ↦ hturn _ (he.isPast hr)⟩
      | cancel =>
        obtain rfl := Option.some.inj hs
        exact ⟨.unchanged _ (by simp), fun _ ↦ hcancel _⟩
      | _ => simp at hs
    | waiting =>
      cases happening with
      | enter =>
        simp only [Option.ite_none_right_eq_some, Operation.enter?_eq hg, Option.map_some] at hs
        obtain ⟨-, hs⟩ := hs
        obtain rfl := Option.some.inj hs
        have he := Operation.enter_ends hg ⟨id, now⟩ ⟨sys.client, ctx⟩
        rw [hg.goal?_eq, Option.bind_some]
        exact ⟨he.files, fun hr ↦ hturn _ (he.isPast hr)⟩
      | cancel =>
        obtain rfl := Option.some.inj hs
        refine ⟨?_, fun _ ↦ hcancel _⟩
        rw [cancelled, Operation.withdraw_client]
        exact .unchanged _ (by simp)
      | _ => simp at hs
    | inside ha =>
      cases happening with
      | reply reply =>
        obtain rfl := Option.some.inj hs
        have he := Operation.resume_ends hg ha now reply ⟨sys.client, ctx⟩
        simp only [Operation.ensure?_holding, Option.bind_some]
        exact ⟨he.files, fun hr ↦ hturn _ (he.isPast hr)⟩
      | cancel =>
        obtain rfl := Option.some.inj hs
        refine ⟨?_, fun _ ↦ hcancel _⟩
        simp only [Operation.ensure?_holding, Option.map_some, cancelled,
          Operation.cancel_holding hg ha.goal_eq]
        exact .unchanged _ (by simp)
      | _ => simp at hs
    | @updating st _ req hst _ =>
      have hn := Task.ensure?_of_updating? hst
      cases happening with
      | reply reply =>
        obtain rfl := Option.some.inj hs
        have he := Operation.resume_updating_ends hg hst now req reply ⟨sys.client, ctx⟩
        simp only [hn, Option.bind_none]
        exact ⟨he.files, fun hr ↦ hturn _ (he.isPast hr)⟩
      | cancel =>
        obtain rfl := Option.some.inj hs
        refine ⟨?_, fun _ ↦ hcancel _⟩
        simp only [hn, Option.map_none, cancelled, Operation.cancel_updating hg hst]
        exact .unchanged _ (by simp)
      | _ => simp at hs
    | finished => cases happening <;> simp at hs

theorem not_isPast_of_ensured {r : Except Failure Int} (h : sys.ensured? m = some r) :
    ¬ sys.IsPast m.task := by
  rintro ⟨task, ht, hp⟩
  simp only [ensured?, ht] at h
  cases hphase : task.phase with
  | sending req st =>
    rw [hphase] at hp
    have hn : st.ensure? = none := hp
    cases hh : m.happening <;> simp [hphase, hh, hn] at h
  | finished => cases hh : m.happening <;> simp [hphase, hh] at h
  | ready | waiting =>
    rw [hphase] at hp
    exact hp

namespace Disciplined

theorem isPast_step (h : sys.Disciplined) (hs : sys.step m = some sys') (ht : sys.IsPast t) :
    sys'.IsPast t := by
  obtain ⟨task', g, p, hm⟩ := h.moves hs
  obtain ⟨task, ht, hp⟩ := ht
  by_cases hne : t = m.task
  · subst hne
    obtain rfl := Option.some.inj (hm.found.symm.trans ht)
    exact hm.carries.isPast (hm.course.isPast hp)
  · exact ⟨task, (hm.carries.getElem?_of_ne hne).trans ht, hp⟩

theorem ids_of_isPast (h : sys.Disciplined) (hs : sys.step m = some sys')
    (ht : sys.IsPast m.task) : sys'.client.runs.ids = sys.client.runs.ids := by
  obtain ⟨task', g, p, hm⟩ := h.moves hs
  obtain ⟨task, ht, hp⟩ := ht
  obtain rfl := Option.some.inj (hm.found.symm.trans ht)
  obtain hids | ⟨hx, -⟩ := hm.course.ids_eq_or
  · exact hids
  · rw [Task.standing_of_isPast hp] at hx
    cases hx

theorem isPast_of_ids_ne (h : sys.Disciplined) (hs : sys.step m = some sys')
    (hids : sys'.client.runs.ids ≠ sys.client.runs.ids) : sys'.IsPast m.task := by
  obtain ⟨task, g, p, hm⟩ := h.moves hs
  obtain heq | ⟨-, id, hp⟩ := hm.course.ids_eq_or
  · exact absurd heq hids
  · exact hm.carries.isPast hp.isPast

theorem isPast_run (h : sys.Disciplined) (hr : sys.run moves = some sys') (ht : sys.IsPast t) :
    sys'.IsPast t := by
  have hi := run_induction (P := fun sys ↦ sys.Disciplined ∧ sys.IsPast t)
    (fun hp hs ↦ ⟨hp.1.step hs, hp.1.isPast_step hs hp.2⟩) ⟨h, ht⟩ hr
  exact hi.2

theorem lock_of_isPast (h : sys.Disciplined) (ht : sys.IsPast t) (run : String) :
    (sys.client.runs.lock run).holder ≠ some t ∧ t ∉ (sys.client.runs.lock run).queue := by
  obtain ⟨task, htask, hp⟩ := ht
  have hx : sys.standing t = .outside := by
    rw [standing_eq htask, Task.standing_of_isPast hp]
  exact h.locks.of_outside hx run

end Disciplined
end System
end StatusRelay
