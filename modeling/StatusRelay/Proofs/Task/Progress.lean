import Mathlib.Algebra.GroupWithZero.Nat
import StatusRelay.Proofs.Task.SingleCreation

namespace StatusRelay

open CheckRun (Goal)

/-- The task that a lock belongs to: its holder, or the one whose turn it is once it was given
back. -/
def Lock.owner? (l : Lock) : Option TaskId := l.holder <|> l.next?

namespace Lock

variable {l : Lock} {t : TaskId}

theorem exists_owner_of_mem (h : t ∈ l.queue) : ∃ t', l.owner? = some t' := by
  obtain ⟨holder, queue⟩ := l
  cases holder with
  | some t' => exact ⟨t', rfl⟩
  | none =>
    cases queue with
    | nil => cases h
    | cons t' queue => exact ⟨t', rfl⟩

theorem owner?_eq_some : l.owner? = some t ↔ l.holder = some t ∨ l.next? = some t := by
  obtain ⟨holder, queue⟩ := l
  cases holder with
  | some t' => simp [owner?, next?, isHeld]
  | none => simp [owner?]

theorem mem_of_next? (h : l.next? = some t) : t ∈ l.queue := by
  simp only [next?, Option.ite_none_left_eq_some] at h
  exact List.mem_of_mem_head? h.2

end Lock

namespace Phase

/-- How many pauses are still ahead of a task before it waits for answers only. -/
def weight : Phase → Nat
  | ready => 2
  | waiting _ => 1
  | _ => 0

end Phase

namespace Operation

inductive Posts : Operation → Prop
  | report (r : Reporter) (w : StatusWrite) (h : w.event.onCommit = true) : Posts (report r w)

def name? : Operation → Option String
  | ensureCheckRun g => some g.run
  | publish (.checkRun _) w => some w.status.run
  | report _ w => some w.status.run
  | _ => none

theorem Posts.goal?_eq {op : Operation} (h : op.Posts) : op.goal? = none := by
  obtain ⟨r, w, hw⟩ := h
  simp [goal?, hw]

theorem Wants.name?_eq {op : Operation} {g : Goal} (h : op.Wants g) : op.name? = some g.run := by
  cases h <;> rfl

end Operation

namespace Task

inductive Posting : Phase → Prop
  | ready : Posting .ready
  | posting {req : Request} {w : StatusWrite} : Posting (.sending req (.reporting (.posting w)))
  | commenting {req : Request} : Posting (.sending req (.reporting .commenting))
  | finished {r : Except Failure Outcome} : Posting (.finished r)

inductive Fits (i : Identity) (op : Operation) (p : Phase) : Prop
  | wants {g : Goal} (hg : op.Wants g) (hp : Placed i op g p)
  | posts (ho : op.Posts) (hp : Posting p)

variable {t : TaskId} {op : Operation} {g : Goal} {c c' : Client} {p p' : Phase} {h : Happening}

theorem Posting.standing_eq (hp : Posting p) : p.standing = .outside := by
  cases hp <;> rfl

theorem Posting.weight_ofNext {next : Next Running Outcome} (hp : Posting (.ofNext next)) :
    (Phase.ofNext next).weight = 0 := by
  cases next with
  | wait => cases hp
  | _ => rfl

theorem Settled.weight_eq {i : Identity} {id : Int} (hs : Settled i op g id p) :
    p.weight = 0 := by
  cases hs <;> rfl

theorem Course.weight_lt (hc : Course t op g c p h c' p') (hh : h = .start ∨ h = .enter) :
    p'.weight < p.weight := by
  cases hc with
  | refuse => exact Nat.zero_lt_two
  | known hn hs =>
    rw [hs.weight_eq]
    exact Nat.zero_lt_two
  | knownLate hn ho hs =>
    rw [hs.weight_eq]
    exact Nat.one_pos
  | queue => exact Nat.one_lt_two
  | take hn ho he hl =>
    have hp : p'.weight = 0 := by
      cases he <;> cases hl <;> rfl
    rw [hp]
    cases ho with
    | atOnce => exact Nat.zero_lt_two
    | afterWait => exact Nat.one_pos
  | _ => simp at hh

end Task

open StatusRelay.Task (Posting)

namespace Publish

structure PostsOnly (c : Client) (t : Turn Publish Unit) : Prop where
  client : t.scope.client = c
  next : (∃ r, t.next = .done r) ∨ (∃ req w, t.next = .send req (posting w)) ∨
    ∃ req, t.next = .send req commenting

variable {s : Scope}

theorem postsOnly_finish (r : Except Failure Unit) : PostsOnly s.client (.finish s r) :=
  ⟨rfl, .inl ⟨r, rfl⟩⟩

theorem post_postsOnly (now : Moment) (w : StatusWrite) (s : Scope) :
    PostsOnly s.client (post now w s) := by
  obtain ⟨f, hf⟩ | ⟨req, -, hreq⟩ := post_cases now w s
  · rw [hf]
    exact postsOnly_finish _
  · rw [hreq]
    exact ⟨rfl, .inr (.inl ⟨req, w, rfl⟩)⟩

theorem comment_postsOnly : PostsOnly s.client (comment w s) := by
  obtain ⟨r, hr⟩ | ⟨req, -, hreq⟩ := comment_cases w s
  · rw [hr]
    exact postsOnly_finish _
  · rw [hreq]
    exact ⟨rfl, .inr (.inr ⟨req, rfl⟩)⟩

theorem PostsOnly.posting {c : Client} {t : Turn Publish Unit} (h : PostsOnly c t) :
    let u := (Reporter.close t).map Running.reporting fun _ ↦ Outcome.written
    u.scope.client = c ∧ Posting (.ofNext u.next) := by
  obtain ⟨s, rs, next⟩ := t
  obtain ⟨rfl, hn⟩ := h
  obtain ⟨r, rfl⟩ | ⟨req, w, rfl⟩ | ⟨req, rfl⟩ := hn
  · cases r <;> exact ⟨rfl, .finished⟩
  · exact ⟨rfl, .posting⟩
  · exact ⟨rfl, .commenting⟩

end Publish

namespace Operation

variable {op : Operation}

theorem Posts.start (ho : op.Posts) (caller : Caller) (s : Scope) :
    (op.start caller s).scope.client = s.client ∧ Posting (.ofNext (op.start caller s).next) := by
  obtain ⟨r, w, hw⟩ := ho
  have hsink : Sink.ofEvent w.event r.appId = .commitStatus := by simp [Sink.ofEvent, hw]
  cases hp : r.hasClient && s.client.identity.token.truthy with
  | false =>
    simp only [Operation.start, Reporter.start, Reporter.prepare, hp, Bool.false_eq_true, if_false,
      Turn.ofExcept_error, Turn.map, Turn.andThen_error]
    exact ⟨rfl, .finished⟩
  | true =>
    have h := (Publish.post_postsOnly caller.now w.worded (s.enter w.worded.status.run)).posting
    simp only [Operation.start, Reporter.start, Reporter.prepare, hp, hsink, if_true,
      Turn.ofExcept_ok, Publish.start, Turn.map, Turn.andThen_log]
    exact h

theorem Posts.resume {p : Publish} (h : p = .commenting ∨ ∃ w, p = .posting w) (now : Moment)
    (req : Request) (reply : Reply) (s : Scope) :
    let u := (Running.reporting p).resume now req reply s
    u.scope.client = s.client ∧ Posting (.ofNext u.next) := by
  intro u
  refine Publish.PostsOnly.posting (t := p.resume now req reply s) ?_
  obtain rfl | ⟨w, rfl⟩ := h
  · exact Publish.postsOnly_finish _
  · cases hr : Publish.settle req reply with
    | error f =>
      simp only [Publish.resume, hr, Turn.ofExcept_error]
      exact Publish.postsOnly_finish _
    | ok =>
      simp only [Publish.resume, hr, Turn.ofExcept_ok]
      exact Publish.comment_postsOnly

end Operation

namespace System

open StatusRelay.Task (Fits Placed)

variable {sys sys' : System} {m : Move} {t : TaskId} {task : Task} {p : Phase}

theorem step_posts (hs : sys.step m = some sys') (ht : sys.tasks[m.task]? = some task)
    (ho : task.op.Posts) (hp : Posting task.phase) :
    ∃ p, Carries sys m task p sys' ∧ sys'.client = sys.client ∧ Posting p ∧
      (m.happening = .start ∨ m.happening = .enter → p.weight < task.phase.weight) := by
  have hturn := carries_after ht
  have hcancel := carries_cancelled ht
  obtain ⟨op, phase, ctx⟩ := task
  obtain ⟨id, now, happening⟩ := m
  simp only [System.step, ht] at hs
  have hresume {req : Request} {q : Publish} {reply : Reply}
      (hq : q = .commenting ∨ ∃ w, q = .posting w) :=
    Operation.Posts.resume hq now req reply ⟨sys.client, ctx⟩
  cases hp with
  | ready =>
    cases happening with
    | start =>
      obtain rfl := Option.some.inj hs
      obtain ⟨hc, hn⟩ := ho.start ⟨id, now⟩ ⟨sys.client, ctx⟩
      refine ⟨_, hturn _, hc, hn, fun _ ↦ ?_⟩
      rw [hn.weight_ofNext]
      exact Nat.zero_lt_two
    | cancel =>
      obtain rfl := Option.some.inj hs
      exact ⟨_, hcancel _, rfl, .finished, by simp⟩
    | _ => simp at hs
  | posting =>
    cases happening with
    | reply reply =>
      obtain rfl := Option.some.inj hs
      obtain ⟨hc, hn⟩ := hresume (.inr ⟨_, rfl⟩)
      exact ⟨_, hturn _, hc, hn, by simp⟩
    | cancel =>
      obtain rfl := Option.some.inj hs
      exact ⟨_, hcancel _, rfl, .finished, by simp⟩
    | _ => simp at hs
  | commenting =>
    cases happening with
    | reply reply =>
      obtain rfl := Option.some.inj hs
      obtain ⟨hc, hn⟩ := hresume (.inl rfl)
      exact ⟨_, hturn _, hc, hn, by simp⟩
    | cancel =>
      obtain rfl := Option.some.inj hs
      exact ⟨_, hcancel _, rfl, .finished, by simp⟩
    | _ => simp at hs
  | finished => cases happening <;> simp at hs

/-- Calls for check runs and reports of all kinds, in phases that fit, with locks that agree. -/
structure Orderly (sys : System) : Prop where
  fits : ∀ (t : TaskId) (task : Task), sys.tasks[t]? = some task →
    Fits sys.client.identity task.op task.phase
  locks : LocksAgree sys.run? sys.client.runs sys.standing
  asked : ∀ (t : TaskId) (task : Task), sys.tasks[t]? = some task →
    ∀ req, task.phase.request? = some req → (t, req) ∈ sys.sent

theorem asked_carries (h : Carries sys m task p sys')
    (ha : ∀ (t : TaskId) (task : Task), sys.tasks[t]? = some task →
      ∀ req, task.phase.request? = some req → (t, req) ∈ sys.sent) :
    ∀ (t : TaskId) (task : Task), sys'.tasks[t]? = some task →
      ∀ req, task.phase.request? = some req → (t, req) ∈ sys'.sent := by
  refine h.forall_tasks ha (fun ctx req hreq ↦ ?_) fun t task' hne ha' req hreq ↦ ?_
  · have hp : p.request? = some req := hreq
    rw [h.sent, hp]
    simp
  · rw [h.sent]
    exact List.mem_append_left _ (ha' req hreq)

theorem Orderly.carries (h : sys.Orderly) (hs : sys.step m = some sys') :
    ∃ task p, Carries sys m task p sys' ∧ sys'.Orderly ∧
      (m.happening = .start ∨ m.happening = .enter → p.weight < task.phase.weight) := by
  cases ht : sys.tasks[m.task]? with
  | none => simp [System.step, ht] at hs
  | some task =>
    cases h.fits m.task task ht with
    | @wants g hg hp =>
      obtain ⟨p, ctx, htasks, hsent, hc⟩ := step_course hs ht hg hp
      have hm : Carries sys m task p sys' := ⟨ht, ⟨ctx, htasks⟩, hsent⟩
      refine ⟨task, p, hm, ⟨?_, ?_, asked_carries hm h.asked⟩, hc.weight_lt⟩
      · refine hm.forall_tasks h.fits (fun ctx ↦ .wants hg hc.placed) fun t task' hne hf ↦ ?_
        rwa [hc.identity_eq]
      · have hpass := hc.passage
        rw [← System.standing_eq ht] at hpass
        rw [run?_congr hm.op_eq, hm.standing_eq]
        exact h.locks.passage (run?_eq ht hg) hpass
    | posts ho hp =>
      obtain ⟨p, hm, hc, hp', hw⟩ := step_posts hs ht ho hp
      refine ⟨task, p, hm, ⟨?_, ?_, asked_carries hm h.asked⟩, hw⟩
      · refine hm.forall_tasks h.fits (fun ctx ↦ .posts ho hp') fun t task' hne hf ↦ ?_
        rwa [hc]
      · have hsame : Function.update sys.standing m.task p.standing = sys.standing := by
          rw [hp'.standing_eq, ← hp.standing_eq, ← System.standing_eq ht, Function.update_eq_self]
        rw [run?_congr hm.op_eq, hm.standing_eq, hc, hsame]
        exact h.locks

theorem Orderly.step (h : sys.Orderly) (hs : sys.step m = some sys') : sys'.Orderly := by
  obtain ⟨task, p, -, ho, -⟩ := h.carries hs
  exact ho

theorem orderly_initial {client : Client} {ops : List Operation} (hc : client.IsIdle)
    (ho : ∀ op ∈ ops, (∃ g, op.Wants g) ∨ op.Posts) : (initial client ops).Orderly where
  fits t task ht := by
    obtain ⟨op, hop, rfl⟩ := initial_tasks ht
    obtain ⟨g, hg⟩ | hp := ho op (List.mem_of_getElem? hop)
    · exact .wants hg .ready
    · exact .posts hp .ready
  locks := locksAgree_initial hc ops
  asked t task ht req hreq := by
    obtain ⟨op, hop, rfl⟩ := initial_tasks ht
    cases hreq

/-- Whether a task is inside with its run, or its turn has come to enter. -/
def HasTurn (sys : System) (run : String) (t : TaskId) : Prop :=
  sys.run? t = some run ∧ (sys.standing t = .inside ∨ (sys.client.runs.lock run).next? = some t)

/-- A task that can start, or take the lock that it waits for. -/
def IsRunnable (sys : System) (t : TaskId) : Prop :=
  ∃ h : Happening, (h = .start ∨ h = .enter) ∧ ∀ now, (sys.step ⟨t, now, h⟩).isSome = true

/-- A task that has sent a request and goes on as soon as there is a reply. -/
def IsAwaiting (sys : System) (t : TaskId) : Prop :=
  ∃ req, sys.tasks[t]? >>= Task.pending? = some req ∧ (t, req) ∈ sys.sent ∧
    ∀ now reply, (sys.step ⟨t, now, .reply reply⟩).isSome = true

namespace Orderly

variable {run : String}

theorem isAwaiting (h : sys.Orderly) (ht : sys.tasks[t]? = some task) {req : Request}
    {st : Running} (hp : task.phase = .sending req st) : sys.IsAwaiting t := by
  refine ⟨req, ?_, h.asked t task ht req (by rw [hp]; rfl), fun now reply ↦ ?_⟩
  · simp only [ht, Option.bind_eq_bind, Option.bind_some, Task.pending?, hp]
  · simp only [System.step, ht, hp]
    rfl

theorem isAwaiting_of_inside (h : sys.Orderly) (hx : sys.standing t = .inside) :
    sys.IsAwaiting t := by
  cases ht : sys.tasks[t]? with
  | none => simp [System.standing, ht] at hx
  | some task =>
    rw [System.standing_eq ht] at hx
    cases hp : task.phase with
    | sending req st => exact h.isAwaiting ht hp
    | _ => simp [hp, Phase.standing] at hx

theorem isRunnable_of_next? (h : sys.Orderly) (hx : sys.standing t = .waiting)
    (hr : sys.run? t = some run) (hn : (sys.client.runs.lock run).next? = some t) :
    sys.IsRunnable t := by
  cases ht : sys.tasks[t]? with
  | none => simp [System.standing, ht] at hx
  | some task =>
    rw [System.standing_eq ht] at hx
    cases h.fits t task ht with
    | posts _ hp =>
      rw [hp.standing_eq] at hx
      cases hx
    | wants hg hp =>
      obtain rfl := Option.some.inj ((run?_eq ht hg).symm.trans hr)
      cases hphase : task.phase with
      | waiting run =>
        rw [hphase] at hp
        cases hp
        refine ⟨.enter, .inr rfl, fun now ↦ ?_⟩
        simp only [System.step, ht, hphase, mayEnter, hn, beq_self_eq_true, if_true,
          Operation.enter?_eq hg]
        rfl
      | sending req st =>
        simp only [hphase, Phase.standing] at hx
        split at hx <;> cases hx
      | _ => simp [hphase, Phase.standing] at hx

/-- It is the turn of the task that the lock belongs to, and so of one task only. -/
theorem hasTurn_iff (h : sys.Orderly) :
    sys.HasTurn run t ↔ (sys.client.runs.lock run).owner? = some t := by
  rw [HasTurn, Lock.owner?_eq_some, h.locks.holder]
  refine ⟨fun ⟨hr, ht⟩ ↦ ht.imp_left fun hx ↦ ⟨hr, hx⟩, ?_⟩
  rintro (⟨hr, hx⟩ | hn)
  · exact ⟨hr, .inl hx⟩
  · exact ⟨((h.locks.queue run t).1 (Lock.mem_of_next? hn)).1, .inr hn⟩

/-- Whoever has the turn is held up by nobody but the network. -/
theorem free_of_hasTurn (h : sys.Orderly) (ht : sys.HasTurn run t) :
    sys.IsRunnable t ∨ sys.IsAwaiting t := by
  obtain ⟨hr, hx | hn⟩ := ht
  · exact .inr (h.isAwaiting_of_inside hx)
  · obtain ⟨-, hx⟩ := (h.locks.queue run t).1 (Lock.mem_of_next? hn)
    exact .inl (h.isRunnable_of_next? hx hr hn)

/-- A task that has not finished can go on, or waits for a reply, or waits for a lock that
belongs to another task of its run. -/
theorem cases_of_unfinished (h : sys.Orderly) (ht : sys.tasks[t]? = some task)
    (hr : task.result? = none) :
    sys.IsRunnable t ∨ sys.IsAwaiting t ∨
      ∃ g t', task.op.Wants g ∧ task.phase = .waiting g.run ∧ t' ≠ t ∧ sys.HasTurn g.run t' := by
  cases hphase : task.phase with
  | ready =>
    refine .inl ⟨.start, .inl rfl, fun now ↦ ?_⟩
    simp only [System.step, ht, hphase]
    rfl
  | sending req st => exact .inr (.inl (h.isAwaiting ht hphase))
  | finished => simp [Task.result?, hphase] at hr
  | waiting run =>
    cases h.fits t task ht with
    | posts _ hp =>
      rw [hphase] at hp
      cases hp
    | @wants g hg hp =>
      rw [hphase] at hp
      cases hp
      have hx : sys.standing t = .waiting := by
        rw [System.standing_eq ht, hphase]
        rfl
      obtain ⟨t', ho⟩ := Lock.exists_owner_of_mem ((h.locks.queue g.run t).2 ⟨run?_eq ht hg, hx⟩)
      have hturn := h.hasTurn_iff.2 ho
      by_cases hne : t' = t
      · subst hne
        obtain hrun | hwait := h.free_of_hasTurn hturn
        · exact .inl hrun
        · exact .inr (.inl hwait)
      · exact .inr (.inr ⟨g, t', hg, rfl, hne, hturn⟩)

end Orderly

/-- What is outside a run of the system: the time, and what becomes of a request. -/
structure World where
  clock : System → Moment
  reply : System → TaskId → Request → Reply

def name? (sys : System) (t : TaskId) : Option String := sys.tasks[t]?.bind (·.op.name?)

/-- The tasks of one run get on by themselves and take so many replies. All other tasks stay where
they are, and nobody is cancelled. -/
inductive Advances (world : World) (run : String) : System → Nat → System → Prop
  | rest {sys : System} : Advances world run sys 0 sys
  | go {sys mid sys' : System} {t : TaskId} {h : Happening} {n : Nat}
      (hn : sys.name? t = some run) (hh : h = .start ∨ h = .enter)
      (hs : sys.step ⟨t, world.clock sys, h⟩ = some mid) (hr : Advances world run mid n sys') :
      Advances world run sys n sys'
  | take {sys mid sys' : System} {t : TaskId} {req : Request} {n : Nat}
      (hn : sys.name? t = some run) (hp : sys.tasks[t]? >>= Task.pending? = some req)
      (hs : sys.step ⟨t, world.clock sys, .reply (world.reply sys t req)⟩ = some mid)
      (hr : Advances world run mid n sys') : Advances world run sys (n + 1) sys'

def IsDone (sys : System) (run : String) : Prop :=
  ∀ (t : TaskId) (task : Task), sys.tasks[t]? = some task → task.op.name? = some run →
    task.result?.isSome = true

def weight (sys : System) : Nat := (sys.tasks.map (·.phase.weight)).sum

theorem sum_map_set_lt {α : Type} {f : α → Nat} {a b : α} (hf : f b < f a) :
    ∀ {l : List α} {i : Nat}, l[i]? = some a → ((l.set i b).map f).sum < (l.map f).sum
  | [], _, h => by simp at h
  | c :: l, 0, h => by
    obtain rfl : c = a := by simpa using h
    simpa using hf
  | c :: l, i + 1, h => by
    have ih := sum_map_set_lt hf (l := l) (i := i) (by simpa using h)
    simpa using ih

theorem Carries.weight_lt (h : Carries sys m task p sys') (hp : p.weight < task.phase.weight) :
    sys'.weight < sys.weight := by
  obtain ⟨ctx, ht⟩ := h.tasks
  rw [weight, ht]
  exact sum_map_set_lt (f := fun task ↦ task.phase.weight) (b := ⟨task.op, p, ctx⟩) hp h.found

namespace Orderly

variable {run : String}

theorem name?_of_run? (h : sys.Orderly) (hr : sys.run? t = some run) : sys.name? t = some run := by
  cases ht : sys.tasks[t]? with
  | none => simp [System.run?, ht] at hr
  | some task =>
    rw [System.run?, ht] at hr
    rw [System.name?, ht]
    cases h.fits t task ht with
    | wants hg => simpa [hg.goal?_eq, hg.name?_eq] using hr
    | posts ho => simp [ho.goal?_eq] at hr

/-- As long as a task of the run has not finished, one of them can go on or waits for a reply. -/
theorem exists_mover (h : sys.Orderly) (hd : ¬ sys.IsDone run) :
    ∃ t, sys.name? t = some run ∧ (sys.IsRunnable t ∨ sys.IsAwaiting t) := by
  simp only [IsDone, not_forall] at hd
  obtain ⟨t, task, ht, hn, hu⟩ := hd
  have hname : sys.name? t = some run := by rw [System.name?, ht]; exact hn
  obtain hr | hw | ⟨g, t', hg, -, -, ho⟩ := h.cases_of_unfinished ht (by simpa using hu)
  · exact ⟨t, hname, .inl hr⟩
  · exact ⟨t, hname, .inr hw⟩
  · obtain rfl := Option.some.inj (hg.name?_eq.symm.trans hn)
    exact ⟨t', h.name?_of_run? ho.1, h.free_of_hasTurn ho⟩

/-- The induction is on the number of replies, and in between on the pauses ahead. -/
theorem advances (world : World) (run : String) : ∀ (k : Nat) {sys : System}, sys.Orderly →
    ∃ n sys', Advances world run sys n sys' ∧ n ≤ k ∧ (n = k ∨ sys'.IsDone run) := by
  intro k
  induction k with
  | zero => exact fun {sys} _ ↦ ⟨0, sys, .rest, Nat.le_refl _, .inl rfl⟩
  | succ k ih =>
    intro sys
    induction hw : sys.weight using Nat.strongRecOn generalizing sys with
    | _ w ihw =>
      intro h
      by_cases hd : sys.IsDone run
      · exact ⟨0, sys, .rest, Nat.zero_le _, .inr hd⟩
      · obtain ⟨t, hn, ⟨happening, hh, hs⟩ | ⟨req, hp, -, hs⟩⟩ := h.exists_mover hd
        · obtain ⟨mid, hs⟩ := Option.isSome_iff_exists.1 (hs (world.clock sys))
          obtain ⟨task, p, hm, hmid, hlt⟩ := h.carries hs
          obtain ⟨n, sys', hr, hle, hend⟩ := ihw mid.weight (hw ▸ hm.weight_lt (hlt hh)) rfl hmid
          exact ⟨n, sys', .go hn hh hs hr, hle, hend⟩
        · obtain ⟨mid, hs⟩ := Option.isSome_iff_exists.1
            (hs (world.clock sys) (world.reply sys t req))
          obtain ⟨n, sys', hr, hle, hend⟩ := ih (h.step hs)
          exact ⟨n + 1, sys', .take hn hp hs hr, by omega, hend.imp (by omega) id⟩

end Orderly

/-- For calls for check runs and reports of all kinds that share one client, whatever has happened
so far: a task that has not finished can go on, or waits for the reply to a request of its own, or
waits for the lock of its run; then it is the turn of just one other task, of the same run, that can
go on or waits for a reply. And in every world the tasks of one run get on by themselves until all
of them have finished or as many replies are taken as one likes, though no other task moves. -/
theorem tasks_progress {client : Client} {ops : List Operation} (hc : client.IsIdle)
    (ho : ∀ op ∈ ops, (∃ g, op.Wants g) ∨ op.Posts) {moves : List Move}
    (hr : (initial client ops).run moves = some sys) :
    (∀ (t : TaskId) (task : Task), sys.tasks[t]? = some task → task.result? = none →
      sys.IsRunnable t ∨ sys.IsAwaiting t ∨
        ∃ run, task.phase = .waiting run ∧ sys.name? t = some run ∧
          ∃! t', t' ≠ t ∧ sys.name? t' = some run ∧ sys.HasTurn run t' ∧
            (sys.IsRunnable t' ∨ sys.IsAwaiting t')) ∧
    (∀ (world : World) (run : String) (k : Nat),
      ∃ n sys', Advances world run sys n sys' ∧ n ≤ k ∧ (n = k ∨ sys'.IsDone run)) := by
  have h : sys.Orderly := run_induction Orderly.step (orderly_initial hc ho) hr
  refine ⟨?_, fun world run k ↦ h.advances world run k⟩
  intro t task ht hu
  obtain hrun | hwait | ⟨g, t', hg, hp, hne, hturn⟩ := h.cases_of_unfinished ht hu
  · exact .inl hrun
  · exact .inr (.inl hwait)
  · refine .inr (.inr ⟨g.run, hp, h.name?_of_run? (run?_eq ht hg), t',
      ⟨hne, h.name?_of_run? hturn.1, hturn, h.free_of_hasTurn hturn⟩, ?_⟩)
    rintro t'' ⟨-, -, hturn', -⟩
    have howner := h.hasTurn_iff.1 hturn
    exact Option.some.inj ((h.hasTurn_iff.1 hturn').symm.trans howner)

end System

namespace Sample

def commitWrite : StatusWrite := { write with event := { write.event with onCommit := true } }

def severalOps : List Operation := ops ++ [.report ⟨true, 7⟩ commitWrite]

def queueing : List Move := [⟨0, noon, .start⟩, ⟨1, noon, .start⟩]

theorem wants_or_posts : ∀ op ∈ severalOps, (∃ g, op.Wants g) ∨ op.Posts := by
  intro op hop
  obtain hop | hop := List.mem_append.1 hop
  · exact .inl (wants op hop)
  · obtain rfl := List.mem_singleton.1 hop
    exact .inr (.report _ _ rfl)

end Sample

namespace System

theorem tasks_progress_queueing :
    Sample.client.IsIdle ∧ (∀ op ∈ Sample.severalOps, (∃ g, op.Wants g) ∨ op.Posts) ∧
      ∃ sys task, (initial Sample.client Sample.severalOps).run Sample.queueing = some sys ∧
        sys.tasks[1]? = some task ∧ task.phase = .waiting "run-1" ∧
        (sys.IsRunnable 1 ∨ sys.IsAwaiting 1 ∨
          ∃ run, task.phase = .waiting run ∧ sys.name? 1 = some run ∧
            ∃! t', t' ≠ 1 ∧ sys.name? t' = some run ∧ sys.HasTurn run t' ∧
              (sys.IsRunnable t' ∨ sys.IsAwaiting t')) ∧
        ∀ world, ∃ n sys', Advances world "run-1" sys n sys' ∧ n ≤ 3 ∧
          (n = 3 ∨ sys'.IsDone "run-1") := by
  have hc : Sample.client.IsIdle := Client.isIdle_create _ _
  obtain ⟨sys, task, hr, ht, hp⟩ : ∃ sys task,
      (initial Sample.client Sample.severalOps).run Sample.queueing = some sys ∧
        sys.tasks[1]? = some task ∧ task.phase = .waiting "run-1" := ⟨_, _, rfl, rfl, rfl⟩
  obtain ⟨hwait, hon⟩ := tasks_progress hc Sample.wants_or_posts hr
  have hu : task.result? = none := by rw [Task.result?, hp]
  exact ⟨hc, Sample.wants_or_posts, sys, task, hr, ht, hp, hwait 1 task ht hu,
    fun world ↦ hon world "run-1" 3⟩

/-- The task that held the lock is cancelled while two others wait for it. Until the first of them
takes the lock, the second waits for a lock that nobody holds. -/
theorem handed_over_and_not_held :
    ∃ sys task, (initial Sample.client (.replicate 3 (.ensureCheckRun ⟨Sample.write, 7⟩))).run
        [⟨0, Sample.noon, .start⟩, ⟨1, Sample.noon, .start⟩, ⟨2, Sample.noon, .start⟩,
          ⟨0, Sample.noon, .cancel⟩] = some sys ∧
      sys.tasks[2]? = some task ∧ task.phase = .waiting "run-1" ∧
      ¬ sys.IsRunnable 2 ∧ ¬ sys.IsAwaiting 2 ∧ (sys.client.runs.lock "run-1").holder = none ∧
      (sys.client.runs.lock "run-1").queue = [1, 2] := by
  refine ⟨_, _, rfl, rfl, rfl, ?_, ?_, rfl, rfl⟩
  · rintro ⟨h, rfl | rfl, hs⟩
    · exact absurd (hs Sample.noon) (by decide)
    · exact absurd (hs Sample.noon) (by decide)
  · rintro ⟨req, hreq, -⟩
    cases hreq

end System
end StatusRelay
