import StatusRelay.Proofs.Task.Course

namespace StatusRelay

inductive Packet where
  | out (t : TaskId) (req : Request)
  | back (t : TaskId) (req : Request) (reply : Reply)

def Packet.sent? : Packet → Option (TaskId × Request)
  | out t req => some (t, req)
  | back _ _ _ => none

theorem Phase.sending_of_request? {p : Phase} {req : Request} (h : p.request? = some req) :
    ∃ st, p = .sending req st := by
  cases p with
  | sending req' st =>
    obtain rfl := Option.some.inj h
    exact ⟨st, rfl⟩
  | _ => cases h

namespace System

variable {sys sys' : System} {m : Move} {task : Task}

structure Cut (sys : System) (before : List Move) (mid : System) (m : Move) (mid' : System)
    (after : List Move) (sys' : System) : Prop where
  before : sys.run before = some mid
  step : mid.step m = some mid'
  after : mid'.run after = some sys'

/-- What the moves of a run leave, one after the other. -/
def trail {α : Type} (leaves : System → Move → System → List α) : System → List Move → List α
  | _, [] => []
  | sys, m :: moves =>
    match sys.step m with
    | some sys' => leaves sys m sys' ++ trail leaves sys' moves
    | none => []

section Trail

variable {α : Type} {leaves : System → Move → System → List α} {x : α}

theorem trail_cons (hs : sys.step m = some sys') (moves : List Move) :
    trail leaves sys (m :: moves) = leaves sys m sys' ++ trail leaves sys' moves := by
  simp only [trail, hs]

theorem trail_append {before : List Move} (after : List Move) : ∀ {sys : System},
    sys.run before = some sys' →
    trail leaves sys (before ++ after) = trail leaves sys before ++ trail leaves sys' after := by
  induction before with
  | nil =>
    intro sys hr
    obtain rfl := Option.some.inj hr
    rfl
  | cons m moves ih =>
    intro sys hr
    obtain ⟨mid, hs, hr⟩ := Option.bind_eq_some_iff.1 hr
    rw [List.cons_append, trail_cons hs, trail_cons hs, ih hr, List.append_assoc]

/-- What is kept by every move, together with what the moves have left, is so by a run. -/
theorem trail_induction {P : List α → System → Prop} {moves : List Move}
    (hstep : ∀ {h sys m sys'}, P h sys → System.step sys m = some sys' →
      P (h ++ leaves sys m sys') sys') :
    ∀ {h : List α} {sys : System}, P h sys → sys.run moves = some sys' →
      P (h ++ trail leaves sys moves) sys' := by
  induction moves with
  | nil =>
    intro h sys hp hr
    obtain rfl := Option.some.inj hr
    rwa [trail, List.append_nil]
  | cons m moves ih =>
    intro h sys hp hr
    obtain ⟨mid, hs, hr⟩ := Option.bind_eq_some_iff.1 hr
    rw [trail_cons hs, ← List.append_assoc]
    exact ih (hstep hp hs) hr

theorem exists_cut_of_mem_trail {moves : List Move} : ∀ {sys : System},
    sys.run moves = some sys' → x ∈ trail leaves sys moves →
    ∃ before mid m mid' after, moves = before ++ m :: after ∧
      Cut sys before mid m mid' after sys' ∧ x ∈ leaves mid m mid' := by
  induction moves with
  | nil =>
    intro sys _ hx
    cases hx
  | cons m moves ih =>
    intro sys hr hx
    obtain ⟨mid, hs, hr⟩ := Option.bind_eq_some_iff.1 hr
    rw [trail_cons hs, List.mem_append] at hx
    obtain hx | hx := hx
    · exact ⟨[], sys, m, mid, moves, rfl, ⟨rfl, hs, hr⟩, hx⟩
    · obtain ⟨before, mid', m', mid'', after, rfl, hcut, hx⟩ := ih hr hx
      refine ⟨m :: before, mid', m', mid'', after, rfl, ⟨?_, hcut.step, hcut.after⟩, hx⟩
      exact Option.bind_eq_some_iff.2 ⟨mid, hs, hcut.before⟩

end Trail

def incoming (sys : System) (m : Move) : List Packet :=
  match sys.tasks[m.task]? >>= Task.pending?, m.happening with
  | some req, .reply reply => [.back m.task req reply]
  | _, _ => []

def outgoing (sys sys' : System) : List Packet :=
  (sys'.sent.drop sys.sent.length).map fun x ↦ .out x.1 x.2

def traffic : System → List Move → List Packet :=
  trail fun sys m sys' ↦ sys.incoming m ++ sys.outgoing sys'

theorem incoming_cases (sys : System) (m : Move) :
    sys.incoming m = [] ∨ ∃ req reply, sys.incoming m = [.back m.task req reply] := by
  unfold incoming
  split
  · exact .inr ⟨_, _, rfl⟩
  · exact .inl rfl

theorem incoming_eq {req : Request} {st : Running} {reply : Reply}
    (ht : sys.tasks[m.task]? = some task) (hp : task.phase = .sending req st)
    (hh : m.happening = .reply reply) : sys.incoming m = [.back m.task req reply] := by
  simp [incoming, ht, Task.pending?, hp, hh]

theorem filterMap_sent?_incoming (sys : System) (m : Move) :
    (sys.incoming m).filterMap Packet.sent? = [] := by
  obtain hi | ⟨req, reply, hi⟩ := incoming_cases sys m <;> rw [hi] <;> rfl

theorem sent_of_incoming {past before : List Packet} {t : TaskId} {req : Request}
    (h : before ++ [.out t req] <+: past ++ sys.incoming m) :
    before ++ [.out t req] <+: past := by
  obtain hi | ⟨req', reply, hi⟩ := incoming_cases sys m
  · rwa [hi, List.append_nil] at h
  · rw [hi, List.prefix_concat_iff] at h
    obtain h | h := h
    · exact absurd (List.append_inj_right' h rfl) (by simp)
    · exact h

theorem incoming_subset (past : List Packet) (sys sys' : System) (m : Move) :
    past ++ sys.incoming m ⊆ past ++ (sys.incoming m ++ sys.outgoing sys') := by
  rw [← List.append_assoc]
  exact List.subset_append_left _ _

theorem traffic_cons (hs : sys.step m = some sys') (moves : List Move) :
    sys.traffic (m :: moves) = sys.incoming m ++ sys.outgoing sys' ++ sys'.traffic moves :=
  trail_cons hs moves

theorem traffic_induction {P : List Packet → System → Prop} {moves : List Move}
    (h₀ : P [] sys) (hstep : ∀ {h sys m sys'}, P h sys → System.step sys m = some sys' →
      P (h ++ (sys.incoming m ++ sys.outgoing sys')) sys')
    (hr : sys.run moves = some sys') : P (sys.traffic moves) sys' := by
  have h := trail_induction hstep h₀ hr
  rwa [List.nil_append] at h

def abandoned (sys : System) (m : Move) (task : Task) : Client :=
  let s : Scope := ⟨sys.client, task.context⟩
  match task.phase with
  | .sending _ st => (st.cancel s).client
  | .waiting run => (task.op.withdraw ⟨m.task, m.now⟩ run s).client
  | _ => sys.client

/-- How a move deals with its task: the reply that it brings, the client that it leaves behind and
the phase that the task gets to. -/
inductive Deals (sys : System) (m : Move) (task : Task) : List Packet → Client → Phase → Prop
  | start {t : Turn Running Outcome} (hp : task.phase = .ready)
      (ht : task.op.start ⟨m.task, m.now⟩ ⟨sys.client, task.context⟩ = t) :
      Deals sys m task [] t.scope.client (.ofNext t.next)
  | resume {req : Request} {st : Running} {reply : Reply} {t : Turn Running Outcome}
      (hp : task.phase = .sending req st)
      (ht : st.resume m.now req reply ⟨sys.client, task.context⟩ = t) :
      Deals sys m task [.back m.task req reply] t.scope.client (.ofNext t.next)
  | enter {run : String} {t : Turn Running Outcome} (hp : task.phase = .waiting run)
      (ht : task.op.enter? ⟨m.task, m.now⟩ ⟨sys.client, task.context⟩ = some t) :
      Deals sys m task [] t.scope.client (.ofNext t.next)
  | cancel {c : Client} (hi : c.identity = sys.client.identity) (hc : c = sys.abandoned m task) :
      Deals sys m task [] c (.finished (.error .cancelled))

/-- What a move does to the tasks and to the requests, with the phase to which it brings its own
task. -/
structure Carries (sys : System) (m : Move) (task : Task) (p : Phase) (sys' : System) : Prop where
  found : sys.tasks[m.task]? = some task
  tasks : ∃ ctx, sys'.tasks = sys.tasks.set m.task ⟨task.op, p, ctx⟩
  sent : sys'.sent = sys.sent ++ (p.request?.map (m.task, ·)).toList

namespace Carries

variable {p : Phase}

theorem getElem?_self (h : Carries sys m task p sys') :
    ∃ ctx, sys'.tasks[m.task]? = some ⟨task.op, p, ctx⟩ := by
  obtain ⟨ctx, ht⟩ := h.tasks
  obtain ⟨hlt, -⟩ := List.getElem?_eq_some_iff.1 h.found
  exact ⟨ctx, by rw [ht, List.getElem?_set_self hlt]⟩

theorem getElem?_of_ne (h : Carries sys m task p sys') {t : TaskId} (hne : t ≠ m.task) :
    sys'.tasks[t]? = sys.tasks[t]? := by
  obtain ⟨ctx, ht⟩ := h.tasks
  rw [ht, List.getElem?_set_ne (Ne.symm hne)]

theorem outgoing_eq (h : Carries sys m task p sys') :
    sys.outgoing sys' = (p.request?.map (Packet.out m.task)).toList := by
  rw [outgoing, h.sent, List.drop_left]
  cases p.request? <;> rfl

/-- What a move sends comes from its task, after the reply that the move brings. -/
theorem sent_before_or (h : Carries sys m task p sys') {past before : List Packet} {t : TaskId}
    {req : Request}
    (hb : before ++ [.out t req] <+: past ++ (sys.incoming m ++ sys.outgoing sys')) :
    before ++ [.out t req] <+: past ∨
      t = m.task ∧ before = past ++ sys.incoming m ∧ p.request? = some req := by
  rw [h.outgoing_eq] at hb
  cases hp : p.request? with
  | none =>
    rw [hp, Option.map_none, Option.toList_none, List.append_nil] at hb
    exact .inl (sent_of_incoming hb)
  | some req' =>
    rw [hp, Option.map_some, Option.toList_some, ← List.append_assoc,
      List.prefix_concat_iff] at hb
    obtain hb | hb := hb
    · obtain ⟨hbefore, hout⟩ := List.append_inj' hb rfl
      simp only [List.cons.injEq, Packet.out.injEq, and_true] at hout
      exact .inr ⟨hout.1, hbefore, congrArg some hout.2.symm⟩
    · exact .inl (sent_of_incoming hb)

/-- What is to be known of every task after a move is to be shown of the task that moved, and kept
for the others. -/
theorem forall_tasks (h : Carries sys m task p sys') {P P' : TaskId → Task → Prop}
    (hP : ∀ t task', sys.tasks[t]? = some task' → P t task')
    (hself : ∀ ctx, P' m.task ⟨task.op, p, ctx⟩)
    (hother : ∀ t task', t ≠ m.task → P t task' → P' t task') (t : TaskId) (task' : Task)
    (ht : sys'.tasks[t]? = some task') : P' t task' := by
  by_cases hne : t = m.task
  · obtain ⟨ctx, hmoved⟩ := h.getElem?_self
    rw [hne, hmoved] at ht
    obtain rfl := Option.some.inj ht
    rw [hne]
    exact hself ctx
  · rw [h.getElem?_of_ne hne] at ht
    exact hother t task' hne (hP t task' ht)

theorem op_eq (h : Carries sys m task p sys') (t : TaskId) :
    sys'.tasks[t]?.map Task.op = sys.tasks[t]?.map Task.op := by
  by_cases hne : t = m.task
  · obtain ⟨ctx, hmoved⟩ := h.getElem?_self
    rw [hne, hmoved, h.found]
    rfl
  · rw [h.getElem?_of_ne hne]

end Carries

theorem initial_tasks {client : Client} {ops : List Operation} {t : TaskId}
    (h : (initial client ops).tasks[t]? = some task) :
    ∃ op, ops[t]? = some op ∧ task = .create .initial op := by
  simp only [initial, List.getElem?_map, Option.map_eq_some_iff] at h
  obtain ⟨op, hop, rfl⟩ := h
  exact ⟨op, hop, rfl⟩

theorem identity_cancel (st : Running) (s : Scope) :
    (st.cancel s).client.identity = s.client.identity := by
  cases st with
  | publishing p | reporting p => cases p <;> rfl
  | _ => rfl

theorem identity_withdraw (op : Operation) (caller : Caller) (run : String) (s : Scope) :
    (op.withdraw caller run s).client.identity = s.client.identity := by
  cases op <;> rfl

theorem carries_after (ht : sys.tasks[m.task]? = some task) (t : Turn Running Outcome) :
    Carries sys m task (.ofNext t.next) (sys.after m.task task t) where
  found := ht
  tasks := ⟨_, rfl⟩
  sent := by rw [← requests_ofNext]; rfl

theorem carries_cancelled (ht : sys.tasks[m.task]? = some task) (s : Scope) :
    Carries sys m task (.finished (.error .cancelled)) (sys.cancelled m.task task s) where
  found := ht
  tasks := ⟨_, rfl⟩
  sent := (List.append_nil _).symm

theorem step_cases (hs : sys.step m = some sys') : ∃ task p, Carries sys m task p sys' ∧
    Deals sys m task (sys.incoming m) sys'.client p := by
  cases ht : sys.tasks[m.task]? with
  | none => simp [step, ht] at hs
  | some task =>
    have hturn := carries_after ht
    have hcancel := carries_cancelled ht
    obtain ⟨op, phase, ctx⟩ := task
    obtain ⟨id, now, happening⟩ := m
    simp only [step, ht] at hs
    simp only [incoming, ht, Option.bind_eq_bind, Option.bind_some, Task.pending?]
    cases phase with
    | ready =>
      cases happening with
      | start =>
        obtain rfl := Option.some.inj hs
        exact ⟨_, _, hturn _, .start rfl rfl⟩
      | cancel =>
        obtain rfl := Option.some.inj hs
        exact ⟨_, _, hcancel _, .cancel rfl rfl⟩
      | _ => simp at hs
    | sending req st =>
      cases happening with
      | reply reply =>
        obtain rfl := Option.some.inj hs
        exact ⟨_, _, hturn _, .resume rfl rfl⟩
      | cancel =>
        obtain rfl := Option.some.inj hs
        exact ⟨_, _, hcancel _, .cancel (identity_cancel st _) rfl⟩
      | _ => simp at hs
    | waiting run =>
      cases happening with
      | enter =>
        simp only [Option.ite_none_right_eq_some, Option.map_eq_some_iff] at hs
        obtain ⟨-, t, he, rfl⟩ := hs
        exact ⟨_, _, hturn t, .enter rfl he⟩
      | cancel =>
        obtain rfl := Option.some.inj hs
        exact ⟨_, _, hcancel _, .cancel (identity_withdraw op _ run _) rfl⟩
      | _ => simp at hs
    | finished => cases happening <;> simp at hs

theorem next_of_ofNext {next : Next Running Outcome} {req : Request} {st : Running}
    (h : Phase.ofNext next = .sending req st) : next = .send req st := by
  cases next <;> simp_all [Phase.ofNext]

theorem done_of_ofNext {next : Next Running Outcome} {r : Except Failure Outcome}
    (h : Phase.ofNext next = .finished r) : next = .done r := by
  cases next <;> simp_all [Phase.ofNext]

theorem not_finished_of_step (hs : sys.step m = some sys') (ht : sys.tasks[m.task]? = some task)
    (r : Except Failure Outcome) : task.phase ≠ .finished r := by
  intro hp
  simp [System.step, ht, hp] at hs

theorem phase_step_of_finished (hs : sys.step m = some sys') {t : TaskId}
    {r : Except Failure Outcome} (ht : sys.tasks[t]?.map Task.phase = some (.finished r)) :
    sys'.tasks[t]?.map Task.phase = some (.finished r) := by
  obtain ⟨task, p, hc, -⟩ := step_cases hs
  by_cases hne : t = m.task
  · subst hne
    rw [hc.found, Option.map_some] at ht
    exact absurd (Option.some.inj ht) (not_finished_of_step hs hc.found r)
  · rw [hc.getElem?_of_ne hne, ht]

theorem op_run {moves : List Move} (hr : sys.run moves = some sys') (t : TaskId) :
    sys'.tasks[t]?.map Task.op = sys.tasks[t]?.map Task.op := by
  refine run_induction (P := fun mid ↦ mid.tasks[t]?.map Task.op = sys.tasks[t]?.map Task.op)
    ?_ rfl hr
  intro mid m next hmid hs
  obtain ⟨task, p, hc, -⟩ := step_cases hs
  rw [hc.op_eq, hmid]

theorem phase_run_of_finished {moves : List Move} (hr : sys.run moves = some sys') {t : TaskId}
    {r : Except Failure Outcome} (ht : sys.tasks[t]?.map Task.phase = some (.finished r)) :
    sys'.tasks[t]?.map Task.phase = some (.finished r) :=
  run_induction (P := fun mid ↦ mid.tasks[t]?.map Task.phase = some (.finished r))
    (fun hmid hs ↦ phase_step_of_finished hs hmid) ht hr

/-- The requests of the traffic are the ones that a system keeps. -/
theorem filterMap_sent?_traffic {moves : List Move} (hr : sys.run moves = some sys') :
    sys.sent ++ (sys.traffic moves).filterMap Packet.sent? = sys'.sent := by
  -- The requests before the run are kept in front, for the run may start anywhere.
  refine traffic_induction (P := fun h sys'' ↦ sys.sent ++ h.filterMap Packet.sent? = sys''.sent)
    (List.append_nil _) ?_ hr
  intro h mid m next hmid hs
  obtain ⟨task, p, hc, -⟩ := step_cases hs
  rw [List.filterMap_append, List.filterMap_append, filterMap_sent?_incoming, hc.outgoing_eq,
    hc.sent, List.nil_append, ← List.append_assoc, hmid]
  cases p.request? <;> rfl

/-- Every task is what was asked for, in a phase of which `P` holds, and so it was whenever a
request was sent. -/
structure Follows (ops : List Operation) (P : Operation → Phase → Prop) (sys : System) : Prop where
  tasks : ∀ (t : TaskId) (task : Task), sys.tasks[t]? = some task →
    ops[t]? = some task.op ∧ P task.op task.phase
  sent : ∀ (t : TaskId) (req : Request), (t, req) ∈ sys.sent →
    ∃ op st, ops[t]? = some op ∧ P op (.sending req st)

section Follows

variable {client : Client} {ops : List Operation} {P : Operation → Phase → Prop}

theorem follows_initial (h₀ : ∀ op ∈ ops, P op .ready) : Follows ops P (initial client ops) where
  tasks t task ht := by
    obtain ⟨op, hop, rfl⟩ := initial_tasks ht
    exact ⟨hop, h₀ op (List.mem_of_getElem? hop)⟩
  sent t req hmem := by cases hmem

theorem Follows.step (h : Follows ops P sys) (hs : sys.step m = some sys')
    (hkept : ∀ task back c p, P task.op task.phase → Deals sys m task back c p → P task.op p) :
    Follows ops P sys' := by
  obtain ⟨task, p, hc, hd⟩ := step_cases hs
  obtain ⟨hop, hphase⟩ := h.tasks m.task task hc.found
  have hp : P task.op p := hkept task _ _ p hphase hd
  refine ⟨hc.forall_tasks h.tasks (fun _ ↦ ⟨hop, hp⟩) fun _ _ _ h ↦ h, ?_⟩
  intro t req hmem
  rw [hc.sent, List.mem_append, Option.mem_toList, Option.map_eq_some_iff] at hmem
  obtain hmem | ⟨req', hreq, heq⟩ := hmem
  · exact h.sent t req hmem
  · cases heq
    obtain ⟨st, rfl⟩ := Phase.sending_of_request? hreq
    exact ⟨task.op, st, hop, hp⟩

/-- What holds of every task that is ready and is kept by whatever happens to it holds all along. -/
theorem follows_run (h₀ : ∀ op ∈ ops, P op .ready)
    (hkept : ∀ sys m task back c p, P task.op task.phase → Deals sys m task back c p → P task.op p)
    {moves : List Move} (hr : (initial client ops).run moves = some sys) : Follows ops P sys :=
  run_induction (fun h hs ↦ h.step hs (hkept _ _)) (follows_initial h₀) hr

end Follows

end System
end StatusRelay
