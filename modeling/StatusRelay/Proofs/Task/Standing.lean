import Mathlib.Logic.Function.Basic
import StatusRelay.Proofs.Task.Traffic

namespace StatusRelay

open CheckRun (Goal Ensure)
open CheckRun.Ensure (granted released filled)

/-- Where a task stands with regard to the critical section of its run. -/
inductive Standing where
  | outside
  | waiting
  | inside
deriving DecidableEq, Repr

def Running.ensure? : Running → Option Ensure
  | ensuring e => some e
  | publishing (.ensuring e) => some e
  | reporting (.ensuring e) => some e
  | _ => none

def Phase.standing : Phase → Standing
  | waiting _ => .waiting
  | sending _ st => if st.ensure?.isSome then .inside else .outside
  | _ => .outside

@[simp] theorem Operation.ensure?_holding (op : Operation) (e : Ensure) :
    (op.holding e).ensure? = some e := by
  cases op <;> rfl

@[simp] theorem Phase.standing_holding (op : Operation) (e : Ensure) (req : Request) :
    (sending req (op.holding e)).standing = .inside := by simp [standing]

theorem Phase.standing_updating {op : Operation} {st : Running} (h : op.updating? = some st)
    (req : Request) : (sending req st).standing = .outside := by
  cases op <;> simp only [Operation.updating?, reduceCtorEq, Option.some.injEq] at h
  all_goals subst h; rfl

/-- What a move of a task does to the cache and to the standing of the task. -/
inductive Passage (t : TaskId) (run : String) (c : RunCache) :
    Standing → RunCache → Standing → Prop
  | pass : Passage t run c .outside c .outside
  | queue (ho : (c.lock run).isOpen = false) :
      Passage t run c .outside (c.mapLock run (·.enqueue t)) .waiting
  | take {x : Standing} (hn : c.load run = none) (ho : (c.lock run).holder = none) :
      Passage t run c x (c.mapLock run (·.grant t)) .inside
  | bounce {x : Standing} (ho : (c.lock run).holder = none) :
      Passage t run c x ((c.mapLock run (·.grant t)).mapLock run Lock.release) .outside
  | withdraw : Passage t run c .waiting (c.mapLock run (·.withdraw t)) .outside
  | stay : Passage t run c .inside c .inside
  | leave : Passage t run c .inside (c.mapLock run Lock.release) .outside
  | fill (id : Int) :
      Passage t run c .inside ((c.store run id).mapLock run Lock.release) .outside

namespace Task

variable {t : TaskId} {op : Operation} {g : Goal} {c c' : Client} {p p' : Phase} {h : Happening}

theorem Admits.holder_eq_none {l : Lock} {run : String} (ha : Admits t l run p h) :
    l.holder = none := by
  cases ha with
  | atOnce ho =>
    simp only [Lock.isOpen, Bool.and_eq_true, Option.isNone_iff_eq_none] at ho
    exact ho.1
  | afterWait ho =>
    cases hl : l.holder with
    | none => rfl
    | some t' => simp [Lock.next?, Lock.isHeld, hl] at ho

theorem Settled.standing_eq {i : Identity} {id : Int} (hs : Settled i op g id p) :
    p.standing = .outside := by
  cases hs with
  | update hop hr => exact Phase.standing_updating hop _
  | _ => rfl

theorem Course.passage (hc : Course t op g c p h c' p') :
    Passage t g.run c.runs p.standing c'.runs p'.standing := by
  cases hc with
  | refuse => exact .pass
  | known hn hp =>
    rw [hp.standing_eq]
    exact .pass
  | queue hn ho => exact .queue ho
  | take hn ho he hp =>
    cases he with
    | look ha =>
      cases hp
      rw [Phase.standing_holding]
      exact .take hn ho.holder_eq_none
    | fail =>
      cases hp
      exact .bounce ho.holder_eq_none
  | knownLate hn ho hp =>
    rw [hp.standing_eq]
    have ha : Admits t (c.runs.lock g.run) g.run _ _ := .afterWait ho
    exact .bounce ha.holder_eq_none
  | withdraw => exact .withdraw
  | answer ha hr hp =>
    rw [Phase.standing_holding]
    cases hr with
    | more | create =>
      cases hp
      rw [Phase.standing_holding]
      exact .stay
    | reuse | confirm =>
      cases hp with
      | settle hs =>
        rw [hs.standing_eq]
        exact .fill _
    | giveUp | fail =>
      cases hp
      exact .leave
  | abandon ha =>
    rw [Phase.standing_holding]
    exact .leave
  | close hs hr | drop hs hr =>
    rw [Phase.standing_updating hs]
    exact .pass

end Task

/-- The locks agree with the standings of tasks that are each about one run. -/
structure LocksAgree (runOf : TaskId → Option String) (c : RunCache) (x : TaskId → Standing) :
    Prop where
  holder : ∀ run t, (c.lock run).holder = some t ↔ runOf t = some run ∧ x t = .inside
  queue : ∀ run t, t ∈ (c.lock run).queue ↔ runOf t = some run ∧ x t = .waiting
  /-- Whoever is inside found nothing in the cache, and nobody else can have put it there. -/
  blank : ∀ run t, runOf t = some run → x t = .inside → c.load run = none

namespace Passage

variable {t : TaskId} {run : String} {c c' : RunCache} {x y : Standing}

theorem elsewhere (hp : Passage t run c x c' y) {other : String} (ho : other ≠ run) :
    c'.lock other = c.lock other ∧ c'.load other = c.load other := by
  cases hp with
  | pass | stay => exact ⟨rfl, rfl⟩
  | queue | take | withdraw | leave => exact ⟨RunCache.lock_mapLock_of_ne ho _ _, rfl⟩
  | bounce =>
    refine ⟨?_, rfl⟩
    rw [RunCache.lock_mapLock_of_ne ho, RunCache.lock_mapLock_of_ne ho]
  | fill id => exact ⟨RunCache.lock_mapLock_of_ne ho _ _, RunCache.load_store_of_ne ho _ _⟩

end Passage

namespace LocksAgree

variable {runOf : TaskId → Option String} {c c' : RunCache} {x : TaskId → Standing}
  {t : TaskId} {run : String} {y : Standing}

/-- Two tasks are never inside the critical section of one run. -/
theorem exclusive (h : LocksAgree runOf c x) {t' : TaskId} (ht : runOf t = some run)
    (hx : x t = .inside) (ht' : runOf t' = some run) (hx' : x t' = .inside) : t = t' := by
  have hh := (h.holder run t).2 ⟨ht, hx⟩
  have hh' := (h.holder run t').2 ⟨ht', hx'⟩
  exact Option.some.inj (hh.symm.trans hh')

theorem load_mono (h : LocksAgree runOf c x) (hr : runOf t = some run)
    (hp : Passage t run c (x t) c' y) {other : String} {id : Int} (hl : c.load other = some id) :
    c'.load other = some id := by
  by_cases ho : other = run
  · subst ho
    generalize hx : x t = z at hp
    cases hp with
    | fill id' => simp [h.blank other t hr hx] at hl
    | _ => exact hl
  · rw [(hp.elsewhere ho).2, hl]

/-- After a move a task holds the lock of its run just if it is inside; for all others nothing has
changed. -/
theorem holder_passage (h : LocksAgree runOf c x) (hr : runOf t = some run)
    (hp : Passage t run c (x t) c' y) (t' : TaskId) :
    (c'.lock run).holder = some t' ↔
      if t' = t then y = .inside else (c.lock run).holder = some t' := by
  have hh := h.holder run t
  generalize hx : x t = z at hp
  simp only [hr, hx, true_and] at hh
  cases hp with
  | pass | stay =>
    split
    · simp_all
    · rfl
  | queue | withdraw =>
    simp only [RunCache.lock_mapLock_self, Lock.enqueue, Lock.withdraw]
    split
    · simp_all
    · rfl
  | take hn ho =>
    simp only [RunCache.lock_mapLock_self, Lock.grant, ho, reduceCtorEq]
    split
    · rename_i ht
      simp [ht]
    · rename_i ht
      simp [Ne.symm ht]
  | bounce ho =>
    simp only [RunCache.lock_mapLock_self, Lock.release, ho, reduceCtorEq]
    split <;> rfl
  | leave | fill =>
    simp only [iff_true] at hh
    simp only [RunCache.lock_mapLock_self, RunCache.lock_store, Lock.release, hh]
    split
    · simp
    · rename_i ht
      simp [Ne.symm ht]

theorem queue_passage (h : LocksAgree runOf c x) (hr : runOf t = some run)
    (hp : Passage t run c (x t) c' y) (t' : TaskId) :
    t' ∈ (c'.lock run).queue ↔
      if t' = t then y = .waiting else t' ∈ (c.lock run).queue := by
  have hq := h.queue run t
  generalize hx : x t = z at hp
  simp only [hr, hx, true_and] at hq
  cases hp with
  | pass | stay =>
    split
    · simp_all
    · rfl
  | queue =>
    simp only [RunCache.lock_mapLock_self, Lock.enqueue, List.mem_append, List.mem_singleton]
    split <;> simp_all
  | take | bounce | withdraw =>
    simp only [RunCache.lock_mapLock_self, Lock.release, Lock.grant, Lock.withdraw,
      List.mem_filter, bne_iff_ne, ne_eq]
    split <;> simp_all
  | leave | fill =>
    simp only [RunCache.lock_mapLock_self, RunCache.lock_store, Lock.release]
    split
    · simp_all
    · rfl

/-- A task outside has to do with no lock. -/
theorem of_outside (h : LocksAgree runOf c x) (hx : x t = .outside) (run : String) :
    (c.lock run).holder ≠ some t ∧ t ∉ (c.lock run).queue := by
  refine ⟨?_, ?_⟩
  · intro hh
    have hi := ((h.holder run t).1 hh).2
    rw [hx] at hi
    cases hi
  · intro hq
    have hw := ((h.queue run t).1 hq).2
    rw [hx] at hw
    cases hw

theorem blank_passage (h : LocksAgree runOf c x) (hr : runOf t = some run)
    (hp : Passage t run c (x t) c' y) {t' : TaskId} (hr' : runOf t' = some run)
    (hx' : Function.update x t y t' = .inside) : c'.load run = none := by
  by_cases ht : t' = t
  · subst ht
    rw [Function.update_self] at hx'
    subst hx'
    generalize hx : x t' = z at hp
    cases hp with
    | take hn ho => exact hn
    | stay => exact h.blank run t' hr hx
  · rw [Function.update_of_ne ht] at hx'
    have hn := h.blank run t' hr' hx'
    generalize hx : x t = z at hp
    cases hp with
    | fill id => exact absurd (h.exclusive hr' hx' hr hx) ht
    | _ => exact hn

theorem passage (h : LocksAgree runOf c x) (hr : runOf t = some run)
    (hp : Passage t run c (x t) c' y) : LocksAgree runOf c' (Function.update x t y) where
  holder other t' := by
    by_cases ho : other = run
    · subst ho
      rw [h.holder_passage hr hp t']
      by_cases ht : t' = t
      · subst ht; simp [hr]
      · rw [if_neg ht, Function.update_of_ne ht, h.holder]
    · rw [(hp.elsewhere ho).1, h.holder]
      by_cases ht : t' = t
      · subst ht; simp [hr, Ne.symm ho]
      · rw [Function.update_of_ne ht]
  queue other t' := by
    by_cases ho : other = run
    · subst ho
      rw [h.queue_passage hr hp t']
      by_cases ht : t' = t
      · subst ht; simp [hr]
      · rw [if_neg ht, Function.update_of_ne ht, h.queue]
    · rw [(hp.elsewhere ho).1, h.queue]
      by_cases ht : t' = t
      · subst ht; simp [hr, Ne.symm ho]
      · rw [Function.update_of_ne ht]
  blank other t' hr' hx' := by
    by_cases ho : other = run
    · subst ho
      exact h.blank_passage hr hp hr' hx'
    · have ht : t' ≠ t := by
        rintro rfl
        exact ho (Option.some.inj (hr'.symm.trans hr))
      rw [Function.update_of_ne ht] at hx'
      rw [(hp.elsewhere ho).2]
      exact h.blank other t' hr' hx'

end LocksAgree

/-- Nobody holds a lock of the client or waits for one. -/
def Client.IsIdle (c : Client) : Prop := ∀ run, c.runs.lock run = .free

theorem Client.isIdle_create (apiUrl : String) (token : Json.Value) :
    (Client.create apiUrl token).IsIdle := fun _ ↦ rfl

namespace System

open StatusRelay.Task (Course Placed)

def run? (sys : System) (t : TaskId) : Option String :=
  sys.tasks[t]?.bind fun task ↦ task.op.goal?.map Goal.run

def standing (sys : System) (t : TaskId) : Standing :=
  (sys.tasks[t]?.map (·.phase.standing)).getD .outside

/-- Tasks that want check runs, in phases that fit, with locks that agree. -/
structure Disciplined (sys : System) : Prop where
  placed : ∀ (t : TaskId) (task : Task), sys.tasks[t]? = some task →
    ∃ g, task.op.Wants g ∧ Placed sys.client.identity task.op g task.phase
  locks : LocksAgree sys.run? sys.client.runs sys.standing

variable {sys sys' : System} {m : Move}

theorem run?_eq {t : TaskId} {task : Task} {g : Goal} (ht : sys.tasks[t]? = some task)
    (hg : task.op.Wants g) : sys.run? t = some g.run := by
  simp [run?, ht, hg.goal?_eq]

theorem standing_eq {t : TaskId} {task : Task} (ht : sys.tasks[t]? = some task) :
    sys.standing t = task.phase.standing := by
  simp [standing, ht]

/-- The tasks are about the same runs as long as they do what they are asked for. -/
theorem run?_congr (h : ∀ t : TaskId, sys'.tasks[t]?.map Task.op = sys.tasks[t]?.map Task.op) :
    sys'.run? = sys.run? := by
  funext t
  have hop := congrArg (·.bind fun op ↦ op.goal?.map Goal.run) (h t)
  simp only [Option.bind_map] at hop
  exact hop

theorem Carries.standing_eq {task : Task} {p : Phase} (h : Carries sys m task p sys') :
    sys'.standing = Function.update sys.standing m.task p.standing := by
  funext t
  by_cases hne : t = m.task
  · obtain ⟨ctx, hmoved⟩ := h.getElem?_self
    rw [hne, Function.update_self, System.standing_eq hmoved]
  · simp only [standing, h.getElem?_of_ne hne, Function.update_of_ne hne]

structure Moves (sys : System) (m : Move) (task : Task) (g : Goal) (p : Phase) (sys' : System) :
    Prop where
  found : sys.tasks[m.task]? = some task
  wants : task.op.Wants g
  tasks : ∃ ctx, sys'.tasks = sys.tasks.set m.task ⟨task.op, p, ctx⟩
  sent : sys'.sent = sys.sent ++ (p.request?.map (m.task, ·)).toList
  course : Course m.task task.op g sys.client task.phase m.happening sys'.client p

theorem Disciplined.moves (h : sys.Disciplined) (hs : sys.step m = some sys') :
    ∃ task g p, Moves sys m task g p sys' := by
  cases ht : sys.tasks[m.task]? with
  | none => simp [step, ht] at hs
  | some task =>
    obtain ⟨g, hg, hp⟩ := h.placed m.task task ht
    obtain ⟨p, ctx, htasks, hsent, hc⟩ := step_course hs ht hg hp
    exact ⟨task, g, p, ht, hg, ⟨ctx, htasks⟩, hsent, hc⟩

namespace Moves

variable {task : Task} {g : Goal} {p : Phase}

theorem carries (h : Moves sys m task g p sys') : Carries sys m task p sys' :=
  ⟨h.found, h.tasks, h.sent⟩

theorem run?_eq (h : Moves sys m task g p sys') : sys'.run? = sys.run? :=
  run?_congr h.carries.op_eq

theorem passage (h : Moves sys m task g p sys') :
    Passage m.task g.run sys.client.runs (sys.standing m.task) sys'.client.runs p.standing := by
  rw [System.standing_eq h.found]
  exact h.course.passage

theorem run?_task (h : Moves sys m task g p sys') : sys.run? m.task = some g.run :=
  System.run?_eq h.found h.wants

theorem disciplined (h : Moves sys m task g p sys') (hd : sys.Disciplined) : sys'.Disciplined where
  placed := by
    refine h.carries.forall_tasks hd.placed (fun ctx ↦ ⟨g, h.wants, h.course.placed⟩) ?_
    intro t task' hne hp
    rwa [h.course.identity_eq]
  locks := by
    rw [h.run?_eq, h.carries.standing_eq]
    exact hd.locks.passage h.run?_task h.passage

end Moves

theorem Disciplined.step (h : sys.Disciplined) (hs : sys.step m = some sys') :
    sys'.Disciplined := by
  obtain ⟨task, g, p, hm⟩ := h.moves hs
  exact hm.disciplined h

theorem Disciplined.run (h : sys.Disciplined) {moves : List Move}
    (hr : sys.run moves = some sys') : sys'.Disciplined :=
  run_induction Disciplined.step h hr

theorem locksAgree_initial {client : Client} (hc : client.IsIdle) (ops : List Operation) :
    LocksAgree (initial client ops).run? client.runs (initial client ops).standing := by
  have hs (t : TaskId) : (initial client ops).standing t = .outside := by
    simp only [standing, initial, List.getElem?_map]
    cases ops[t]? <;> rfl
  refine ⟨?_, ?_, ?_⟩
  · intro run t
    rw [hs]
    simp [hc run, Lock.free]
  · intro run t
    rw [hs]
    simp [hc run, Lock.free]
  · intro run t _ hx
    rw [hs] at hx
    cases hx

theorem disciplined_initial {client : Client} {ops : List Operation} (hc : client.IsIdle)
    (ho : ∀ op ∈ ops, ∃ g, op.Wants g) : (initial client ops).Disciplined where
  placed t task ht := by
    simp only [initial, List.getElem?_map, Option.map_eq_some_iff] at ht
    obtain ⟨op, hop, rfl⟩ := ht
    obtain ⟨g, hg⟩ := ho op (List.mem_of_getElem? hop)
    exact ⟨g, hg, .ready⟩
  locks := locksAgree_initial hc ops

end System
end StatusRelay
