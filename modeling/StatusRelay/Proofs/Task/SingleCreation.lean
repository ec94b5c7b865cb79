import StatusRelay.Proofs.Task.Standing

namespace StatusRelay

open CheckRun (Goal Ensure)
open CheckRun.Ensure (Asks Answered)

namespace Request

def isUpdate (r : Request) : Bool := r.method == "PATCH"

def creates (r : Request) (run : String) : Bool :=
  r.method == "POST" &&
    match r.body.bind (·.get? "external_id") with
    | some (.str name) => name == run
    | _ => false

end Request

def Response.newId? (r : Response) : Option Int :=
  match r.body with
  | .json v =>
    match v.get? "id" with
    | some (.int id) => some id
    | _ => none
  | .unread _ _ => none

namespace System

/-- The task is about the run and inside its critical section. -/
def IsInside (sys : System) (run : String) (t : TaskId) : Prop :=
  sys.run? t = some run ∧ sys.standing t = .inside

/-- The task is about the run and has a request in flight that looks for a check run or asks for
one. -/
def IsAsking (sys : System) (run : String) (t : TaskId) : Prop :=
  sys.run? t = some run ∧ ∃ req, sys.tasks[t]? >>= Task.pending? = some req ∧ req.isUpdate = false

def questions (sys : System) (run : String) : List (TaskId × Request) :=
  sys.sent.filter fun x ↦ sys.run? x.1 == some run && !x.2.isUpdate

def confirmed? (sys : System) (run : String) (m : Move) : Option Int :=
  match sys.tasks[m.task]? >>= Task.pending?, m.happening with
  | some req, .reply (.answered r) =>
    if req.creates run && !r.isRejection then r.newId? else none
  | _, _ => none

def confirmed (run : String) : System → List Move → List Int
  | _, [] => []
  | sys, m :: moves =>
    match sys.step m with
    | some sys' => (sys.confirmed? run m).toList ++ confirmed run sys' moves
    | none => []

end System

namespace Task

variable {i : Identity} {op : Operation} {g : Goal} {req : Request}

theorem pending?_eq (task : Task) : task.pending? = task.phase.request? := by
  obtain ⟨op, phase, ctx⟩ := task
  cases phase <;> rfl

theorem isUpdate_of_updates {w : StatusWrite} {id : Int}
    (h : w.Updates i id req) : req.isUpdate = true := by
  obtain ⟨now, body, bearer, -, rfl⟩ := h
  rfl

theorem creates_of_updates {w : StatusWrite} {id : Int}
    (h : w.Updates i id req) (run : String) : req.creates run = false := by
  obtain ⟨now, body, bearer, -, rfl⟩ := h
  rfl

theorem creates_of_asks {e : Ensure} {run : String} (h : Asks i g e req)
    (hr : req.creates run = true) : e = .creating g ⟨g.write⟩ ∧ g.run = run := by
  cases h with
  | page => cases hr
  | @creation startedAt bearer =>
    have hp : (CheckRun.Creation.payload g.write startedAt).get? "external_id" =
        some (.str g.run) := by
      simp [CheckRun.Creation.payload, Json.Value.get?, Table.get?_cons, Goal.run]
    simp only [Request.creates, Option.bind_some, hp, Bool.and_eq_true, beq_iff_eq] at hr
    exact ⟨rfl, hr.2⟩

theorem Placed.standing_of_request {p : Phase} (h : Placed i op g p)
    (hr : p.request? = some req) (hu : req.isUpdate = false) : p.standing = .inside := by
  cases h with
  | inside ha => exact Phase.standing_holding op _ _
  | updating hs hw =>
    obtain rfl := Option.some.inj hr
    rw [isUpdate_of_updates hw] at hu
    cases hu
  | _ => cases hr

theorem created_of_newId (w : StatusWrite) (req : Request) {r : Response} {id : Int}
    (hr : r.isRejection = false) (hid : r.newId? = some id) :
    CheckRun.Creation.created w req (.answered r) = .ok (.int id) := by
  obtain ⟨status, body⟩ := r
  cases body with
  | unread => cases hid
  | json v =>
    have hj : (Reply.answered ⟨status, .json v⟩).json req = .ok v := by
      simp [Reply.json, Reply.accepted, hr, Response.json]
    simp only [Response.newId?] at hid
    split at hid
    · rename_i id' hv
      obtain rfl := Option.some.inj hid
      cases v with
      | obj ms =>
        simp only [Json.Value.get?] at hv
        simp only [CheckRun.Creation.created, hj, CheckRun.Creation.idOf, hv]
      | _ => cases hv
    · cases hid

theorem Course.filled_of_newId {t : TaskId} {c c' : Client} {p p' : Phase} {r : Response}
    {run : String} {id : Int}
    (hc : Course t op g c p (.reply (.answered r)) c' p') (hp : p.request? = some req)
    (hreq : req.creates run = true) (hr : r.isRejection = false) (hid : r.newId? = some id) :
    g.run = run ∧ p.standing = .inside ∧ c' = CheckRun.Ensure.filled g id c := by
  cases hc with
  | refuse => cases hp
  | take hn ho => cases ho
  | answer ha hans =>
    obtain rfl := Option.some.inj hp
    obtain ⟨rfl, hg⟩ := creates_of_asks ha hreq
    refine ⟨hg, Phase.standing_holding op _ _, ?_⟩
    cases hans with
    | confirm h =>
      have hok := h.symm.trans (created_of_newId g.write _ hr hid)
      simp only [Except.ok.injEq, Json.Value.int.injEq] at hok
      rw [hok]
    | fail h => exact absurd (created_of_newId g.write _ hr hid) (h id)
  | close hs hw =>
    obtain rfl := Option.some.inj hp
    rw [creates_of_updates hw] at hreq
    cases hreq

end Task

namespace System

variable {sys sys' : System} {m : Move} {run : String} {id : Int}

namespace Disciplined

theorem inside_unique (h : sys.Disciplined) {t t' : TaskId} (ht : sys.IsInside run t)
    (ht' : sys.IsInside run t') : t = t' :=
  h.locks.exclusive ht.1 ht.2 ht'.1 ht'.2

theorem isInside_of_isAsking (h : sys.Disciplined) {t : TaskId} (ht : sys.IsAsking run t) :
    sys.IsInside run t := by
  obtain ⟨hr, req, hp, hu⟩ := ht
  obtain ⟨task, htask, hp⟩ := Option.bind_eq_some_iff.1 hp
  obtain ⟨g, hg, hplaced⟩ := h.placed t task htask
  rw [Task.pending?_eq] at hp
  exact ⟨hr, by rw [standing_eq htask]; exact hplaced.standing_of_request hp hu⟩

theorem load_step (h : sys.Disciplined) (hs : sys.step m = some sys')
    (hl : sys.client.runs.load run = some id) : sys'.client.runs.load run = some id := by
  obtain ⟨task, g, p, hm⟩ := h.moves hs
  exact h.locks.load_mono hm.run?_task hm.passage hl

theorem load_run (h : sys.Disciplined) {moves : List Move} (hr : sys.run moves = some sys')
    (hl : sys.client.runs.load run = some id) : sys'.client.runs.load run = some id := by
  have hi := run_induction (P := fun sys ↦ sys.Disciplined ∧ sys.client.runs.load run = some id)
    (fun hp hs ↦ ⟨hp.1.step hs, hp.1.load_step hs hp.2⟩) ⟨h, hl⟩ hr
  exact hi.2

/-- A move that sends a question leaves its task inside, so that the cache has no number. -/
theorem questions_step (h : sys.Disciplined) (hs : sys.step m = some sys')
    (hl : sys.client.runs.load run = some id) : sys'.questions run = sys.questions run := by
  have hd := h.step hs
  have hl' := h.load_step hs hl
  obtain ⟨task, g, p, hm⟩ := h.moves hs
  simp only [questions, hm.run?_eq, hm.sent, List.filter_append, List.append_right_eq_self]
  cases hreq : p.request? with
  | none => rfl
  | some req =>
    have hno : (sys.run? m.task == some run && !req.isUpdate) = false := by
      by_contra hc
      simp only [Bool.not_eq_false, Bool.and_eq_true, beq_iff_eq, Bool.not_eq_true'] at hc
      obtain ⟨ctx, htask⟩ := hm.carries.getElem?_self
      have hx : sys'.standing m.task = .inside := by
        rw [standing_eq htask]
        exact hm.course.placed.standing_of_request hreq hc.2
      have hn := hd.locks.blank run m.task (by rw [hm.run?_eq]; exact hc.1) hx
      rw [hl'] at hn
      cases hn
    simp [hno]

theorem questions_run (h : sys.Disciplined) {moves : List Move} (hr : sys.run moves = some sys')
    (hl : sys.client.runs.load run = some id) : sys'.questions run = sys.questions run := by
  have hi := run_induction (P := fun sys₁ ↦ sys₁.Disciplined ∧
      sys₁.client.runs.load run = some id ∧ sys₁.questions run = sys.questions run)
    (fun hp hs ↦ ⟨hp.1.step hs, hp.1.load_step hs hp.2.1,
      (hp.1.questions_step hs hp.2.1).trans hp.2.2⟩) ⟨h, hl, rfl⟩ hr
  exact hi.2.2

theorem of_confirmed? (h : sys.Disciplined) (hs : sys.step m = some sys')
    (hc : sys.confirmed? run m = some id) :
    sys.client.runs.load run = none ∧ sys'.client.runs.load run = some id := by
  obtain ⟨task, g, p, hm⟩ := h.moves hs
  have hcourse := hm.course
  simp only [confirmed?, hm.found, Option.bind_eq_bind, Option.bind_some, Task.pending?_eq] at hc
  split at hc
  · rename_i req r hreq hhap
    rw [hhap] at hcourse
    simp only [Option.ite_none_right_eq_some, Bool.and_eq_true, Bool.not_eq_true'] at hc
    obtain ⟨⟨hcr, hrej⟩, hid⟩ := hc
    obtain ⟨rfl, hx, hfilled⟩ := hcourse.filled_of_newId hreq hcr hrej hid
    refine ⟨h.locks.blank g.run m.task hm.run?_task ?_, ?_⟩
    · rw [standing_eq hm.found, hx]
    · rw [hfilled]
      exact RunCache.load_store_self _ _ _
  · cases hc

/-- Nothing is confirmed once the cache has a number, and one number at most before. -/
theorem length_confirmed (moves : List Move) : ∀ {sys : System}, sys.Disciplined →
    (confirmed run sys moves).length ≤ if (sys.client.runs.load run).isSome then 0 else 1 := by
  induction moves with
  | nil => intro sys _; simp [confirmed]
  | cons m moves ih =>
    intro sys h
    cases hs : sys.step m with
    | none => simp [confirmed, hs]
    | some sys' =>
      have hrest := ih (h.step hs)
      simp only [confirmed, hs, List.length_append]
      cases hc : sys.confirmed? run m with
      | none =>
        simp only [Option.toList_none, List.length_nil, Nat.zero_add]
        cases hl : sys.client.runs.load run with
        | none => exact Nat.le_trans hrest (by split <;> simp)
        | some id => simpa only [h.load_step hs hl] using hrest
      | some id =>
        obtain ⟨hn, hl⟩ := h.of_confirmed? hs hc
        rw [hl] at hrest
        simp only [hn, Option.toList_some, List.length_singleton, Option.isSome_none]
        simp only [Option.isSome_some, if_true] at hrest
        simp only [Bool.false_eq_true, if_false]
        omega

end Disciplined

/-- For tasks that all want check runs and share one client: at most one of them is inside the
critical section of a run, or asks the server about it; as soon as the cache has a number for the
run, nobody asks again; and at most one creation is ever confirmed. -/
theorem at_most_one_creation {client : Client} {ops : List Operation} (hc : client.IsIdle)
    (ho : ∀ op ∈ ops, ∃ g, op.Wants g) {moves : List Move}
    (hr : (initial client ops).run moves = some sys) (run : String) :
    (∀ t t', sys.IsInside run t → sys.IsInside run t' → t = t') ∧
      (∀ t t', sys.IsAsking run t → sys.IsAsking run t' → t = t') ∧
      (∀ id, sys.client.runs.load run = some id → ∀ more sys', sys.run more = some sys' →
        sys'.questions run = sys.questions run) ∧
      (confirmed run (initial client ops) moves).length ≤ 1 := by
  have hi := disciplined_initial hc ho
  have hd := hi.run hr
  refine ⟨?_, ?_, ?_, ?_⟩
  · intro t t' ht ht'
    exact hd.inside_unique ht ht'
  · intro t t' ht ht'
    exact hd.inside_unique (hd.isInside_of_isAsking ht) (hd.isInside_of_isAsking ht')
  · intro id hl more sys' hm
    exact hd.questions_run hm hl
  · refine Nat.le_trans (hi.length_confirmed moves) ?_
    split <;> omega

end System

namespace Sample

def client : Client := .create "https://api.github.com" (.str "t")

def noon : Moment := ⟨⟨2024, 5, 1⟩, 12, 0, 0, 0, 0⟩

def write : StatusWrite :=
  ⟨⟨"org", "repo", "abc123", "push", 0, false⟩, ⟨"CI", ""⟩,
    ⟨"run-1", Stage.completed, "", Conclusion.success, "", "", "", ""⟩⟩

def ops : List Operation := [.ensureCheckRun ⟨write, 7⟩, .report ⟨true, 7⟩ write]

def nothingListed : Reply :=
  .answered ⟨200, .json (.obj [("total_count", .int 0), ("check_runs", .arr [])])⟩

def moves : List Move :=
  [⟨0, noon, .start⟩, ⟨1, noon, .start⟩, ⟨0, noon, .reply nothingListed⟩,
    ⟨0, noon, .reply (.answered ⟨201, .json (.obj [("id", .int 9)])⟩)⟩, ⟨1, noon, .enter⟩]

theorem wants : ∀ op ∈ ops, ∃ g, op.Wants g := by
  intro op hop
  simp only [ops, List.mem_cons, List.not_mem_nil, or_false] at hop
  obtain rfl | rfl := hop
  · exact ⟨_, .ensure _⟩
  · exact ⟨_, .report _ _ rfl⟩

end Sample

namespace System

theorem at_most_one_creation_two_tasks :
    Sample.client.IsIdle ∧ (∀ op ∈ Sample.ops, ∃ g, op.Wants g) ∧
      ∃ sys, (initial Sample.client Sample.ops).run Sample.moves = some sys ∧
        (∀ t t', sys.IsInside "run-1" t → sys.IsInside "run-1" t' → t = t') ∧
        (∀ t t', sys.IsAsking "run-1" t → sys.IsAsking "run-1" t' → t = t') ∧
        (∀ id, sys.client.runs.load "run-1" = some id → ∀ more sys', sys.run more = some sys' →
          sys'.questions "run-1" = sys.questions "run-1") ∧
        (confirmed "run-1" (initial Sample.client Sample.ops) Sample.moves).length ≤ 1 := by
  have hr : ((initial Sample.client Sample.ops).run Sample.moves).isSome = true := by decide
  obtain ⟨sys, hr⟩ := Option.isSome_iff_exists.1 hr
  have hc : Sample.client.IsIdle := Client.isIdle_create _ _
  exact ⟨hc, Sample.wants, sys, hr, at_most_one_creation hc Sample.wants hr "run-1"⟩

end System
end StatusRelay
