import StatusRelay.Proofs.GitHub.Signing
import StatusRelay.Proofs.Log.RunTasks
import StatusRelay.Proofs.Task.SingleCreation
import StatusRelay.Proofs.Task.Traffic

namespace StatusRelay

theorem Reporter.context_cancel (p : Publish) (s : Scope) :
    (cancel p s).context = s.context.leave := by cases p <;> rfl

def sinkContext (w : StatusWrite) : RunContext := RunContext.initial.child.enter w.status.run

def Phase.isUnderWay : Phase → Bool
  | .sending _ _ => true
  | .waiting _ => true
  | _ => false

namespace Task

structure ReportsIn (w : StatusWrite) (task : Task) : Prop where
  context_eq : task.context =
    if task.phase.isUnderWay then sinkContext w else RunContext.initial.child
  state : ∀ req st, task.phase = .sending req st → ∃ p, st = .reporting p

def afterReport (task : Task) (t : Turn Publish Unit) : Task :=
  let t : Turn Running Outcome := t.map .reporting fun _ ↦ .written
  { task with phase := .ofNext t.next, context := t.scope.context }

theorem reportsIn_afterReport {w : StatusWrite} {i : Identity} {t : Turn Publish Unit}
    (h : t.InBlock i (sinkContext w)) (task : Task) : (task.afterReport t).ReportsIn w := by
  have hblock : (t.map Running.reporting fun _ ↦ Outcome.written).InBlock i (sinkContext w) := h.map
  refine ⟨?_, ?_⟩
  · simp only [afterReport, hblock.context_eq]
    cases (t.map Running.reporting fun _ ↦ Outcome.written).next <;> rfl
  · intro req st hst
    obtain ⟨p, rfl, -⟩ := Turn.next_map (System.next_of_ofNext hst)
    exact ⟨p, rfl⟩

end Task

namespace System

variable {sys sys' : System} {m : Move} {task : Task} {r : Reporter} {w : StatusWrite}

structure MovesIn (sys : System) (id : TaskId) (op : Operation) (w : StatusWrite)
    (sys' : System) : Prop where
  tasks : ∃ task, task.op = op ∧ task.ReportsIn w ∧ sys'.tasks = sys.tasks.set id task
  records : ∃ rs, sys'.records = sys.records ++ rs ∧ ∀ rec ∈ rs, rec.run = w.status.run

theorem movesIn_after {i : Identity} {t : Turn Publish Unit} (h : t.InBlock i (sinkContext w))
    (id : TaskId) :
    MovesIn sys id task.op w (sys.after id task (t.map .reporting fun _ ↦ .written)) :=
  ⟨⟨task.afterReport t, rfl, Task.reportsIn_afterReport h task, rfl⟩, _, rfl, h.map.run_eq⟩

theorem movesIn_cancelled {s : Scope} (h : s.context = RunContext.initial.child) (id : TaskId) :
    MovesIn sys id task.op w (sys.cancelled id task s) := by
  refine ⟨⟨{ task with phase := .finished (.error .cancelled), context := s.context }, rfl, ?_,
    rfl⟩, [], (List.append_nil _).symm, fun _ hr ↦ nomatch hr⟩
  exact ⟨h, fun _ _ hst ↦ by cases hst⟩

theorem step_report (hs : sys.step m = some sys') (ht : sys.tasks[m.task]? = some task)
    (ho : task.op = .report r w) (h : task.ReportsIn w) :
    MovesIn sys m.task task.op w sys' := by
  obtain ⟨op, phase, ctx⟩ := task
  obtain ⟨id, now, happening⟩ := m
  obtain rfl : op = .report r w := ho
  simp only [step, ht] at hs
  obtain ⟨hctx, hstate⟩ := h
  cases phase with
  | ready =>
    obtain rfl : ctx = RunContext.initial.child := hctx
    cases happening with
    | start =>
      obtain rfl := Option.some.inj hs
      exact movesIn_after
        (Reporter.inBlock_start (s := ⟨sys.client, RunContext.initial.child⟩) ⟨rfl, rfl⟩ _ r w) id
    | cancel =>
      obtain rfl := Option.some.inj hs
      exact movesIn_cancelled rfl id
    | _ => simp at hs
  | sending req st =>
    obtain rfl : ctx = sinkContext w := hctx
    obtain ⟨p, rfl⟩ := hstate req st rfl
    cases happening with
    | reply reply =>
      obtain rfl := Option.some.inj hs
      exact movesIn_after
        (Reporter.inBlock_resume (s := ⟨sys.client, sinkContext w⟩) ⟨rfl, rfl⟩ now p req reply) id
    | cancel =>
      obtain rfl := Option.some.inj hs
      exact movesIn_cancelled (Reporter.context_cancel p _) id
    | _ => simp at hs
  | waiting run =>
    obtain rfl : ctx = sinkContext w := hctx
    cases happening with
    | enter =>
      simp only [Option.ite_none_right_eq_some, Option.map_eq_some_iff] at hs
      obtain ⟨-, t, he, rfl⟩ := hs
      obtain rfl := Option.some.inj he
      exact movesIn_after
        (Reporter.inBlock_enter (s := ⟨sys.client, sinkContext w⟩) ⟨rfl, rfl⟩ _ r w) id
    | cancel =>
      obtain rfl := Option.some.inj hs
      exact movesIn_cancelled rfl id
    | _ => simp at hs
  | finished => cases happening <;> simp at hs

def ReportsInLine (sys : System) : Prop :=
  ∀ (id : TaskId) (task : Task) (r : Reporter) (w : StatusWrite),
    sys.tasks[id]? = some task → task.op = .report r w → task.ReportsIn w

theorem reportsInLine_initial (client : Client) (ops : List Operation) :
    (initial client ops).ReportsInLine := by
  intro id task r w ht ho
  obtain ⟨op, -, rfl⟩ := initial_tasks ht
  exact ⟨rfl, fun _ _ hst ↦ by cases hst⟩

theorem ReportsInLine.step (h : sys.ReportsInLine) (hs : sys.step m = some sys') :
    sys'.ReportsInLine := by
  obtain ⟨task, p, hc, -⟩ := step_cases hs
  intro id task' r w ht ho
  by_cases hne : id = m.task
  · subst hne
    obtain ⟨ctx, hmoved⟩ := hc.getElem?_self
    obtain rfl := Option.some.inj (hmoved.symm.trans ht)
    obtain ⟨moved, -, hin, htasks⟩ := (step_report hs hc.found ho (h _ _ r w hc.found ho)).tasks
    rw [htasks, List.getElem?_set_self (List.getElem?_eq_some_iff.1 hc.found).1] at ht
    exact Option.some.inj ht ▸ hin
  · rw [hc.getElem?_of_ne hne] at ht
    exact h id task' r w ht ho

theorem ReportsInLine.run {moves : List Move} (h : sys.ReportsInLine)
    (hr : sys.run moves = some sys') : sys'.ReportsInLine :=
  run_induction (P := ReportsInLine) (fun h hs ↦ h.step hs) h hr

/-- What a report sees of the current run, and in which name it logs. -/
structure NamesRun (sys : System) (id : TaskId) (w : StatusWrite) (task : Task) : Prop where
  /-- The run is current from the time the report enters its sink up to the time it leaves. -/
  current : task.context.current = if task.phase.isUnderWay then w.status.run else ""
  injected : task.phase.isUnderWay = true → ∀ entry : Json.Members,
    task.context.inject entry =
      if w.status.run = "" then entry else Table.put runKey (.str w.status.run) entry
  logged : ∀ (m : Move) (sys' : System), m.task = id → sys.step m = some sys' →
    ∃ rs, sys'.records = sys.records ++ rs ∧ ∀ rec ∈ rs, rec.run = w.status.run

theorem ReportsInLine.namesRun (h : sys.ReportsInLine) {id : TaskId}
    (ht : sys.tasks[id]? = some task) (ho : task.op = .report r w) : sys.NamesRun id w task := by
  have hin := h id task r w ht ho
  refine ⟨?_, ?_, ?_⟩
  · rw [hin.context_eq]
    cases task.phase <;> rfl
  · intro hunder entry
    have hcurrent : task.context.current = w.status.run := by
      rw [hin.context_eq, if_pos hunder]
      rfl
    simp only [RunContext.inject, hcurrent, beq_iff_eq]
  · rintro m sys' rfl hs
    exact (step_report hs ht ho hin).records

end System

open RunTasks (Act World)

/-- In each task the name of the innermost block that is open there is current, or else the one with
which the task was started, whatever other tasks bind. A report in its sink has the name of its own
run. -/
theorem run_names_scoped :
    (∀ (acts : List Act) (past : List (Nat × RunTasks.Happening)) (w : World),
      (World.boot acts).run past = some w → w.Scoped) ∧
    ∀ (client : Client) (ops : List Operation) (moves : List Move) (sys : System),
      (System.initial client ops).run moves = some sys →
        ∀ (id : TaskId) (r : Reporter) (w : StatusWrite), ops[id]? = some (.report r w) →
          ∃ task, sys.tasks[id]? = some task ∧ sys.NamesRun id w task := by
  refine ⟨fun acts past w hpast ↦ ((World.bound_boot acts).run hpast).scoped, ?_⟩
  intro client ops moves sys hr id r w hop
  obtain ⟨task, ht, ho⟩ : ∃ task, sys.tasks[id]? = some task ∧ task.op = .report r w := by
    have hkept := System.op_run hr id
    simpa [System.initial, hop, Task.create] using hkept
  exact ⟨task, ht, ((System.reportsInLine_initial client ops).run hr).namesRun ht ho⟩

namespace Sample

def nestedActs : List Act :=
  [.bind "outer" [.start [.read, .bind "inner" [.read, .fail]], .read], .read]

def nestedMoves : List (Nat × RunTasks.Happening) :=
  [(0, .advance), (0, .advance), (1, .advance), (1, .advance), (0, .advance), (1, .advance),
    (1, .cancel), (0, .advance), (1, .advance), (1, .advance), (0, .advance)]

def otherWrite : StatusWrite := { write with status := { write.status with run := "run-2" } }

def twoReports : List Operation := [.report ⟨true, 7⟩ write, .report ⟨true, 7⟩ otherWrite]

end Sample

theorem run_names_scoped_two_reports :
    (∃ w, (World.boot Sample.nestedActs).run Sample.nestedMoves = some w ∧
      w.seen = [(0, .current "outer"), (1, .current "outer"), (1, .current "inner"),
        (0, .current "outer"), (1, .current "inner"), (0, .current ""), (1, .current "outer"),
        (0, .current "")] ∧ w.Scoped) ∧
    ∃ sys, (System.initial Sample.client Sample.twoReports).run
        [⟨0, Sample.noon, .start⟩, ⟨1, Sample.noon, .start⟩] = some sys ∧
      ∃ task, sys.tasks[1]? = some task ∧ task.phase.isUnderWay = true ∧
        task.context.current = "run-2" := by
  obtain ⟨hscoped, hnamed⟩ := run_names_scoped
  obtain ⟨w, hw, hseen⟩ : ∃ w, (World.boot Sample.nestedActs).run Sample.nestedMoves = some w ∧
      w.seen = [(0, .current "outer"), (1, .current "outer"), (1, .current "inner"),
        (0, .current "outer"), (1, .current "inner"), (0, .current ""), (1, .current "outer"),
        (0, .current "")] := ⟨_, rfl, rfl⟩
  obtain ⟨sys, hr, hunder⟩ : ∃ sys, (System.initial Sample.client Sample.twoReports).run
      [⟨0, Sample.noon, .start⟩, ⟨1, Sample.noon, .start⟩] = some sys ∧
        ∀ task, sys.tasks[1]? = some task → task.phase.isUnderWay = true :=
    ⟨_, rfl, fun _ ht ↦ Option.some.inj ht ▸ rfl⟩
  obtain ⟨task, ht, hin⟩ := hnamed _ _ _ sys hr 1 ⟨true, 7⟩ Sample.otherWrite rfl
  refine ⟨⟨w, hw, hseen, hscoped _ _ w hw⟩, sys, hr, task, ht, hunder task ht, ?_⟩
  rw [hin.current, if_pos (hunder task ht)]
  rfl

end StatusRelay
