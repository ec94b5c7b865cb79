import StatusRelay.Proofs.Installation.QueryCourse
import StatusRelay.Proofs.Task.Misreading
import StatusRelay.Proofs.Task.Traffic

namespace StatusRelay

namespace Failure

theorem IsLocal.time_of_isForeign {now : Moment} {f : Failure} (h : f.IsLocal now)
    (hf : f.IsForeign) : f = .timeOutOfRange ∧ now.stamp? = none := by
  cases h with
  | time h => exact ⟨rfl, h⟩
  | _ => exact hf.elim

end Failure

namespace System

variable {client : Client} {ops : List Operation} {sys sys' : System} {m : Move} {task : Task}
  {t : TaskId} {p : Phase} {f : Failure} {rd : Reading} {resp : Response}

def answered (sys : System) (m : Move) : List (TaskId × Reading × Response) :=
  match sys.tasks[m.task]?.map Task.phase, m.happening with
  | some (.sending _ st), .reply (.answered resp) => [(m.task, st.reading, resp)]
  | _, _ => []

def answers : System → List Move → List (TaskId × Reading × Response) :=
  trail fun sys m _ ↦ sys.answered m

theorem happening_of_incoming {req : Request} {reply : Reply}
    (h : sys.incoming m = [.back t req reply]) : m.happening = .reply reply := by
  unfold incoming at h
  split at h
  · rename_i hm
    simp only [List.cons.injEq, Packet.back.injEq, and_true] at h
    rw [hm, h.2.2]
  · cases h

theorem foreign_of_deals {c : Client} {back : List Packet} (hd : Deals sys m task back c p)
    (hi : sys.incoming m = back) (ht : sys.tasks[m.task]? = some task) (ho : task.op.IsChecked)
    (hp : p = .finished (.error f)) (hf : f.IsForeign) :
    (∃ rd resp, (m.task, rd, resp) ∈ sys.answered m ∧ ¬ rd.Admits resp) ∨
      f = .timeOutOfRange ∧ m.now.stamp? = none := by
  cases hd with
  | start hphase hturn =>
    subst hturn
    obtain h | h := (Operation.isFree_start ho m.task _).only f (done_of_ofNext hp)
    · cases h
    · exact .inr (h.time_of_isForeign hf)
  | enter hphase hturn =>
    obtain h | h := (Operation.isFree_enter hturn).only f (done_of_ofNext hp)
    · cases h
    · exact .inr (h.time_of_isForeign hf)
  | @resume req st reply _ hphase hturn =>
    subst hturn
    obtain hread | h := (st.heeds_resume ..).only f (done_of_ofNext hp)
    · cases reply with
      | broken =>
        cases hread
        exact hf.elim
      | answered resp =>
        have ha : ¬ st.reading.Admits resp := Reading.exists_isForeign_read_iff.1 ⟨f, hread, hf⟩
        have hh := happening_of_incoming hi
        refine .inl ⟨st.reading, resp, ?_, ha⟩
        simp [answered, ht, hphase, hh]
    · exact .inr (h.time_of_isForeign hf)
  | cancel =>
    cases hp
    exact hf.elim

theorem foreign_of_answered (hs : sys.step m = some sys') (hb : (t, rd, resp) ∈ sys.answered m)
    (ha : ¬ rd.Admits resp) :
    ∃ f, f.IsForeign ∧ sys'.tasks[t]?.map Task.phase = some (.finished (.error f)) := by
  obtain ⟨task, p, hc, -⟩ := step_cases hs
  obtain ⟨hlt, -⟩ := List.getElem?_eq_some_iff.1 hc.found
  have ht := hc.found
  obtain ⟨op, phase, ctx⟩ := task
  simp only [answered, ht, Option.map_some] at hb
  split at hb
  · rename_i req st resp' hphase hh
    simp only [Option.some.injEq] at hphase
    subst hphase
    simp only [List.mem_singleton, Prod.mk.injEq] at hb
    obtain ⟨rfl, rfl, rfl⟩ := hb
    obtain ⟨f, hread, hf⟩ := (@Reading.exists_isForeign_read_iff _ req _).2 ha
    have hnext := (st.heeds_resume m.now req (.answered resp) ⟨sys.client, ctx⟩).fails f hread
    refine ⟨f, hf, ?_⟩
    simp only [System.step, ht, hh] at hs
    obtain rfl := Option.some.inj hs
    simp only [after, List.getElem?_set_self hlt, Option.map_some, hnext]
    rfl
  · cases hb

/-- Traced back to the start of a run, such a failure was there already, or an answer or a time is to
blame. -/
theorem foreign_source (moves : List Move) {op : Operation} (ho : op.IsChecked)
    (hf : f.IsForeign) : ∀ {sys : System}, sys.run moves = some sys' →
    sys.tasks[t]?.map Task.op = some op →
    sys'.tasks[t]?.map Task.phase = some (.finished (.error f)) →
    sys.tasks[t]?.map Task.phase = some (.finished (.error f)) ∨
      (∃ rd resp, (t, rd, resp) ∈ answers sys moves ∧ ¬ rd.Admits resp) ∨
      f = .timeOutOfRange ∧ ∃ m ∈ moves, m.task = t ∧ m.now.stamp? = none := by
  induction moves with
  | nil =>
    intro sys hr _ hp
    obtain rfl := Option.some.inj hr
    exact .inl hp
  | cons m moves ih =>
    intro sys hr hop hp
    obtain ⟨mid, hs, hr⟩ := Option.bind_eq_some_iff.1 hr
    obtain ⟨task, p, hc, hd⟩ := step_cases hs
    rw [answers, trail_cons hs]
    simp only [List.mem_append]
    obtain hmid | ⟨rd, resp, hb, ha⟩ | ⟨htime, m', hm', hrest⟩ := ih hr ((hc.op_eq t).trans hop) hp
    · by_cases hne : t = m.task
      · subst hne
        obtain ⟨ctx, hmoved⟩ := hc.getElem?_self
        rw [hmoved] at hmid
        rw [hc.found] at hop
        obtain rfl := Option.some.inj hop
        obtain ⟨rd, resp, hb, ha⟩ | ⟨htime, hnow⟩ :=
          foreign_of_deals hd rfl hc.found ho (Option.some.inj hmid) hf
        · exact .inr (.inl ⟨rd, resp, .inl hb, ha⟩)
        · exact .inr (.inr ⟨htime, m, by simp, rfl, hnow⟩)
      · rw [hc.getElem?_of_ne hne] at hmid
        exact .inl hmid
    · exact .inr (.inl ⟨rd, resp, .inr hb, ha⟩)
    · exact .inr (.inr ⟨htime, m', List.mem_cons_of_mem _ hm', hrest⟩)

theorem foreign_of_answers {moves : List Move} (hr : sys.run moves = some sys')
    (hb : (t, rd, resp) ∈ answers sys moves) (ha : ¬ rd.Admits resp) :
    ∃ f, f.IsForeign ∧ sys'.tasks[t]?.map Task.phase = some (.finished (.error f)) := by
  obtain ⟨before, mid, m, mid', after, -, hcut, hb⟩ := exists_cut_of_mem_trail hr hb
  obtain ⟨f, hf, hp⟩ := foreign_of_answered hcut.step hb ha
  exact ⟨f, hf, phase_run_of_finished hcut.after hp⟩

/-- Whatever else is under way, a task fails outside the family only for a response that it cannot
deal with, or for a time that cannot be written; and each such response makes its task fail so. In a
success it is the body that can be of no use, in a rejection it can only be nested too deeply. -/
theorem foreign_failures {moves : List Move} (hr : (initial client ops).run moves = some sys)
    (ht : sys.tasks[t]? = some task) (ho : task.op.IsChecked) :
    (∀ f, task.phase = .finished (.error f) → f.IsForeign →
      (∃ rd resp, (t, rd, resp) ∈ answers (initial client ops) moves ∧ ¬ rd.Admits resp) ∨
        f = .timeOutOfRange ∧ ∃ m ∈ moves, m.task = t ∧ m.now.stamp? = none) ∧
    ∀ rd resp, (t, rd, resp) ∈ answers (initial client ops) moves → ¬ rd.Admits resp →
      ∃ f, f.IsForeign ∧ task.phase = .finished (.error f) := by
  refine ⟨?_, ?_⟩
  · intro f hp hf
    have hop : (initial client ops).tasks[t]?.map Task.op = some task.op := by
      rw [← op_run hr t, ht]
      rfl
    have hphase : sys.tasks[t]?.map Task.phase = some (.finished (.error f)) := by
      rw [ht, Option.map_some, hp]
    obtain h | h := foreign_source moves ho hf hr hop hphase
    · obtain ⟨task', htask', hp'⟩ := Option.map_eq_some_iff.1 h
      obtain ⟨op, -, rfl⟩ := initial_tasks htask'
      cases hp'
    · exact h
  · intro rd resp hb ha
    obtain ⟨f, hf, hp⟩ := foreign_of_answers hr hb ha
    rw [ht, Option.map_some] at hp
    exact ⟨f, hf, Option.some.inj hp⟩

end System

namespace Sample

def oddExchange : List Move := [start 0, answer 0 (listing [1]), answer 0 (.arr [])]

end Sample

namespace System

/-- A query that fails outside the family. -/
theorem foreign_exchange :
    ∃ sys f, (initial Sample.appClient [.resolve Sample.appQuery]).run Sample.oddExchange =
        some sys ∧ sys.tasks[0]?.map Task.phase = some (.finished (.error f)) ∧ f.IsForeign :=
  ⟨_, .shape .notObject, rfl, rfl, trivial⟩

theorem foreign_failures_exchange :
    ∃ sys task, (initial Sample.appClient [.resolve Sample.appQuery]).run Sample.oddExchange =
        some sys ∧ sys.tasks[0]? = some task ∧ task.op.IsChecked ∧
      let seen := answers (initial Sample.appClient [.resolve Sample.appQuery]) Sample.oddExchange
      (0, .token 1, ⟨200, .json (.arr [])⟩) ∈ seen ∧
        (∃ f, f.IsForeign ∧ task.phase = .finished (.error f)) ∧
        ∀ f, task.phase = .finished (.error f) → f.IsForeign →
          (∃ rd resp, (0, rd, resp) ∈ seen ∧ ¬ rd.Admits resp) ∨
            f = .timeOutOfRange ∧ ∃ m ∈ Sample.oddExchange, m.task = 0 ∧ m.now.stamp? = none := by
  obtain ⟨sys, task, hr, ht, ho⟩ : ∃ sys task,
      (initial Sample.appClient [.resolve Sample.appQuery]).run Sample.oddExchange = some sys ∧
        sys.tasks[0]? = some task ∧ task.op.IsChecked := ⟨_, _, rfl, rfl, trivial⟩
  have hb : (0, .token 1, ⟨200, .json (.arr [])⟩) ∈
      answers (initial Sample.appClient [.resolve Sample.appQuery]) Sample.oddExchange := by
    obtain ⟨x, hx⟩ : ∃ x,
        answers (initial Sample.appClient [.resolve Sample.appQuery]) Sample.oddExchange =
          [x, (0, .token 1, ⟨200, .json (.arr [])⟩)] := ⟨_, rfl⟩
    simp [hx]
  have ha : ¬ (Reading.token 1).Admits ⟨200, .json (.arr [])⟩ := by
    rw [Reading.Admits, if_neg (by decide)]
    rintro ⟨ms, h⟩
    cases h
  obtain ⟨hsource, hforeign⟩ := foreign_failures hr ht ho
  exact ⟨sys, task, hr, ht, ho, hb, hforeign _ _ hb ha, hsource⟩

end System
end StatusRelay
