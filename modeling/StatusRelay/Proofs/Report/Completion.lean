import StatusRelay.Proofs.Task.Agreement

namespace StatusRelay

open Json (Value)

/-- Whether the body of an update marks the check run completed just when it has a conclusion with
the time of it. -/
def CheckRun.IsConsistent (body : Value) : Prop :=
  body.get? "status" = some (.str Stage.completed) ↔
    (body.get? "conclusion").isSome ∧ (body.get? "completed_at").isSome

/-- Whether a run is said to be completed just when it has concluded. -/
def RunStatus.IsConsistent (s : RunStatus) : Prop :=
  s.stage = Stage.completed ↔ Conclusion.isTerminal s.conclusion = true

namespace StatusWrite

structure TellsCompletion (w : StatusWrite) (body : Value) : Prop where
  status : body.get? "status" = some (.str w.status.stage)
  conclusion : body.get? "conclusion" =
    if Conclusion.isTerminal w.status.conclusion then some (.str w.status.conclusion) else none
  completedAt : (body.get? "completed_at").isSome = Conclusion.isTerminal w.status.conclusion

variable {w : StatusWrite} {now : Moment} {body : Value}

theorem completion?_cases {completion : Json.Members} (h : w.completion? now = some completion) :
    (Conclusion.isTerminal w.status.conclusion = false ∧ completion = []) ∨
      Conclusion.isTerminal w.status.conclusion = true ∧ ∃ completedAt, completion =
        [("completed_at", .str completedAt), ("conclusion", .str w.status.conclusion)] := by
  unfold completion? at h
  cases ht : Conclusion.isTerminal w.status.conclusion with
  | false =>
    simp only [ht, Bool.false_eq_true, if_false, Option.some.injEq] at h
    exact .inl ⟨rfl, h.symm⟩
  | true =>
    simp only [ht, if_true, Option.map_eq_some_iff] at h
    obtain ⟨completedAt, -, rfl⟩ := h
    exact .inr ⟨rfl, completedAt, rfl⟩

theorem get?_details {key : String} (h : key ≠ "details_url") (rest : Json.Members) :
    Table.get? (w.details ++ rest) key = Table.get? rest key := by
  unfold details
  split
  · rfl
  · simp only [List.cons_append, List.nil_append, Table.get?_cons, h, if_false]

theorem tellsCompletion (h : w.updatePayload? now = some body) : w.TellsCompletion body := by
  simp only [updatePayload?, Option.map_eq_some_iff] at h
  obtain ⟨completion, hc, rfl⟩ := h
  have hget (key : String) (hn : key ≠ "name") (hs : key ≠ "status") (ho : key ≠ "output")
      (hd : key ≠ "details_url") :
      Value.get? (.obj ([("name", .str w.checkName), ("status", .str w.status.stage),
        ("output", w.output)] ++ w.details ++ completion)) key = Table.get? completion key := by
    simp only [Value.get?, List.cons_append, List.nil_append, Table.get?_cons, hn, hs, ho, if_false,
      get?_details hd]
  have hconclusion := hget "conclusion" (by decide) (by decide) (by decide) (by decide)
  have hcompleted := hget "completed_at" (by decide) (by decide) (by decide) (by decide)
  obtain ⟨ht, rfl⟩ | ⟨ht, completedAt, rfl⟩ := completion?_cases hc
  · refine ⟨by simp [Value.get?, Table.get?_cons], ?_, ?_⟩
    · rw [hconclusion, ht]
      rfl
    · rw [hcompleted, ht]
      rfl
  · refine ⟨by simp [Value.get?, Table.get?_cons], ?_, ?_⟩
    · rw [hconclusion, ht]
      rfl
    · rw [hcompleted, ht]
      rfl

theorem TellsCompletion.of_worded (h : w.worded.TellsCompletion body) : w.TellsCompletion body :=
  ⟨h.status, h.conclusion, h.completedAt⟩

theorem TellsCompletion.isConsistent_iff (h : w.TellsCompletion body) :
    CheckRun.IsConsistent body ↔ w.status.IsConsistent := by
  have hs : (Value.str w.status.stage = .str Stage.completed) ↔ w.status.stage = Stage.completed :=
    ⟨Value.str.inj, congrArg _⟩
  have hc : (body.get? "conclusion").isSome = Conclusion.isTerminal w.status.conclusion := by
    rw [h.conclusion]
    cases Conclusion.isTerminal w.status.conclusion <;> rfl
  simp only [CheckRun.IsConsistent, RunStatus.IsConsistent, h.status, hc, h.completedAt,
    Option.some.injEq, hs, and_self]

end StatusWrite

namespace System

variable {client : Client} {ops : List Operation} {sys : System} {t : TaskId} {req : Request}

/-- Every update that reports send has the stage of its status as it came, and a conclusion, with
the time of it, just if that of the status is final. It is consistent just if the status is. -/
theorem completion_sent (hc : client.IsIdle)
    (ho : ∀ op ∈ ops, ∃ r w, op = .report r w ∧ w.event.onCommit = false) {moves : List Move}
    (hr : (initial client ops).run moves = some sys) (hs : (t, req) ∈ sys.sent)
    (hu : req.isUpdate = true) :
    ∃ r w body, ops[t]? = some (.report r w) ∧ req.body = some body ∧ w.TellsCompletion body ∧
      (CheckRun.IsConsistent body ↔ w.status.IsConsistent) := by
  have hwants : ∀ op ∈ ops, ∃ g, op.Wants g := by
    intro op hop
    obtain ⟨r, w, rfl, hw⟩ := ho op hop
    exact ⟨_, .report r w hw⟩
  have htallied := run_induction Tallied.step (tallied_initial hc hwants) hr
  obtain ⟨op, -, hop, -⟩ := (follows_run (P := fun _ _ ↦ True) (fun _ _ ↦ trivial)
    (fun _ _ _ _ _ _ _ _ ↦ trivial) hr).sent t req hs
  obtain ⟨r, w, rfl, hw⟩ := ho op (List.mem_of_getElem? hop)
  obtain ⟨task, ht, htask⟩ : ∃ task, sys.tasks[t]? = some task ∧ task.op = .report r w := by
    have hsame := op_run hr t
    simp only [initial, List.getElem?_map, hop, Option.map_some, Task.create] at hsame
    obtain ⟨task, ht, htask⟩ := Option.map_eq_some_iff.1 hsame
    exact ⟨task, ht, htask⟩
  have hg : task.op.Wants ⟨w.worded, r.appId⟩ := htask ▸ .report r w hw
  obtain ⟨id, -, now, body, bearer, hbody, rfl⟩ :=
    htallied.of_mem_updates ht hg (mem_updates hs hu)
  have htells : w.TellsCompletion body := (StatusWrite.tellsCompletion hbody).of_worded
  exact ⟨r, w, body, hop, rfl, htells, htells.isConsistent_iff⟩

end System

namespace Sample

def created : Reply := .answered ⟨201, .json (.obj [("id", .int 9)])⟩

def reported : List Operation := [.report ⟨true, 7⟩ write]

def updateMoves : List Move :=
  [⟨0, noon, .start⟩, ⟨0, noon, .reply nothingListed⟩, ⟨0, noon, .reply created⟩]

def inconsistentReports : List Operation :=
  [.report ⟨true, 7⟩ { write with status := { write.status with conclusion := "" } },
    .report ⟨true, 7⟩ { write with status := { write.status with stage := Stage.inProgress } }]

end Sample

namespace System

theorem completion_sent_success :
    Sample.client.IsIdle ∧
      (∀ op ∈ Sample.reported, ∃ r w, op = .report r w ∧ w.event.onCommit = false) ∧
      ∃ sys req, (initial Sample.client Sample.reported).run Sample.updateMoves = some sys ∧
        (0, req) ∈ sys.sent ∧ req.isUpdate = true ∧
        ∃ r w body, Sample.reported[0]? = some (.report r w) ∧ req.body = some body ∧
          w.TellsCompletion body ∧ (CheckRun.IsConsistent body ↔ w.status.IsConsistent) := by
  have hc : Sample.client.IsIdle := Client.isIdle_create _ _
  have ho : ∀ op ∈ Sample.reported, ∃ r w, op = .report r w ∧ w.event.onCommit = false := by
    intro op hop
    obtain rfl := List.mem_singleton.1 hop
    exact ⟨_, _, rfl, rfl⟩
  obtain ⟨sys, req, hr, hs, hu⟩ : ∃ sys req,
      (initial Sample.client Sample.reported).run Sample.updateMoves = some sys ∧
        sys.sent[2]? = some (0, req) ∧ req.isUpdate = true := ⟨_, _, rfl, rfl, rfl⟩
  have hmem : (0, req) ∈ sys.sent := List.mem_of_getElem? hs
  exact ⟨hc, ho, sys, req, hr, hmem, hu, completion_sent hc ho hr hmem hu⟩

/-- A check run is marked completed without a conclusion, and is given one without being marked. -/
theorem completion_without_conclusion :
    ∃ sys req req' body body',
      (initial Sample.client Sample.inconsistentReports).run
        (Sample.updateMoves ++ [⟨1, Sample.noon, .start⟩]) = some sys ∧
      sys.sent[2]? = some (0, req) ∧ req.method = "PATCH" ∧ req.body = some body ∧
      body.get? "status" = some (.str "completed") ∧ body.get? "conclusion" = none ∧
      sys.sent[3]? = some (1, req') ∧ req'.method = "PATCH" ∧ req'.body = some body' ∧
      body'.get? "status" = some (.str "in_progress") ∧
      body'.get? "conclusion" = some (.str "success") ∧
      ¬ CheckRun.IsConsistent body ∧ ¬ CheckRun.IsConsistent body' := by
  refine ⟨_, _, _, _, _, rfl, rfl, rfl, rfl, rfl, rfl, rfl, rfl, rfl, rfl, rfl, ?_, ?_⟩
  · intro h
    exact absurd (h.1 rfl).1 (by decide)
  · intro h
    have hstatus := h.2 ⟨rfl, rfl⟩
    exact absurd (Value.str.inj (Option.some.inj hstatus)) (by decide)

end System
end StatusRelay
