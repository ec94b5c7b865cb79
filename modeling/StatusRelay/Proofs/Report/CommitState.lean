import StatusRelay.Proofs.Task.Progress

namespace StatusRelay

open Json (Value)

def commitStates : List String :=
  ["error", Conclusion.failure, Conclusion.pending, Conclusion.success]

/-- The state is one that there is unless the run is not in progress and its conclusion stands for
none; so it is with a run that has not concluded. -/
theorem RunStatus.commitState_mem_iff (s : RunStatus) :
    s.commitState ∈ commitStates ↔ s.stage = Stage.inProgress ∨
      s.conclusion ∈ commitStates ∨ s.conclusion = Conclusion.skipped ∨
        s.conclusion = Conclusion.neutral := by
  have hpending : Conclusion.pending ∈ commitStates := by decide
  have hsuccess : Conclusion.success ∈ commitStates := by decide
  unfold commitState
  by_cases hs : s.stage = Stage.inProgress
  · simp only [hs, beq_self_eq_true, if_true, hpending, true_or]
  · by_cases hc : s.conclusion = Conclusion.skipped ∨ s.conclusion = Conclusion.neutral
    · have hstands : (s.conclusion == Conclusion.skipped ||
          s.conclusion == Conclusion.neutral) = true := by
        simpa using hc
      simp only [beq_eq_false_iff_ne.2 hs, hstands, Bool.false_eq_true, if_false, if_true, hsuccess,
        hs, hc, or_true]
    · have hstands : (s.conclusion == Conclusion.skipped ||
          s.conclusion == Conclusion.neutral) = false := by
        simpa using hc
      simp only [beq_eq_false_iff_ne.2 hs, hstands, Bool.false_eq_true, if_false, hs, hc, or_false,
        false_or]

namespace StatusWrite

structure IsStatus (w : StatusWrite) (req : Request) : Prop where
  url : ∃ i, req.url = Identity.url i w.statusesPath
  state : ∃ body, req.body = some body ∧ body.get? "state" = some (.str w.status.commitState)

structure IsComment (w : StatusWrite) (req : Request) : Prop where
  url : ∃ i, req.url = Identity.url i w.commentsPath
  body : req.body = some (commentPayload w.worded.status.comment)

variable {w : StatusWrite} {req : Request}

@[simp] theorem statusesPath_worded (w : StatusWrite) :
    w.worded.statusesPath = w.statusesPath := by
  unfold statusesPath
  rfl

@[simp] theorem commentsPath_worded (w : StatusWrite) :
    w.worded.commentsPath = w.commentsPath := by
  unfold commentsPath
  rfl

@[simp] theorem commitState_worded (w : StatusWrite) :
    w.worded.status.commitState = w.status.commitState := by
  unfold RunStatus.commitState
  rfl

theorem Posts.isStatus_or_isComment (h : w.worded.Posts req) :
    w.IsStatus req ∨ w.IsComment req := by
  cases h with
  | @status i _ _ body h =>
    obtain ⟨createdAt, -, rfl⟩ := Option.map_eq_some_iff.1 h
    refine .inl ⟨⟨i, by rw [statusesPath_worded]⟩, _, rfl, ?_⟩
    rw [← commitState_worded]
    rfl
  | @comment i => exact .inr ⟨⟨i, by rw [commentsPath_worded]⟩, rfl⟩

end StatusWrite

inductive Task.Posted (w : StatusWrite) : Phase → Prop
  | ready : Posted w .ready
  | posting {req : Request} (h : w.Posts req) : Posted w (.sending req (.reporting (.posting w)))
  | commenting {req : Request} (h : w.Posts req) : Posted w (.sending req (.reporting .commenting))
  | finished {r : Except Failure Outcome} : Posted w (.finished r)

open StatusRelay.Task (Posted)

namespace Reporter

variable {w : StatusWrite} {s : Scope}

def phase (t : Turn Publish Unit) : Phase :=
  .ofNext ((close t).map Running.reporting fun _ ↦ Outcome.written).next

theorem posted_finish (r : Except Failure Unit) : Posted w (phase (.finish s r)) := by
  cases r <;> exact .finished

theorem posted_post (now : Moment) (w : StatusWrite) (s : Scope) :
    Posted w (phase (Publish.post now w s)) := by
  obtain ⟨f, hf⟩ | ⟨req, hposts, hreq⟩ := Publish.post_cases now w s
  · rw [hf]
    exact posted_finish _
  · rw [hreq]
    exact .posting hposts

theorem posted_comment (w : StatusWrite) (s : Scope) : Posted w (phase (Publish.comment w s)) := by
  obtain ⟨r, hr⟩ | ⟨req, hposts, hreq⟩ := Publish.comment_cases w s
  · rw [hr]
    exact posted_finish _
  · rw [hreq]
    exact .commenting hposts

theorem posted_start {r : Reporter} (hw : w.event.onCommit = true) (caller : Caller) (s : Scope) :
    Posted w.worded (.ofNext ((Operation.report r w).start caller s).next) := by
  have hsink : Sink.ofEvent w.event r.appId = .commitStatus := by simp [Sink.ofEvent, hw]
  cases hp : r.hasClient && s.client.identity.token.truthy with
  | false =>
    simp only [Operation.start, start, prepare, hp, Bool.false_eq_true, if_false,
      Turn.ofExcept_error, Turn.map, Turn.andThen_error]
    exact .finished
  | true =>
    have h := posted_post caller.now w.worded (s.enter w.worded.status.run)
    simp only [Operation.start, start, prepare, hp, hsink, if_true, Turn.ofExcept_ok,
      Publish.start, Turn.map, Turn.andThen_log]
    exact h

theorem posted_resume (now : Moment) (req : Request) (reply : Reply) (s : Scope) :
    Posted w (.ofNext ((Running.reporting (.posting w)).resume now req reply s).next) := by
  show Posted w (phase (.ofExcept s (Publish.settle req reply) fun _ ↦ Publish.comment w s))
  cases Publish.settle req reply with
  | error f => exact posted_finish _
  | ok => exact posted_comment w s

end Reporter

namespace System

variable {client : Client} {ops : List Operation} {sys : System} {m : Move} {task : Task}
  {back : List Packet} {c : Client} {p : Phase} {t : TaskId} {req : Request} {r : Reporter}
  {w : StatusWrite}

theorem Deals.posted (h : Deals sys m task back c p) (ho : task.op = .report r w)
    (hw : w.event.onCommit = true) (hp : Posted w.worded task.phase) : Posted w.worded p := by
  cases h with
  | start hready ht =>
    subst ht
    rw [ho]
    exact Reporter.posted_start hw _ _
  | resume hsending ht =>
    subst ht
    rw [hsending] at hp
    cases hp with
    | posting => exact Reporter.posted_resume _ _ _ _
    | commenting => exact Reporter.posted_finish _
  | enter hwaiting ht =>
    rw [hwaiting] at hp
    cases hp
  | cancel => exact .finished

/-- Every request of reports to commits is a status or its comment. The state is one that there is
unless the run is not in progress and its conclusion stands for no state, as when there is none
yet. -/
theorem states_sent (ho : ∀ op ∈ ops, op.Posts) {moves : List Move}
    (hr : (initial client ops).run moves = some sys) (hs : (t, req) ∈ sys.sent) :
    ∃ r w, ops[t]? = some (.report r w) ∧ (w.IsStatus req ∨ w.IsComment req) ∧
      (w.status.commitState ∈ commitStates ↔ w.status.stage = Stage.inProgress ∨
        w.status.conclusion ∈ commitStates ∨ w.status.conclusion = Conclusion.skipped ∨
          w.status.conclusion = Conclusion.neutral) := by
  have hfollows := follows_run (P := fun op p ↦ ∃ r w, op = .report r w ∧
      w.event.onCommit = true ∧ Posted w.worded p) ?_ ?_ hr
  · obtain ⟨op, st, hop, r, w, rfl, -, hp⟩ := hfollows.sent t req hs
    have hposts : w.worded.Posts req := by cases hp <;> assumption
    exact ⟨r, w, hop, hposts.isStatus_or_isComment, w.status.commitState_mem_iff⟩
  · intro op hop
    obtain ⟨r, w, hw⟩ := ho op hop
    exact ⟨r, w, rfl, hw, .ready⟩
  · rintro sys m task back c p ⟨r, w, hop, hw, hp⟩ hd
    exact ⟨r, w, hop, hw, hd.posted hop hw hp⟩

end System

namespace Sample

def committed : List Operation := [.report ⟨true, 7⟩ commitWrite]

def queuedWrite : StatusWrite :=
  { commitWrite with status := { commitWrite.status with stage := "queued", conclusion := "" } }

end Sample

namespace System

theorem states_sent_success :
    (∀ op ∈ Sample.committed, op.Posts) ∧
      ∃ sys req,
        (initial Sample.client Sample.committed).run [⟨0, Sample.noon, .start⟩] = some sys ∧
        (0, req) ∈ sys.sent ∧
        ∃ r w, Sample.committed[0]? = some (.report r w) ∧ (w.IsStatus req ∨ w.IsComment req) ∧
          (w.status.commitState ∈ commitStates ↔ w.status.stage = Stage.inProgress ∨
            w.status.conclusion ∈ commitStates ∨ w.status.conclusion = Conclusion.skipped ∨
              w.status.conclusion = Conclusion.neutral) := by
  have ho : ∀ op ∈ Sample.committed, op.Posts := by
    intro op hop
    obtain rfl := List.mem_singleton.1 hop
    exact .report _ _ rfl
  obtain ⟨sys, req, hr, hs⟩ : ∃ sys req,
      (initial Sample.client Sample.committed).run [⟨0, Sample.noon, .start⟩] = some sys ∧
        sys.sent = [(0, req)] := ⟨_, _, rfl, rfl⟩
  have hmem : (0, req) ∈ sys.sent := hs ▸ List.mem_singleton_self _
  exact ⟨ho, sys, req, hr, hmem, states_sent ho hr hmem⟩

/-- The state of a run that is queued is empty, and that is none that there is. -/
theorem state_of_queued_run :
    ∃ sys req body,
      (initial Sample.client [.report ⟨true, 7⟩ Sample.queuedWrite]).run
        [⟨0, Sample.noon, .start⟩] = some sys ∧
      sys.sent = [(0, req)] ∧ req.url = "https://api.github.com/repos/org/repo/statuses/abc123" ∧
      req.body = some body ∧ body.get? "state" = some (.str "") ∧ "" ∉ commitStates :=
  ⟨_, _, _, rfl, rfl, by decide, rfl, rfl, by decide⟩

end System
end StatusRelay
