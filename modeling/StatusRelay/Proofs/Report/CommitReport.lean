import StatusRelay.Proofs.Report.CommitState
import StatusRelay.Proofs.Report.Wording
import StatusRelay.Proofs.Task.Alone

namespace StatusRelay

open Json (Value)

def Reply.isTaken : Reply → Bool
  | .answered ⟨status, .json _⟩ => status < 300
  | _ => false

namespace StatusWrite

def repositoryUrl (w : StatusWrite) (i : Identity) : String :=
  i.apiUrl ++ "/repos/" ++ w.event.organization ++ "/" ++ w.event.repository

def statusRequest (w : StatusWrite) (i : Identity) (x : Wording) (state createdAt : String) :
    Request :=
  ⟨"POST", w.repositoryUrl i ++ "/statuses/" ++ w.event.sha, i.token,
    some (.obj [("state", .str state), ("target_url", .str w.status.detailsUrl),
      ("description", .str x.title), ("context", .str x.name), ("created_at", .str createdAt)]),
    none⟩

def commentRequest (w : StatusWrite) (i : Identity) (x : Wording) : Request :=
  ⟨"POST", w.repositoryUrl i ++ "/issues/" ++ toString w.event.pullRequest ++ "/comments", i.token,
    some (.obj [("body", .str (x.summary ++ "<br>" ++ w.status.text))]), none⟩

def comments (w : StatusWrite) (i : Identity) (x : Wording) (reply : Reply) : List Request :=
  if w.status.stage = "completed" ∧ w.status.text ≠ "" ∧ w.event.eventType = "pull_request" ∧
    reply.isTaken = true then [w.commentRequest i x] else []

variable {w : StatusWrite} {c : Client}

theorem send_status (ht : c.identity.token.truthy = true) {now : Moment} {createdAt : String}
    (hn : now.stamp? = some createdAt) : ∃ body, w.worded.statusPayload? now = some body ∧
      c.send "POST" w.worded.statusesPath body =
        .ok (w.statusRequest c.identity w.wording w.status.commitState createdAt) := by
  have hu : c.identity.url w.worded.statusesPath =
      w.repositoryUrl c.identity ++ "/statuses/" ++ w.event.sha := by
    rw [statusesPath_worded]
    simp only [statusesPath, repositoryUrl, String.append_assoc, Identity.url_repos]
  refine ⟨_, by rw [statusPayload?, hn, Option.map_some], ?_⟩
  rw [Client.send, Client.request_of_truthy ht, hu, commitState_worded]
  rfl

theorem send_comment (ht : c.identity.token.truthy = true) :
    c.send "POST" w.worded.commentsPath (commentPayload w.worded.status.comment) =
      .ok (w.commentRequest c.identity w.wording) := by
  have hu : c.identity.url w.worded.commentsPath =
      w.repositoryUrl c.identity ++ "/issues/" ++ toString w.event.pullRequest ++ "/comments" := by
    rw [commentsPath_worded]
    simp only [commentsPath, repositoryUrl, String.append_assoc, Identity.url_repos]
  rw [Client.send, Client.request_of_truthy ht, hu]
  rfl

end StatusWrite

namespace RunStatus

theorem wantsComment_iff {s : RunStatus} {e : Event} : s.wantsComment e = true ↔
    s.stage = "completed" ∧ s.text ≠ "" ∧ e.eventType = "pull_request" := by
  simp only [wantsComment, Bool.and_eq_true, beq_iff_eq, bne_iff_ne, and_assoc]
  rfl

end RunStatus

namespace Publish

theorem settle_eq_ok_iff {req : Request} {reply : Reply} :
    settle req reply = .ok () ↔ reply.isTaken = true := by
  match reply with
  | .broken kind message => simp [settle, Reply.json, Reply.accepted, Reply.isTaken]
  | .answered ⟨status, .unread fault text⟩ =>
    by_cases hs : Response.rejectionStatus ≤ status <;>
      simp [settle, Reply.json, Reply.accepted, Response.isRejection, Response.json, hs,
        Reply.isTaken]
  | .answered ⟨status, .json v⟩ =>
    by_cases hs : Response.rejectionStatus ≤ status
    · have hno : ¬ status < 300 := Int.not_lt.2 hs
      simp [settle, Reply.json, Reply.accepted, Response.isRejection, hs, Reply.isTaken, hno]
    · have hyes : status < 300 := Int.not_le.1 hs
      simp [settle, Reply.json, Reply.accepted, Response.isRejection, Response.json, hs,
        Reply.isTaken, hyes]

variable {srv : Server} {w : StatusWrite} {s : Scope} {asked : List Request}

/-- A status is posted whatever becomes of it, and the comment only where it was taken. -/
theorem plays_post (ht : s.client.identity.token.truthy = true) {now : Moment} {createdAt : String}
    (hn : now.stamp? = some createdAt) {status : Request}
    (hr : w.statusRequest s.client.identity w.wording w.status.commitState createdAt = status) :
    ∃ res, Plays srv resume asked (post now w.worded s) ⟨s, res, asked ++ status ::
      w.comments s.client.identity w.wording (srv.reply (asked ++ [status]) status)⟩ := by
  obtain ⟨body, hbody, hsend⟩ := @StatusWrite.send_status w _ ht _ _ hn
  rw [hr] at hsend
  simp only [post, hbody, hsend]
  have hwants : w.worded.status.wantsComment w.worded.event = w.status.wantsComment w.event := rfl
  have hrest : ∀ reply, ∃ res, Plays srv resume (asked ++ [status])
      ((posting w.worded).resume (srv.clock (asked ++ [status])) status reply s) ⟨s, res,
        asked ++ status :: w.comments s.client.identity w.wording reply⟩ := by
    intro reply
    cases hs : settle status reply with
    | error f =>
      have hno : ¬ reply.isTaken = true := fun h ↦ by
        rw [settle_eq_ok_iff.2 h] at hs
        cases hs
      rw [StatusWrite.comments, if_neg fun h ↦ hno h.2.2.2]
      simp only [resume, hs, Turn.ofExcept_error]
      exact ⟨_, .finish _⟩
    | ok =>
      simp only [resume, hs, Turn.ofExcept_ok, comment, hwants, StatusWrite.comments,
        settle_eq_ok_iff.1 hs, and_true, ← RunStatus.wantsComment_iff]
      cases w.status.wantsComment w.event with
      | false => exact ⟨_, .finish _⟩
      | true =>
        rw [if_pos rfl, if_pos rfl, StatusWrite.send_comment ht]
        have hlist : asked ++ [status, w.commentRequest s.client.identity w.wording] =
            asked ++ [status] ++ [w.commentRequest s.client.identity w.wording] := by simp
        rw [hlist]
        exact ⟨_, .request (.finish _)⟩
  obtain ⟨res, hp⟩ := hrest (srv.reply (asked ++ [status]) status)
  exact ⟨res, .request hp⟩

theorem start_ofEvent (hw : w.event.onCommit = true) (appId : Int) (caller : Caller) (s : Scope) :
    start caller (.ofEvent w.event appId) w.worded s = post caller.now w.worded s := by
  rw [Sink.ofEvent, if_pos hw, start]

end Publish

namespace Reporter

variable {srv : Server} {r : Reporter} {w : StatusWrite} {s s' : Scope} {asked : List Request}

/-- A report plays as its write does, in the block of its run. -/
theorem plays_start (hr : r.hasClient = true) (ht : s.client.identity.token.truthy = true)
    {caller : Caller} {res : Except Failure Unit}
    (h : Plays srv Publish.resume [] (Publish.start caller (.ofEvent w.event r.appId) w.worded
      (s.enter w.status.run)) ⟨s', res, asked⟩) :
    Plays srv Running.resume [] ((Operation.report r w).start caller s)
      ⟨s'.leave, res.map fun _ ↦ .written, asked⟩ := by
  have hp : r.prepare w s.client = .ok (.ofEvent w.event r.appId, w.worded) := by
    simp only [prepare, hr, ht, Bool.and_self, if_true]
  have hclose (now : Moment) (p : Publish) (req : Request) (reply : Reply) (s : Scope) :
      resume now p req reply s = close (p.resume now req reply s) := rfl
  refine Plays.map (fun _ _ _ _ _ ↦ rfl) ?_
  rw [start, hp, Turn.ofExcept_ok]
  exact .log (h.followedBy hclose (.finish _))

end Reporter

namespace System

variable {client : Client} {r : Reporter} {w : StatusWrite}

theorem op_play (srv : Server) (n : Nat) (sys : System) (t : TaskId) :
    (sys.play srv n).tasks[t]?.map Task.op = sys.tasks[t]?.map Task.op := by
  induction n generalizing sys with
  | zero => rfl
  | succ n ih =>
    cases hs : sys.step (sys.nextMove srv) with
    | none => rw [play_of_step_eq_none hs]
    | some sys' =>
      obtain ⟨task, p, hc, -⟩ := step_cases hs
      simp only [play, hs]
      rw [ih, hc.op_eq]

/-- Whatever the answers, a report to a commit sends the status and then the comment that it calls
for, and nothing else. The client, with its identity and its cache, and the write are left as they
were. -/
theorem commit_report_requests (ht : client.identity.token.truthy = true) (hr : r.hasClient = true)
    (hw : w.event.onCommit = true) (srv : Server) {createdAt : String}
    (hc : (srv.clock []).stamp? = some createdAt) :
    ∃ x state n result, w.IsWorded x ∧ w.status.HasState state ∧
      let sys := (initial client [.report r w]).play srv n
      let status := w.statusRequest client.identity x state createdAt
      sys.result? = some result ∧
        sys.sent.map (·.2) =
          status :: w.comments client.identity x (srv.reply [status] status) ∧
        sys.client = client ∧ sys.tasks[0]?.map Task.op = some (.report r w) := by
  obtain ⟨res, hp⟩ := @Publish.plays_post srv w
    ((⟨client, RunContext.initial.child⟩ : Scope).enter w.status.run) [] ht _ _ hc _ rfl
  rw [← Publish.start_ofEvent hw r.appId ⟨0, srv.clock []⟩] at hp
  have hstart := Reporter.plays_start (s := ⟨client, RunContext.initial.child⟩) hr ht hp
  obtain ⟨n, hresult, hclient, hsent⟩ := play_initial hstart
  refine ⟨w.wording, w.status.commitState, n, _, w.isWorded_wording,
    w.status.hasState_commitState, hresult, hsent, hclient, ?_⟩
  rw [op_play]
  rfl

end System

namespace Sample

def skippedWrite : StatusWrite :=
  ⟨⟨"org", "repo", "abc123", "pull_request", 5, true⟩, ⟨"CI", ""⟩,
    ⟨"run-1", "completed", "lint", "skipped", "own title", "own summary", "log", "https://ci"⟩⟩

def takingServer : Server where
  clock _ := noon
  reply _ _ := .answered ⟨201, .json (.obj [])⟩

def skippedWording : Wording := ⟨"CI / lint", "Skipped", "CI/lint is skipping this commit."⟩

end Sample

namespace System

theorem commit_report_requests_skipped :
    Sample.client.identity.token.truthy = true ∧ Sample.skippedWrite.event.onCommit = true ∧
      Sample.noon.stamp? = some "2024-05-01T12:00:00Z" ∧
      ∃ n, ((initial Sample.client [.report ⟨true, 7⟩ Sample.skippedWrite]).play
        Sample.takingServer n).sent.map (·.2) =
          [Sample.skippedWrite.statusRequest Sample.client.identity Sample.skippedWording "success"
            "2024-05-01T12:00:00Z",
          Sample.skippedWrite.commentRequest Sample.client.identity Sample.skippedWording] := by
  have ht : Sample.client.identity.token.truthy = true := rfl
  have hw : Sample.skippedWrite.event.onCommit = true := rfl
  have hc : Sample.noon.stamp? = some "2024-05-01T12:00:00Z" := by decide
  obtain ⟨x, state, n, -, hx, hstate, -, hsent, -, -⟩ :=
    commit_report_requests (r := ⟨true, 7⟩) ht rfl hw Sample.takingServer hc
  have hname : x = Sample.skippedWording := hx.eq_wording
  have hpassed : state = "success" := hstate.eq_commitState
  rw [hname, hpassed] at hsent
  exact ⟨ht, hw, hc, n, hsent⟩

end System
end StatusRelay
