import StatusRelay.Proofs.CheckRun.PagedLookup
import StatusRelay.Proofs.Report.CheckTrail

namespace StatusRelay

open Json (Value)
open CheckRun (Goal Ensure Ends upTo)

namespace CheckRun

namespace Ensure

variable {σ α β τ : Type}

theorem goal_of_followedBy {t : Turn σ α} {wrap : σ → Ensure} {g : Goal}
    {rest : Scope → Except Failure α → Turn Ensure β} {req : Request} {e : Ensure}
    (hw : ∀ st, (wrap st).goal = g)
    (hr : ∀ s r req e, (rest s r).next = .send req e → e.goal = g)
    (h : (t.followedBy wrap rest).next = .send req e) : e.goal = g := by
  obtain ⟨s, rs, next⟩ := t
  cases next with
  | done r => exact hr s r req e h
  | send req' st =>
    cases h
    exact hw st
  | wait run => cases h

theorem goal_conclude {g : Goal} {s : Scope} {r : Except Failure Value} {req : Request} {e : Ensure}
    (h : (conclude g s r).next = .send req e) : e.goal = g := by
  rw [next_conclude] at h
  cases h

theorem goal_afterLookup {now : Moment} {g : Goal} {s : Scope} {r : Except Failure (Option Int)}
    {req : Request} {e : Ensure} (h : (afterLookup now g s r).next = .send req e) : e.goal = g := by
  match r with
  | .error f => exact goal_conclude h
  | .ok (some id) => exact goal_conclude h
  | .ok none => exact goal_of_followedBy (fun _ ↦ rfl) (fun _ _ _ _ ↦ goal_conclude) h

/-- A task inside stays with what it wants. -/
theorem goal_resume {now : Moment} {e e' : Ensure} {req req' : Request} {reply : Reply} {s : Scope}
    (h : (e.resume now req reply s).next = .send req' e') : e'.goal = e.goal := by
  cases e with
  | looking g lookup =>
    exact goal_of_followedBy (g := g) (fun _ ↦ rfl) (fun _ _ _ _ ↦ goal_afterLookup) h
  | creating g creation =>
    exact goal_of_followedBy (g := g) (fun _ ↦ rfl) (fun _ _ _ _ ↦ goal_conclude) h

theorem goal_start {caller : Caller} {g : Goal} {s : Scope} {req : Request} {e : Ensure}
    (h : (start caller g s).next = .send req e) : e.goal = g := by
  simp only [start] at h
  split at h
  · cases h
  · split at h
    · simp only [enter, inside] at h
      split at h
      · cases h
      · exact goal_of_followedBy (fun _ ↦ rfl) (fun _ _ _ _ ↦ goal_afterLookup) h
    · cases h

end Ensure
end CheckRun

namespace Publish

variable {srv : Server} {w : StatusWrite} {s s' : Scope} {asked : List Request} {appId id : Int}
  {completedAt : String}

theorem plays_update (ht : s.client.identity.token.truthy = true) {now : Moment}
    (hn : now.stamp? = some completedAt) {asked : List Request} :
    ∃ res, Plays srv resume asked (update now w.worded s id) ⟨s, res,
      asked ++ [w.updateRequest s.client.identity w.wording completedAt id]⟩ := by
  have hbody := @StatusWrite.updatePayload?_eq w _ _ hn
  have hsend : s.client.send "PATCH" (w.worded.checkRunPath id)
      (w.updateBody w.wording completedAt) =
        .ok (w.updateRequest s.client.identity w.wording completedAt id) := by
    rw [Client.send, Client.request_of_truthy ht, StatusWrite.url_update]
    rfl
  simp only [update, hbody, hsend]
  exact ⟨_, .request (.finish _)⟩

theorem plays_start_checkRun (hw : w.event.onCommit = false) {caller : Caller}
    (hc : caller.now = srv.clock [])
    (h : Plays srv Ensure.resume [] (Ensure.start caller (w.goal appId) s) ⟨s', .ok id, asked⟩)
    (ht : s'.client.identity.token.truthy = true) (hn : (srv.clock asked).stamp? = some completedAt) :
    ∃ res, Plays srv resume [] (start caller (.ofEvent w.event appId) w.worded s) ⟨s', res,
      asked ++ [w.updateRequest s'.client.identity w.wording completedAt id]⟩ := by
  have hstart : start caller (.ofEvent w.event appId) w.worded s =
      (Ensure.start caller (w.goal appId) s).andThen ensuring (update (srv.clock []) w.worded) := by
    rw [Sink.ofEvent, hw, ← hc]
    rfl
  obtain ⟨res, hp⟩ := @plays_update srv w s' id completedAt ht _ hn asked
  refine ⟨res, ?_⟩
  rw [hstart]
  refine Plays.andThenOn (P := fun e ↦ e.goal = w.goal appId) (fun now ↦ update now w.worded)
    ?_ ?_ h (fun req st hn ↦ Ensure.goal_start hn) hp
  · intro now st req reply s req' st' hst hn
    exact (Ensure.goal_resume hn).trans hst
  · intro now st req reply s hst
    rw [resume, hst]
    rfl

end Publish

namespace StatusWrite

variable {w : StatusWrite} {i : Identity} {appId : Int}

structure Sees (w : StatusWrite) (srv : Server) (i : Identity) (appId : Int)
    (pages : Nat → CheckRun.Listing) (k : Nat) : Prop where
  ends : Ends pages k
  reads : ∀ n, 1 ≤ n → n ≤ k →
    (srv.reply (w.pageRequests i appId n) (w.pageRequest i appId n)).Reads (pages n)

/-- What a report sends to a server that is of use to it, with all times as the server's clock shows
them. -/
structure Delivers (w : StatusWrite) (srv : Server) (c : Client) (r : Reporter) (x : Wording) :
    Prop where
  known : ∀ id completedAt, c.runs.load w.status.run = some id →
    (srv.clock []).stamp? = some completedAt →
    ∃ result, System.EndsAlone srv c (.report r w) result
      [w.updateRequest c.identity x completedAt id]
  found : ∀ pages k id asked completedAt, c.runs.load w.status.run = none →
    w.Sees srv c.identity r.appId pages k →
    CheckRun.Finds w.status.run (pages k).total (upTo pages k) (some id) →
    asked = w.pageRequests c.identity r.appId k →
    (srv.clock asked).stamp? = some completedAt →
    ∃ result, System.EndsAlone srv c (.report r w) result
      (asked ++ [w.updateRequest c.identity x completedAt id])
  made : ∀ pages k id asked creation startedAt completedAt, c.runs.load w.status.run = none →
    w.Sees srv c.identity r.appId pages k →
    CheckRun.Finds w.status.run (pages k).total (upTo pages k) none →
    asked = w.pageRequests c.identity r.appId k →
    (srv.clock asked).stamp? = some startedAt →
    creation = w.creationRequest c.identity x startedAt →
    (srv.reply (asked ++ [creation]) creation).Creates id →
    (srv.clock (asked ++ [creation])).stamp? = some completedAt →
    ∃ result, System.EndsAlone srv c (.report r w) result
      (asked ++ [creation, w.updateRequest c.identity x completedAt id])

end StatusWrite

namespace System

open StatusRelay.CheckRun (Lookup Scan)

variable {srv : Server} {client : Client} {r : Reporter} {w : StatusWrite} {id : Int}
  {asked : List Request} {startedAt completedAt : String} {pages : Nat → CheckRun.Listing} {k : Nat}

def entry (client : Client) (w : StatusWrite) : Scope :=
  (⟨client, RunContext.initial.child⟩ : Scope).enter w.status.run

def lookout (client : Client) (w : StatusWrite) : Scope :=
  (entry client w).attach.mapLock w.status.run (·.grant 0)

section Delivery

variable (hw : w.event.onCommit = false) (hr : r.hasClient = true)
  (ht : client.identity.token.truthy = true)

include hw hr ht

theorem endsAlone_report {s : Scope} (hi : s.client.identity = client.identity)
    (h : Plays srv Ensure.resume [] (Ensure.start ⟨0, srv.clock []⟩ (w.goal r.appId)
      (entry client w)) ⟨s, .ok id, asked⟩) (hn : (srv.clock asked).stamp? = some completedAt) :
    ∃ result, EndsAlone srv client (.report r w) result
      (asked ++ [w.updateRequest client.identity w.wording completedAt id]) := by
  have ht' : s.client.identity.token.truthy = true := by rw [hi, ht]
  obtain ⟨res, hp⟩ := Publish.plays_start_checkRun hw rfl h ht' hn
  rw [hi] at hp
  exact ⟨_, endsAlone_of_plays (Reporter.plays_start (s := ⟨client, _⟩) hr ht hp)⟩

theorem endsAlone_known (hl : client.runs.load w.status.run = some id)
    (hn : (srv.clock []).stamp? = some completedAt) :
    ∃ result, EndsAlone srv client (.report r w) result
      [w.updateRequest client.identity w.wording completedAt id] := by
  have hload : (entry client w).attach.client.runs.load (w.goal r.appId).run = some id := hl
  have hp : Plays srv Ensure.resume [] (Ensure.start ⟨0, srv.clock []⟩ (w.goal r.appId)
      (entry client w)) ⟨(entry client w).attach, .ok id, []⟩ := by
    simp only [Ensure.start, hload]
    exact .finish _
  have hi : (entry client w).attach.client.identity = client.identity := rfl
  exact endsAlone_report hw hr ht hi hp hn

end Delivery

theorem start_eq_lookout (hidle : client.IsIdle) (hl : client.runs.load w.status.run = none)
    (now : Moment) (appId : Int) : Ensure.start ⟨0, now⟩ (w.goal appId) (entry client w) =
      Ensure.inside now (w.goal appId) (lookout client w) := by
  have hopen : ((entry client w).client.runs.lock (w.goal appId).run).isOpen = true := by
    have hfree : (entry client w).client.runs.lock (w.goal appId).run = .free :=
      hidle w.status.run
    rw [hfree]
    rfl
  exact Ensure.start_eq_inside hl hopen

theorem plays_lookout (ht : client.identity.token.truthy = true)
    (hsees : w.Sees srv client.identity r.appId pages k) {found : Option Int}
    (hf : CheckRun.Finds w.status.run (pages k).total (upTo pages k) found) :
    Plays srv (fun _ ↦ Lookup.resume) []
      (Lookup.start (w.goal r.appId).run (w.goal r.appId).query (lookout client w))
      ⟨lookout client w, .ok found, w.pageRequests client.identity r.appId k⟩ := by
  have hi : (lookout client w).client.identity = client.identity := rfl
  have hrun : (w.goal r.appId).run = w.status.run := rfl
  have hpage : ∀ n, 1 ≤ n → n ≤ k →
      Scan.batch ((w.goal r.appId).query.pageRequest client.identity n)
        (srv.reply ((w.goal r.appId).query.pageRequests client.identity n)
          ((w.goal r.appId).query.pageRequest client.identity n)) = .ok (pages n) := by
    intro n hn hk
    rw [StatusWrite.goal_pageRequest, StatusWrite.goal_pageRequests]
    exact Reply.batch_of_reads (hsees.reads n hn hk) _
  have hscan := Scan.plays_pages (s := lookout client w) ht hsees.ends hpage
  have hlook := Lookup.plays_of_scan (w.goal r.appId).run hscan
  rwa [hrun, hf.find?_eq, hi, StatusWrite.goal_pageRequests] at hlook

theorem delivers (hw : w.event.onCommit = false) (hr : r.hasClient = true)
    (ht : client.identity.token.truthy = true) (hidle : client.IsIdle) (srv : Server) :
    w.Delivers srv client r w.wording where
  known id completedAt hl hn := endsAlone_known hw hr ht hl hn
  found pages k id asked completedAt hl hsees hf hasked hn := by
    have hlook := plays_lookout ht hsees hf
    rw [← hasked] at hlook
    have hload : (lookout client w).client.runs.load (w.goal r.appId).run = none := hl
    obtain ⟨s, hi, hp⟩ := Ensure.plays_found hload hlook
    rw [← start_eq_lookout hidle hl] at hp
    exact endsAlone_report hw hr ht hi hp hn
  made pages k id asked creation startedAt completedAt hl hsees hf hasked hstart hmade hc hn := by
    have hlook := plays_lookout ht hsees hf
    rw [← hasked] at hlook
    have hload : (lookout client w).client.runs.load (w.goal r.appId).run = none := hl
    have hmade : CheckRun.Creation.request (w.goal r.appId).write
        (lookout client w).client.identity startedAt = creation :=
      (w.goal_creation client.identity startedAt).trans hmade.symm
    obtain ⟨s, hi, hp⟩ := Ensure.plays_created hload ht hmade hstart hlook
    rw [← start_eq_lookout hidle hl, Reply.created_of_creates hc] at hp
    obtain ⟨result, hend⟩ := endsAlone_report hw hr ht hi hp hn
    refine ⟨result, ?_⟩
    rwa [List.append_assoc] at hend

end System

namespace StatusWrite

def toCommit (w : StatusWrite) : StatusWrite := { w with event := { w.event with onCommit := true } }

def IsOnCommit (w : StatusWrite) (i : Identity) (req : Request) : Prop :=
  ∃ rest, req.url = w.repositoryUrl i ++ "/statuses/" ++ rest ∨
    req.url = w.repositoryUrl i ++ "/issues/" ++ rest

theorem not_isOnCommit {w : StatusWrite} {i : Identity} {req : Request} {rest : String}
    (h : req.url = w.repositoryUrl i ++ ("/c" ++ rest)) : ¬ w.IsOnCommit i req := by
  -- Behind the repository stands a letter that begins neither of the other two paths.
  rintro ⟨rest', hurl | hurl⟩
  all_goals
    rw [h, String.append_assoc, String.append_right_inj] at hurl
    have hchars := congrArg String.toList hurl
    simp [String.toList_append] at hchars

theorem Itinerary.not_isOnCommit {w : StatusWrite} {c : Client} {appId : Int} {x : Wording}
    {l : List Request} (h : w.Itinerary c appId x l) :
    ∀ req ∈ l, ¬ w.IsOnCommit c.identity req := by
  have hpage (k : Nat) : ∀ req ∈ w.pageRequests c.identity appId k,
      ¬ w.IsOnCommit c.identity req := by
    intro req hreq
    obtain ⟨n, -, rfl⟩ := List.mem_map.1 hreq
    have hsplit : "/commits/" = "/c" ++ "ommits/" := by decide
    apply StatusWrite.not_isOnCommit
    simp only [pageRequest, hsplit, String.append_assoc]
    rfl
  have hmake (startedAt : String) :
      ¬ w.IsOnCommit c.identity (w.creationRequest c.identity x startedAt) := by
    have hsplit : "/check-runs" = "/c" ++ "heck-runs" := by decide
    apply StatusWrite.not_isOnCommit
    rw [creationRequest, hsplit]
  have hupdate (completedAt : String) (id : Int) :
      ¬ w.IsOnCommit c.identity (w.updateRequest c.identity x completedAt id) := by
    have hsplit : "/check-runs/" = "/c" ++ "heck-runs/" := by decide
    apply StatusWrite.not_isOnCommit
    simp only [updateRequest, hsplit, String.append_assoc]
    rfl
  intro req hreq
  cases h with
  | known =>
    obtain rfl := List.mem_singleton.1 hreq
    exact hupdate _ _
  | found =>
    obtain hreq | hreq := List.mem_append.1 hreq
    · exact hpage _ req hreq
    · obtain rfl := List.mem_singleton.1 hreq
      exact hupdate _ _
  | made =>
    obtain hreq | hreq := List.mem_append.1 hreq
    · exact hpage _ req hreq
    · obtain rfl | hreq := List.mem_cons.1 hreq
      · exact hmake _
      · obtain rfl := List.mem_singleton.1 hreq
        exact hupdate _ _

end StatusWrite

namespace System

variable {client : Client} {r : Reporter} {w : StatusWrite}

theorem next_report {s : Scope} {caller : Caller} {req : Request} {p : Publish}
    (hr : r.hasClient = true) (ht : s.client.identity.token.truthy = true)
    (h : (Publish.start caller (.ofEvent w.event r.appId) w.worded
      (s.enter w.status.run)).next = .send req p) :
    ((Operation.report r w).start caller s).next = .send req (.reporting p) := by
  have hprepare : r.prepare w s.client = .ok (.ofEvent w.event r.appId, w.worded) := by
    simp only [Reporter.prepare, hr, ht, Bool.and_self, if_true]
  have hrun : w.worded.status.run = w.status.run := rfl
  simp only [Operation.start, Reporter.start, hprepare, Turn.ofExcept_ok, Turn.map,
    Turn.andThen_log, Turn.next_log, Reporter.close, hrun]
  generalize Publish.start caller _ w.worded _ = t at h
  obtain ⟨s', rs, next⟩ := t
  subst h
  rfl

/-- The first request of the same report to a commit has the wording that the check run has. -/
theorem start_toCommit (hr : r.hasClient = true) (ht : client.identity.token.truthy = true)
    {now : Moment} {createdAt : String} (hn : now.stamp? = some createdAt) :
    ∃ sys state, (initial client [.report r w.toCommit]).run [⟨0, now, .start⟩] = some sys ∧
      sys.sent = [(0, w.toCommit.statusRequest client.identity w.wording state createdAt)] := by
  obtain ⟨body, hbody, hsend⟩ :=
    @StatusWrite.send_status w.toCommit (entry client w.toCommit).client ht _ _ hn
  have hpost : (Publish.start ⟨0, now⟩ (.ofEvent w.toCommit.event r.appId) w.toCommit.worded
      (entry client w.toCommit)).next = .send (w.toCommit.statusRequest client.identity w.wording
        w.toCommit.status.commitState createdAt) (.posting w.toCommit.worded) := by
    rw [Publish.start_ofEvent rfl]
    simp only [Publish.post, hbody, hsend, Turn.send_ok]
    rfl
  have hnext := next_report (s := ⟨client, RunContext.initial.child⟩) hr ht hpost
  have hsent : ((initial client [.report r w.toCommit]).after 0
      (.create .initial (.report r w.toCommit)) ((Operation.report r w.toCommit).start ⟨0, now⟩
        ⟨client, RunContext.initial.child⟩)).sent = [(0, w.toCommit.statusRequest client.identity
          w.wording w.toCommit.status.commitState createdAt)] := by
    rw [after, hnext]
    rfl
  exact ⟨_, _, rfl, hsent⟩

/-- Reports to check runs, end to end. There is one wording by which, at any time, the requests so
far are those to which the answers so far have led; they begin an itinerary, and are about no status
and no comment. With a token the itinerary is gone through if the answers are of use; and the status
that would be posted to the commit instead has the same wording. -/
theorem check_report_requests (hw : w.event.onCommit = false) :
    ∃ x, w.IsWorded x ∧
      (∀ moves sys, (initial client [.report r w]).run moves = some sys →
        w.Route ((initial client [.report r w]).traffic moves) client r.appId x
          (sys.sent.map (·.2)) ∧
        (∃ whole, w.Itinerary client r.appId x whole ∧ sys.sent.map (·.2) <+: whole) ∧
        ∀ t req, (t, req) ∈ sys.sent → ¬ w.IsOnCommit client.identity req) ∧
      (r.hasClient = true → client.identity.token.truthy = true →
        (client.IsIdle → ∀ srv, w.Delivers srv client r x) ∧
        ∀ now createdAt, now.stamp? = some createdAt → ∃ sys state,
          (initial client [.report r w.toCommit]).run [⟨0, now, .start⟩] = some sys ∧
          sys.sent = [(0, w.toCommit.statusRequest client.identity x state createdAt)]) := by
  refine ⟨w.wording, w.isWorded_wording, ?_, ?_⟩
  · intro moves sys hrun
    have hroute := route_sent hw hrun
    obtain ⟨whole, hwhole, hfirst⟩ := hroute.isPrefix
    refine ⟨hroute, ⟨whole, hwhole, hfirst⟩, fun t req hreq ↦ ?_⟩
    have hmem : req ∈ sys.sent.map (·.2) := List.mem_map_of_mem hreq
    exact hwhole.not_isOnCommit req (List.IsPrefix.subset hfirst hmem)
  · intro hr ht
    refine ⟨fun hidle srv ↦ delivers hw hr ht hidle srv, ?_⟩
    intro now createdAt hn
    exact start_toCommit hr ht hn

end System

namespace Sample

def otherRuns : List CheckRun := List.replicate 101 ⟨1, none⟩

def makingServer : Server where
  clock _ := noon
  reply _ req :=
    if req.method = "GET" then .answered (CheckRun.Listing.answer (pageOf req) otherRuns)
    else .answered ⟨201, .json (.obj [("id", .int 9)])⟩

def successWording : Wording :=
  ⟨"CI", "Success", "CI has <b>successfully</b> validated your commit."⟩

theorem makingServer_sees :
    write.Sees makingServer client.identity 7 (CheckRun.Listing.page · otherRuns) 2 where
  ends := by
    have hcount : CheckRun.pageCount otherRuns = 2 := by
      rw [CheckRun.pageCount, otherRuns, List.length_replicate]
      rfl
    exact hcount ▸ CheckRun.ends_page otherRuns
  reads n _ _ := ⟨200, _, rfl, by decide, CheckRun.Listing.decode_shown _⟩

end Sample

namespace System

/-- No check run has the name on either of two pages, so one is made and updated. -/
theorem check_report_requests_made :
    Sample.write.event.onCommit = false ∧ ∃ result,
      EndsAlone Sample.makingServer Sample.client (.report ⟨true, 7⟩ Sample.write) result
        (Sample.write.pageRequests Sample.client.identity 7 2 ++
          [Sample.write.creationRequest Sample.client.identity Sample.successWording
            "2024-05-01T12:00:00Z",
          Sample.write.updateRequest Sample.client.identity Sample.successWording
            "2024-05-01T12:00:00Z" 9]) := by
  have hw : Sample.write.event.onCommit = false := rfl
  have hidle : Sample.client.IsIdle := Client.isIdle_create _ _
  have hn : Sample.noon.stamp? = some "2024-05-01T12:00:00Z" := by decide
  obtain ⟨x, hx, -, hserved⟩ := @check_report_requests Sample.client ⟨true, 7⟩ Sample.write hw
  have hwording : x = Sample.successWording := hx.eq_wording
  rw [hwording] at hserved
  obtain ⟨hdelivers, -⟩ := hserved rfl rfl
  have hunnamed : CheckRun.Finds "run-1" 101
      (upTo (CheckRun.Listing.page · Sample.otherRuns) 2) none := by
    refine .unnamed fun run hrun ↦ ?_
    rw [CheckRun.upTo_page] at hrun
    obtain rfl := List.eq_of_mem_replicate (List.mem_of_mem_take hrun)
    exact fun h ↦ by cases h
  exact ⟨hw, (hdelivers hidle Sample.makingServer).made _ 2 9 _ _ _ _ rfl
    Sample.makingServer_sees hunnamed rfl hn rfl ⟨201, _, rfl, by decide, rfl⟩ hn⟩

end System
end StatusRelay
