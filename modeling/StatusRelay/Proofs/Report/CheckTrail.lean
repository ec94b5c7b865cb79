import StatusRelay.Proofs.CheckRun.Bounded
import StatusRelay.Proofs.Report.CommitReport
import StatusRelay.Proofs.Report.Completion
import StatusRelay.Proofs.Task.Credentials

namespace StatusRelay

open Json (Value)
open CheckRun (Goal Ensure Ends Finds GoesOn upTo)
open CheckRun.Ensure (Asks Answered Entered)

namespace StatusWrite

def pageRequest (w : StatusWrite) (i : Identity) (appId : Int) (n : Nat) : Request :=
  ⟨"GET", w.repositoryUrl i ++ "/commits/" ++ w.event.sha ++ "/check-runs", i.token, none,
    some [("app_id", .int appId), ("per_page", .int 100), ("page", .int n)]⟩

def creationRequest (w : StatusWrite) (i : Identity) (x : Wording) (startedAt : String) : Request :=
  ⟨"POST", w.repositoryUrl i ++ "/check-runs", i.token,
    some (.obj [("name", .str x.name), ("head_sha", .str w.event.sha),
      ("status", .str "in_progress"), ("details_url", .str w.display.logUrl),
      ("external_id", .str w.status.run), ("started_at", .str startedAt)]), none⟩

/-- What an update says. A conclusion goes with the time of it. -/
def updateBody (w : StatusWrite) (x : Wording) (completedAt : String) : Value :=
  .obj ([("name", .str x.name), ("status", .str w.status.stage),
      ("output", .obj [("title", .str x.title), ("summary", .str x.summary),
        ("text", .str w.status.text)])] ++
    (if w.status.detailsUrl = "" then [] else [("details_url", .str w.status.detailsUrl)]) ++
    (if w.status.conclusion = "" ∨ w.status.conclusion = "pending" then []
      else [("completed_at", .str completedAt), ("conclusion", .str w.status.conclusion)]))

def updateRequest (w : StatusWrite) (i : Identity) (x : Wording) (completedAt : String) (id : Int) :
    Request :=
  ⟨"PATCH", w.repositoryUrl i ++ "/check-runs/" ++ toString id, i.token,
    some (w.updateBody x completedAt), none⟩

def goal (w : StatusWrite) (appId : Int) : Goal := ⟨w.worded, appId⟩

variable {w : StatusWrite} {i : Identity} {appId : Int}

theorem url_page (w : StatusWrite) (i : Identity) (appId : Int) :
    i.url (w.goal appId).query.path =
      w.repositoryUrl i ++ "/commits/" ++ w.event.sha ++ "/check-runs" := by
  simp only [CheckRun.Query.path, String.append_assoc, Identity.url_repos, repositoryUrl]
  rfl

theorem url_creation (w : StatusWrite) (i : Identity) :
    i.url (CheckRun.Creation.path w.worded.event) = w.repositoryUrl i ++ "/check-runs" := by
  simp only [CheckRun.Creation.path, String.append_assoc, Identity.url_repos, repositoryUrl]
  rfl

theorem goal_pageRequest (w : StatusWrite) (i : Identity) (appId : Int) (n : Nat) :
    (w.goal appId).query.pageRequest i n = w.pageRequest i appId n := by
  rw [CheckRun.Query.pageRequest, ← CheckRun.Query.url_path, url_page]
  rfl

theorem goal_creation (w : StatusWrite) (i : Identity) (startedAt : String) :
    CheckRun.Creation.request w.worded i startedAt =
      w.creationRequest i w.wording startedAt := by
  rw [CheckRun.Creation.request, ← CheckRun.Creation.url_path, url_creation]
  rfl

theorem url_update (w : StatusWrite) (i : Identity) (id : Int) :
    i.url (w.worded.checkRunPath id) = w.repositoryUrl i ++ "/check-runs/" ++ toString id := by
  simp only [checkRunPath_eq, String.append_assoc, Identity.url_repos, repositoryUrl]
  rfl

theorem completion?_eq {now : Moment} {completion : Json.Members}
    (h : w.completion? now = some completion) : completion =
      if w.status.conclusion = "" ∨ w.status.conclusion = "pending" then []
      else [("completed_at", .str (now.stamp?.getD "")),
        ("conclusion", .str w.status.conclusion)] := by
  have hterminal : Conclusion.isTerminal w.status.conclusion = true ↔
      ¬ (w.status.conclusion = "" ∨ w.status.conclusion = "pending") := by
    rw [Conclusion.isTerminal, Bool.and_eq_true, bne_iff_ne, bne_iff_ne, not_or]
    rfl
  unfold completion? at h
  split at h
  · rename_i ht
    obtain ⟨completedAt, hstamp, rfl⟩ := Option.map_eq_some_iff.1 h
    rw [if_neg (hterminal.1 ht), hstamp, Option.getD_some]
  · rename_i ht
    rw [if_pos (not_not.1 (mt hterminal.2 ht))]
    exact (Option.some.inj h).symm

theorem eq_updateBody {now : Moment} {body : Value} (h : w.worded.updatePayload? now = some body) :
    body = w.updateBody w.wording (now.stamp?.getD "") := by
  obtain ⟨completion, hc, rfl⟩ := Option.map_eq_some_iff.1 h
  have hdetails : w.worded.details = if w.status.detailsUrl = "" then []
      else [("details_url", .str w.status.detailsUrl)] := by
    simp only [details, worded, RunStatus.worded, beq_iff_eq]
  rw [hdetails, completion?_eq hc]
  rfl

theorem updatePayload?_eq {now : Moment} {completedAt : String}
    (hn : now.stamp? = some completedAt) :
    w.worded.updatePayload? now = some (w.updateBody w.wording completedAt) := by
  have hsome : (w.worded.updatePayload? now).isSome = true := by
    rw [updatePayload?, Option.isSome_map, completion?, hn]
    split <;> rfl
  obtain ⟨body, hbody⟩ := Option.isSome_iff_exists.1 hsome
  rw [hbody, eq_updateBody hbody, hn, Option.getD_some]

/-- Every update is the one with the wording of its status. -/
theorem Updates.eq_updateRequest {id : Int} {req : Request} (h : w.worded.Updates i id req)
    (hs : i.Signs req) : ∃ completedAt, req = w.updateRequest i w.wording completedAt id := by
  obtain ⟨now, body, bearer, hbody, rfl⟩ := h
  have hbearer : bearer = i.token := hs.credential_eq
  exact ⟨now.stamp?.getD "", by rw [updateRequest, eq_updateBody hbody, url_update, hbearer]⟩

theorem eq_pageRequest {n : Nat} {found : List CheckRun} {req : Request}
    (h : Asks i (w.goal appId) (.looking (w.goal appId)
      ⟨(w.goal appId).run, ⟨(w.goal appId).query, n, found⟩⟩) req) (hs : i.Signs req) :
    req = w.pageRequest i appId n := by
  cases h with
  | @page _ _ bearer =>
    have hbearer : bearer = i.token := hs.credential_eq
    rw [url_page, hbearer]
    rfl

theorem eq_creationRequest {req : Request}
    (h : Asks i (w.goal appId) (.creating (w.goal appId) ⟨(w.goal appId).write⟩) req)
    (hs : i.Signs req) : ∃ startedAt, req = w.creationRequest i w.wording startedAt := by
  cases h with
  | @creation startedAt bearer =>
    have hbearer : bearer = i.token := hs.credential_eq
    refine ⟨startedAt, ?_⟩
    rw [creationRequest, ← w.url_creation i, ← hbearer]
    rfl

def pageRequests (w : StatusWrite) (i : Identity) (appId : Int) (k : Nat) : List Request :=
  (List.range' 1 k).map (w.pageRequest i appId)

theorem goal_pageRequests (w : StatusWrite) (i : Identity) (appId : Int) (k : Nat) :
    (w.goal appId).query.pageRequests i k = w.pageRequests i appId k :=
  List.map_congr_left fun n _ ↦ w.goal_pageRequest i appId n

theorem pageRequests_succ (w : StatusWrite) (i : Identity) (appId : Int) (m : Nat) :
    w.pageRequests i appId (m + 1) =
      w.pageRequests i appId m ++ [w.pageRequest i appId (m + 1)] := by
  rw [← goal_pageRequests, CheckRun.Query.pageRequests_succ, goal_pageRequests, goal_pageRequest]

/-- What a report sends from the start to the end, for the client that it started with. -/
inductive Itinerary (w : StatusWrite) (c : Client) (appId : Int) (x : Wording) : List Request → Prop
  | known {id : Int} {completedAt : String} (hc : c.runs.load w.status.run = some id) :
      Itinerary w c appId x [w.updateRequest c.identity x completedAt id]
  | found {k : Nat} {id : Int} {completedAt : String} (hc : c.runs.load w.status.run = none)
      (hk : 1 ≤ k) : Itinerary w c appId x
        (w.pageRequests c.identity appId k ++ [w.updateRequest c.identity x completedAt id])
  | made {k : Nat} {id : Int} {startedAt completedAt : String}
      (hc : c.runs.load w.status.run = none) (hk : 1 ≤ k) : Itinerary w c appId x
        (w.pageRequests c.identity appId k ++ [w.creationRequest c.identity x startedAt,
          w.updateRequest c.identity x completedAt id])

theorem exists_itinerary (w : StatusWrite) (c : Client) (appId : Int) (x : Wording) :
    ∃ l, w.Itinerary c appId x l := by
  cases hc : c.runs.load w.status.run with
  | some id => exact ⟨_, @Itinerary.known w c appId x id "" hc⟩
  | none => exact ⟨_, @Itinerary.found w c appId x 1 0 "" hc (Nat.le_refl 1)⟩

/-- Whether a report that is alone was shown these pages of check runs, up to a number, by the answers
that came back. -/
def Shown (w : StatusWrite) (past : List Packet) (i : Identity) (appId : Int)
    (pages : Nat → CheckRun.Listing) (n : Nat) : Prop :=
  ∀ m, 1 ≤ m → m ≤ n →
    ∃ reply, .back 0 (w.pageRequest i appId m) reply ∈ past ∧ reply.Reads (pages m)

/-- What a report has sent by the time at which it has got these answers: no page before all pages
before it were read, and nothing else before the last page was. -/
inductive Route (w : StatusWrite) (past : List Packet) (c : Client) (appId : Int) (x : Wording) :
    List Request → Prop
  | still : Route w past c appId x []
  | known {id : Int} {completedAt : String} (hc : c.runs.load w.status.run = some id) :
      Route w past c appId x [w.updateRequest c.identity x completedAt id]
  | looking {pages : Nat → CheckRun.Listing} {n : Nat} (hc : c.runs.load w.status.run = none)
      (hs : w.Shown past c.identity appId pages n) (hg : ∀ m, 1 ≤ m → m ≤ n → GoesOn pages m) :
      Route w past c appId x (w.pageRequests c.identity appId (n + 1))
  | found {pages : Nat → CheckRun.Listing} {k : Nat} {id : Int} {completedAt : String}
      (hc : c.runs.load w.status.run = none) (hs : w.Shown past c.identity appId pages k)
      (he : Ends pages k) (hf : Finds w.status.run (pages k).total (upTo pages k) (some id)) :
      Route w past c appId x
        (w.pageRequests c.identity appId k ++ [w.updateRequest c.identity x completedAt id])
  | creating {pages : Nat → CheckRun.Listing} {k : Nat} {startedAt : String}
      (hc : c.runs.load w.status.run = none) (hs : w.Shown past c.identity appId pages k)
      (he : Ends pages k) (hf : Finds w.status.run (pages k).total (upTo pages k) none) :
      Route w past c appId x
        (w.pageRequests c.identity appId k ++ [w.creationRequest c.identity x startedAt])
  | made {pages : Nat → CheckRun.Listing} {k : Nat} {id : Int} {startedAt completedAt : String}
      {reply : Reply} (hc : c.runs.load w.status.run = none)
      (hs : w.Shown past c.identity appId pages k) (he : Ends pages k)
      (hf : Finds w.status.run (pages k).total (upTo pages k) none)
      (hr : .back 0 (w.creationRequest c.identity x startedAt) reply ∈ past)
      (hm : reply.Creates id) :
      Route w past c appId x (w.pageRequests c.identity appId k ++
        [w.creationRequest c.identity x startedAt, w.updateRequest c.identity x completedAt id])

section Route

variable {past past' : List Packet} {c : Client} {x : Wording} {l : List Request}
  {pages : Nat → CheckRun.Listing} {n : Nat}

theorem Shown.mono (h : w.Shown past i appId pages n) (hsub : past ⊆ past') :
    w.Shown past' i appId pages n := by
  intro m hpos hle
  obtain ⟨reply, hback, hreads⟩ := h m hpos hle
  exact ⟨reply, hsub hback, hreads⟩

/-- With the next page that comes back, the pages that were shown go on to it. -/
theorem Shown.extend {b : CheckRun.Listing} {reply : Reply} (h : w.Shown past i appId pages n)
    (hg : ∀ m, 1 ≤ m → m ≤ n → GoesOn pages m) (hsub : past ⊆ past')
    (hback : .back 0 (w.pageRequest i appId (n + 1)) reply ∈ past') (hreads : reply.Reads b) :
    ∃ pages', w.Shown past' i appId pages' (n + 1) ∧ (∀ m, 1 ≤ m → m ≤ n → GoesOn pages' m) ∧
      pages' (n + 1) = b ∧ upTo pages' (n + 1) = upTo pages n ++ b.runs := by
  have hself : Function.update pages (n + 1) b (n + 1) = b := Function.update_self ..
  have hother : ∀ m, m ≤ n → pages m = Function.update pages (n + 1) b m := by
    intro m hm
    have hne : m ≠ n + 1 := by omega
    exact (Function.update_of_ne hne b pages).symm
  refine ⟨Function.update pages (n + 1) b, ?_, ?_, hself, ?_⟩
  · intro m hpos hle
    obtain hm | rfl := Nat.le_succ_iff.1 hle
    · rw [← hother m hm]
      exact h.mono hsub m hpos hm
    · exact ⟨reply, hback, hself.symm ▸ hreads⟩
  · intro m hpos hle
    exact (hg m hpos hle).congr (fun m' _ hm' ↦ hother m' (Nat.le_trans hm' hle)) hpos
  · rw [CheckRun.upTo_succ, hself, ← CheckRun.upTo_congr fun m _ hm ↦ hother m hm]

/-- If that page is the last, the pages that were shown are all, and the look is at its end. -/
theorem Shown.close {b : CheckRun.Listing} {reply : Reply} {run : String} {found : Option Int}
    (h : w.Shown past i appId pages n) (hg : ∀ m, 1 ≤ m → m ≤ n → GoesOn pages m)
    (hsub : past ⊆ past') (hback : .back 0 (w.pageRequest i appId (n + 1)) reply ∈ past')
    (hreads : reply.Reads b) (hl : CheckRun.Scan.isLast b (upTo pages n ++ b.runs) = true)
    (hf : CheckRun.Lookup.find? run ⟨b.total, upTo pages n ++ b.runs⟩ = found) :
    ∃ pages', w.Shown past' i appId pages' (n + 1) ∧ Ends pages' (n + 1) ∧
      Finds run (pages' (n + 1)).total (upTo pages' (n + 1)) found := by
  obtain ⟨pages', hs, hg', rfl, hall⟩ := h.extend hg hsub hback hreads
  rw [← hall] at hl hf
  exact ⟨pages', hs, CheckRun.ends_of_goesOn hg' (CheckRun.Scan.isLast_iff_not_goesOn.1 hl),
    CheckRun.Lookup.finds_of_find? hf⟩

theorem Route.mono (h : w.Route past c appId x l) (hsub : past ⊆ past') :
    w.Route past' c appId x l := by
  cases h with
  | still => exact .still
  | known hc => exact .known hc
  | looking hc hs hg => exact .looking hc (hs.mono hsub) hg
  | found hc hs he hf => exact .found hc (hs.mono hsub) he hf
  | creating hc hs he hf => exact .creating hc (hs.mono hsub) he hf
  | made hc hs he hf hr hm => exact .made hc (hs.mono hsub) he hf (hsub hr) hm

theorem Route.isPrefix (h : w.Route past c appId x l) :
    ∃ whole, w.Itinerary c appId x whole ∧ l <+: whole := by
  cases h with
  | still =>
    obtain ⟨whole, h⟩ := w.exists_itinerary c appId x
    exact ⟨whole, h, List.nil_prefix⟩
  | known hc => exact ⟨_, .known hc, List.prefix_refl _⟩
  | looking hc =>
    exact ⟨_, @Itinerary.found w c appId x _ 0 "" hc (Nat.le_add_left 1 _), List.prefix_append _ _⟩
  | found hc hs he => exact ⟨_, .found hc he.pos, List.prefix_refl _⟩
  | @creating _ k startedAt hc hs he =>
    refine ⟨_, @Itinerary.made w c appId x k 0 startedAt "" hc he.pos, ?_⟩
    exact ⟨[w.updateRequest c.identity x "" 0], by rw [List.append_assoc]; rfl⟩
  | made hc hs he => exact ⟨_, .made hc he.pos, List.prefix_refl _⟩

end Route

/-- How far a report has got with the answers so far, and what it has sent. -/
inductive Trail (w : StatusWrite) (past : List Packet) (c₀ : Client) (appId : Int) (c : Client) :
    Phase → List Request → Prop
  | ready (hc : c.runs.load w.status.run = c₀.runs.load w.status.run) :
      Trail w past c₀ appId c .ready []
  | waiting {run : String} (hc : c.runs.load w.status.run = c₀.runs.load w.status.run)
      (hn : c₀.runs.load w.status.run = none) : Trail w past c₀ appId c (.waiting run) []
  | looking {pages : Nat → CheckRun.Listing} {n : Nat} (hn : c₀.runs.load w.status.run = none)
      (hs : w.Shown past c₀.identity appId pages n) (hg : ∀ m, 1 ≤ m → m ≤ n → GoesOn pages m) :
      Trail w past c₀ appId c (.sending (w.pageRequest c₀.identity appId (n + 1))
          (.reporting (.ensuring (.looking (w.goal appId)
            ⟨(w.goal appId).run, ⟨(w.goal appId).query, n + 1, upTo pages n⟩⟩))))
        (w.pageRequests c₀.identity appId (n + 1))
  | creating {pages : Nat → CheckRun.Listing} {k : Nat} {startedAt : String}
      (hn : c₀.runs.load w.status.run = none) (hs : w.Shown past c₀.identity appId pages k)
      (he : Ends pages k) (hf : Finds w.status.run (pages k).total (upTo pages k) none) :
      Trail w past c₀ appId c (.sending (w.creationRequest c₀.identity w.wording startedAt)
          (.reporting (.ensuring (.creating (w.goal appId) ⟨(w.goal appId).write⟩))))
        (w.pageRequests c₀.identity appId k ++
          [w.creationRequest c₀.identity w.wording startedAt])
  | updating {req : Request} {l : List Request} (h : w.Route past c₀ appId w.wording l) :
      Trail w past c₀ appId c (.sending req (.reporting .updating)) l
  | finished {r : Except Failure Outcome} {l : List Request}
      (h : w.Route past c₀ appId w.wording l) : Trail w past c₀ appId c (.finished r) l

variable {past past' : List Packet} {c₀ c c' : Client} {p p' : Phase} {l : List Request}

theorem Trail.route (h : w.Trail past c₀ appId c p l) : w.Route past c₀ appId w.wording l := by
  cases h with
  | ready | waiting => exact .still
  | looking hn hs hg => exact .looking hn hs hg
  | creating hn hs he hf => exact .creating hn hs he hf
  | updating h | finished h => exact h

theorem Trail.stop (h : w.Trail past c₀ appId c p l) (hsub : past ⊆ past')
    (r : Except Failure Outcome) :
    w.Trail past' c₀ appId c' (.finished r) (l ++ (Phase.finished r).request?.toList) := by
  have hnone : (Phase.finished r).request?.toList = [] := rfl
  rw [hnone, List.append_nil]
  exact .finished (h.route.mono hsub)

open StatusRelay.Task (Settled Leads Course)

/-- A task that has its number sends the update, and that is the last of all. -/
theorem Trail.settle {r : Reporter} {id : Int} (h : w.Trail past c₀ appId c p l)
    (hsub : past ⊆ past') (hs : Settled c₀.identity (.report r w) (w.goal appId) id p')
    (hsign : ∀ req, p'.request? = some req → c₀.identity.Signs req)
    (hw : ∀ completedAt, w.Route past' c₀ appId w.wording
      (l ++ [w.updateRequest c₀.identity w.wording completedAt id])) :
    w.Trail past' c₀ appId c' p' (l ++ p'.request?.toList) := by
  cases hs with
  | answer hop => cases hop
  | update hop hr =>
    obtain rfl := Option.some.inj hop
    obtain ⟨completedAt, rfl⟩ := hr.eq_updateRequest (hsign _ rfl)
    exact .updating (hw completedAt)
  | fail => exact h.stop hsub _

theorem Trail.enter {r : Reporter} {c₁ : Client} {next : Next Ensure Int}
    (h : w.Trail past c₀ r.appId c p []) (hsub : past ⊆ past')
    (hn : c₀.runs.load w.status.run = none)
    (he : Entered (w.goal r.appId) c₁ c' next) (hi : c₁.identity = c₀.identity)
    (hp : Leads c₀.identity (.report r w) (w.goal r.appId) next p')
    (hsign : ∀ req, p'.request? = some req → c₀.identity.Signs req) :
    w.Trail past' c₀ r.appId c' p' p'.request?.toList := by
  cases he with
  | look ha =>
    cases hp
    obtain rfl := eq_pageRequest (hi ▸ ha) (hsign _ rfl)
    -- Of no pages at all, any will do.
    have hs : w.Shown past' c₀.identity r.appId (fun _ ↦ ⟨0, []⟩) 0 :=
      fun m hpos hle ↦ absurd (Nat.le_trans hpos hle) (by decide)
    exact .looking hn hs fun m hpos hle ↦ absurd (Nat.le_trans hpos hle) (by decide)
  | fail =>
    cases hp
    exact h.stop hsub _

/-- What an answer makes of a task that waits inside for it. -/
theorem Trail.answer {r : Reporter} {e : Ensure} {req : Request} {reply : Reply}
    {next : Next Ensure Int}
    (h : w.Trail past c₀ r.appId c (.sending req (.reporting (.ensuring e))) l)
    (hsub : past ⊆ past') (hback : .back 0 req reply ∈ past')
    (hr : Answered (w.goal r.appId) c req reply e c' next) (hi : c.identity = c₀.identity)
    (hp : Leads c₀.identity (.report r w) (w.goal r.appId) next p')
    (hsign : ∀ req, p'.request? = some req → c₀.identity.Signs req) :
    w.Trail past' c₀ r.appId c' p' (l ++ p'.request?.toList) := by
  have hbefore := h
  cases hr with
  | more hb hl ha =>
    cases h with
    | @looking _ n hn hs hg =>
      cases hp
      obtain rfl := eq_pageRequest (hi ▸ ha) (hsign _ rfl)
      obtain ⟨pages, hs', hg', hlast, hall⟩ := hs.extend hg hsub hback (Reply.reads_of_batch hb)
      rw [← hall, ← hlast, ← Bool.not_eq_true, CheckRun.Scan.isLast_iff_not_goesOn,
        not_not] at hl
      have hsent := w.pageRequests_succ c₀.identity r.appId (n + 1)
      simp only [Phase.request?, Option.toList_some, ← hsent, ← hall]
      refine .looking hn hs' fun m hpos hle ↦ ?_
      obtain hm | rfl := Nat.le_succ_iff.1 hle
      · exact hg' m hpos hm
      · exact hl
  | reuse hb hl hf =>
    cases h with
    | looking hn hs hg =>
      obtain ⟨pages, hs', he, hfinds⟩ :=
        hs.close hg hsub hback (Reply.reads_of_batch hb) hl hf
      cases hp with
      | settle hset => exact hbefore.settle hsub hset hsign fun _ ↦ .found hn hs' he hfinds
  | create hb hl hf ha =>
    cases h with
    | looking hn hs hg =>
      cases hp
      obtain ⟨startedAt, rfl⟩ := eq_creationRequest (hi ▸ ha) (hsign _ rfl)
      obtain ⟨pages, hs', he, hfinds⟩ :=
        hs.close hg hsub hback (Reply.reads_of_batch hb) hl hf
      exact .creating hn hs' he hfinds
  | confirm hm =>
    cases h with
    | creating hn hs he hf =>
      cases hp with
      | settle hset =>
        refine hbefore.settle hsub hset hsign fun _ ↦ ?_
        rw [List.append_assoc]
        exact .made hn (hs.mono hsub) he hf hback (Reply.creates_of_created hm)
  | giveUp | fail =>
    cases hp
    exact h.stop hsub _

theorem Trail.step {t : TaskId} {r : Reporter} {h : Happening}
    (ht : w.Trail past c₀ r.appId c p l) (hsub : past ⊆ past')
    (hback : ∀ req st reply, p = .sending req st → h = .reply reply → .back 0 req reply ∈ past')
    (hi : c.identity = c₀.identity)
    (hc : Course t (.report r w) (w.goal r.appId) c p h c' p')
    (hsign : ∀ req, p'.request? = some req → c₀.identity.Signs req) :
    w.Trail past' c₀ r.appId c' p' (l ++ p'.request?.toList) := by
  have hrun : (w.goal r.appId).run = w.status.run := rfl
  have hbefore := ht
  cases hc with
  | refuse | withdraw | abandon | drop | close => exact ht.stop hsub _
  | known hn hp =>
    cases ht with
    | ready hc =>
      rw [hrun, hc] at hn
      rw [hi] at hp
      exact hbefore.settle hsub hp hsign fun _ ↦ .known hn
  | queue hn =>
    cases ht with
    | ready hc =>
      rw [hrun, hc] at hn
      exact .waiting hc hn
  | take hn ho he hp =>
    rw [hi] at hp
    cases ho with
    | atOnce =>
      cases ht with
      | ready hc =>
        rw [hrun, hc] at hn
        exact hbefore.enter hsub hn he hi hp hsign
    | afterWait =>
      cases ht with
      | waiting hc hn => exact hbefore.enter hsub hn he hi hp hsign
  | knownLate hn =>
    cases ht with
    | waiting hc hnone =>
      -- The task is alone, so nobody has made the entry in between.
      rw [hrun, hc, hnone] at hn
      cases hn
  | answer ha hr hp =>
    rw [hi] at hp
    exact ht.answer hsub (hback _ _ _ rfl rfl) hr hi hp hsign

end StatusWrite

namespace System

open StatusRelay.Task (Placed)

variable {client : Client} {ops : List Operation} {sys sys' : System} {m : Move} {r : Reporter}
  {w : StatusWrite}

structure Own (client : Client) (sys : System) : Prop where
  identity_eq : sys.client.identity = client.identity
  tasks : ∀ (t : TaskId) (task : Task), sys.tasks[t]? = some task →
    task.op.IsOwn ∧ ∀ req st, task.phase = .sending req st → st.IsOwn
  sent : ∀ (t : TaskId) (req : Request), (t, req) ∈ sys.sent → client.identity.Signs req

theorem own_initial (ho : ∀ op ∈ ops, op.IsOwn) : Own client (initial client ops) where
  identity_eq := rfl
  tasks t task ht := by
    obtain ⟨op, hop, rfl⟩ := initial_tasks ht
    exact ⟨ho op (List.mem_of_getElem? hop), fun _ _ hp ↦ by cases hp⟩
  sent t req hmem := by cases hmem

theorem Deals.own {task : Task} {back : List Packet} {c : Client} {p : Phase}
    (h : Deals sys m task back c p) (ho : task.op.IsOwn)
    (hst : ∀ req st, task.phase = .sending req st → st.IsOwn) :
    c.identity = sys.client.identity ∧
      ∀ req st, p = .sending req st → sys.client.identity.Signs req ∧ st.IsOwn := by
  have hturn {t : Turn Running Outcome} (ht : t.Own sys.client.identity) :
      t.scope.client.identity = sys.client.identity ∧ ∀ req st, Phase.ofNext t.next =
        .sending req st → sys.client.identity.Signs req ∧ st.IsOwn :=
    ⟨ht.signed.identity_eq, fun req st hn ↦
      ⟨ht.signed.signs req st (next_of_ofNext hn), ht.isOwn req st (next_of_ofNext hn)⟩⟩
  cases h with
  | start hp ht =>
    subst ht
    exact hturn (Operation.own_start ho _ ⟨sys.client, task.context⟩)
  | resume hp ht =>
    subst ht
    exact hturn (Operation.own_resume (hst _ _ hp) _ _ _ ⟨sys.client, task.context⟩)
  | enter hp ht => exact hturn (Operation.own_enter ht).2
  | cancel hi => exact ⟨hi, fun _ _ hn ↦ by cases hn⟩

theorem Own.step (h : Own client sys) (hs : sys.step m = some sys') : Own client sys' := by
  obtain ⟨task, p, hc, hd⟩ := step_cases hs
  obtain ⟨ho, hst⟩ := h.tasks m.task task hc.found
  obtain ⟨hi, hp⟩ := hd.own ho hst
  rw [h.identity_eq] at hi hp
  refine ⟨hi, ?_, ?_⟩
  · exact hc.forall_tasks h.tasks (fun _ ↦ ⟨ho, fun req st hn ↦ (hp req st hn).2⟩)
      fun _ _ _ ht ↦ ht
  · intro t req hmem
    rw [hc.sent, List.mem_append, Option.mem_toList, Option.map_eq_some_iff] at hmem
    obtain hmem | ⟨req', hreq, heq⟩ := hmem
    · exact h.sent t req hmem
    · cases heq
      obtain ⟨st, rfl⟩ := Phase.sending_of_request? hreq
      exact (hp req st rfl).1

structure OnTrail (client : Client) (r : Reporter) (w : StatusWrite) (past : List Packet)
    (sys : System) : Prop where
  own : Own client sys
  task : ∃ phase ctx, sys.tasks = [⟨.report r w, phase, ctx⟩] ∧
    Placed client.identity (.report r w) (w.goal r.appId) phase ∧
      w.Trail past client r.appId sys.client phase (sys.sent.map (·.2))

variable {past : List Packet}

theorem onTrail_initial : OnTrail client r w [] (initial client [.report r w]) where
  own := own_initial fun op hop ↦ by
    obtain rfl := List.mem_singleton.1 hop
    trivial
  task := ⟨.ready, _, rfl, .ready, .ready rfl⟩

theorem OnTrail.step (hw : w.event.onCommit = false) (h : OnTrail client r w past sys)
    (hs : sys.step m = some sys') :
    OnTrail client r w (past ++ (sys.incoming m ++ sys.outgoing sys')) sys' := by
  have hown := h.own.step hs
  obtain ⟨phase, ctx, htasks, hplaced, htrail⟩ := h.task
  obtain ⟨task, hfound⟩ : ∃ task, sys.tasks[m.task]? = some task := by
    obtain ⟨task, _, hcarries, -⟩ := step_cases hs
    exact ⟨task, hcarries.found⟩
  obtain ⟨hm, rfl⟩ : m.task = 0 ∧ task = ⟨.report r w, phase, ctx⟩ := by
    rw [htasks] at hfound
    obtain ⟨hlt, hget⟩ := List.getElem?_eq_some_iff.1 hfound
    have hm : m.task = 0 := Nat.lt_one_iff.1 hlt
    simp only [hm, List.getElem_cons_zero] at hget
    exact ⟨hm, hget.symm⟩
  rw [← h.own.identity_eq] at hplaced
  obtain ⟨p, ctx', htasks', hsent, hcourse⟩ := step_course hs hfound (.report r w hw) hplaced
  refine ⟨hown, p, ctx', ?_, ?_, ?_⟩
  · rw [htasks', htasks, hm]
    rfl
  · rw [← hown.identity_eq]
    exact hcourse.placed
  · have hsign : ∀ req, p.request? = some req → client.identity.Signs req := by
      intro req hreq
      refine hown.sent m.task req ?_
      rw [hsent, hreq]
      exact List.mem_append_right _ (List.mem_singleton_self _)
    have hmap : sys'.sent.map (·.2) = sys.sent.map (·.2) ++ p.request?.toList := by
      rw [hsent, List.map_append]
      cases p.request? <;> rfl
    have hback : ∀ req st reply, phase = .sending req st → m.happening = .reply reply →
        .back 0 req reply ∈ past ++ (sys.incoming m ++ sys.outgoing sys') := by
      intro req st reply hphase hreply
      refine incoming_subset past sys sys' m (List.mem_append_right _ ?_)
      rw [incoming_eq hfound hphase hreply, hm]
      exact List.mem_singleton_self _
    rw [hmap]
    exact htrail.step (List.subset_append_left ..) hback h.own.identity_eq hcourse hsign

/-- Whatever comes in between, the requests of a report so far are those to which the answers so far
have led. -/
theorem route_sent (hw : w.event.onCommit = false) {moves : List Move}
    (hr : (initial client [.report r w]).run moves = some sys) :
    w.Route ((initial client [.report r w]).traffic moves) client r.appId w.wording
      (sys.sent.map (·.2)) := by
  obtain ⟨phase, ctx, -, -, htrail⟩ :=
    (traffic_induction onTrail_initial (OnTrail.step hw) hr).task
  exact htrail.route

end System
end StatusRelay
