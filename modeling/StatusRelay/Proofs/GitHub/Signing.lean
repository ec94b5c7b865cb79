import StatusRelay.Proofs.Installation.RepositoryPages
import StatusRelay.Task.Operation

namespace StatusRelay

open Json (Value Members)

namespace Identity

def Covers (path : String) : Prop :=
  path = RepositoryScan.path ∨ ∃ rest, path = "/repos/" ++ rest

def Signs (i : Identity) (req : Request) : Prop :=
  ∃ path, Covers path ∧ req.url = i.apiUrl ++ path ∧ req.credential = i.token

theorem Signs.credential_eq {i : Identity} {req : Request} (h : i.Signs req) :
    req.credential = i.token := by
  obtain ⟨-, -, -, hcredential⟩ := h
  exact hcredential

theorem bearer?_null {i : Identity} {bearer : Value} (h : i.bearer? .null = some bearer) :
    bearer = i.token := by
  have hn : Value.null.truthy = false := rfl
  simp only [bearer?, hn, Bool.false_eq_true, if_false, Option.ite_none_right_eq_some,
    Option.some.injEq] at h
  exact h.2.symm

theorem url_of_covers {path : String} (h : Covers path) (i : Identity) :
    i.url path = i.apiUrl ++ path := by
  obtain rfl | ⟨rest, rfl⟩ := h
  · have hs : RepositoryScan.path = "/" ++ "installation/repositories" := by decide
    rw [hs, url_slash]
  · exact url_repos i rest

end Identity

open Identity (Covers)

theorem Client.signs_of_request {c : Client} {method path : String} {body : Option Value}
    {params : Option Members} {req : Request} (hp : Covers path)
    (h : c.request method path .null body params = .ok req) : c.identity.Signs req := by
  obtain ⟨bearer, hb, rfl⟩ := request_eq_ok h
  exact ⟨path, hp, Identity.url_of_covers hp c.identity, Identity.bearer?_null hb⟩

def Scope.At (i : Identity) (c : RunContext) (s : Scope) : Prop :=
  s.client.identity = i ∧ s.context = c

namespace Turn

variable {σ τ α β : Type} {i : Identity} {c : RunContext} {s : Scope} {t : Turn σ α}
  {wrap : σ → τ}

/-- A turn after which the identity is `i`, and which sends nothing but in the name of it. -/
structure Signed (i : Identity) (t : Turn σ α) : Prop where
  identity_eq : t.scope.client.identity = i
  signs : ∀ req st, t.next = .send req st → i.Signs req

/-- A turn that leaves the identity and the context in place. It sends nothing but in the name of the
one, and logs by the run of the other. -/
structure InPlace (i : Identity) (c : RunContext) (t : Turn σ α) : Prop extends t.Signed i where
  context_eq : t.scope.context = c
  run_eq : ∀ r ∈ t.records, r.run = c.current

namespace InPlace

theorem finish (hs : s.At i c) (r : Except Failure α) :
    (Turn.finish s r : Turn σ α).InPlace i c :=
  ⟨⟨hs.1, fun _ _ hn ↦ by cases hn⟩, hs.2, fun _ hr ↦ nomatch hr⟩

theorem wait (hs : s.At i c) (run : String) : (Turn.wait s run : Turn σ α).InPlace i c :=
  ⟨⟨hs.1, fun _ _ hn ↦ by cases hn⟩, hs.2, fun _ hr ↦ nomatch hr⟩

theorem log (hs : s.At i c) (n : Notice) (h : t.InPlace i c) : (Turn.log s n t).InPlace i c := by
  refine ⟨⟨h.identity_eq, h.signs⟩, h.context_eq, ?_⟩
  intro r hr
  obtain rfl | hr := List.mem_cons.1 hr
  · exact congrArg RunContext.current hs.2
  · exact h.run_eq r hr

theorem send {r : Except Failure Request} {state : σ} (hs : s.At i c)
    (h : ∀ req, r = .ok req → i.Signs req) : (Turn.send s r state : Turn σ α).InPlace i c := by
  cases r with
  | error f => exact finish hs _
  | ok req =>
    refine ⟨⟨hs.1, ?_⟩, hs.2, fun _ hr ↦ nomatch hr⟩
    intro req' st hn
    cases hn
    exact h req rfl

/-- A request of the client's own, for a path that it covers. -/
theorem request {method path : String} {body : Option Value} {params : Option Members} {state : σ}
    (hs : s.At i c) (hp : Covers path) :
    (Turn.send s (s.client.request method path .null body params) state :
      Turn σ α).InPlace i c :=
  .send hs fun _ hr ↦ hs.1 ▸ Client.signs_of_request hp hr

theorem followedBy {rest : Scope → Except Failure α → Turn τ β} (h : t.InPlace i c)
    (hr : ∀ s r, s.At i c → (rest s r).InPlace i c) : (t.followedBy wrap rest).InPlace i c := by
  obtain ⟨s, records, next⟩ := t
  cases next with
  | done r =>
    have hrest := hr s r ⟨h.identity_eq, h.context_eq⟩
    refine ⟨⟨hrest.identity_eq, hrest.signs⟩, hrest.context_eq, ?_⟩
    intro rec hrec
    obtain hrec | hrec := List.mem_append.1 hrec
    · exact h.run_eq rec hrec
    · exact hrest.run_eq rec hrec
  | send req st =>
    refine ⟨⟨h.identity_eq, ?_⟩, h.context_eq, h.run_eq⟩
    intro req' st' hn
    cases hn
    exact h.signs req st rfl
  | wait run => exact ⟨⟨h.identity_eq, fun _ _ hn ↦ by cases hn⟩, h.context_eq, h.run_eq⟩

theorem andThen {rest : Scope → α → Turn τ β} (h : t.InPlace i c)
    (hr : ∀ s a, s.At i c → (rest s a).InPlace i c) : (t.andThen wrap rest).InPlace i c := by
  refine h.followedBy ?_
  intro s r hs
  cases r with
  | error f => exact finish hs _
  | ok a => exact hr s a hs

theorem ofExcept {r : Except Failure α} {rest : α → Turn σ β} (hs : s.At i c)
    (h : ∀ a, (rest a).InPlace i c) : (Turn.ofExcept s r rest).InPlace i c := by
  cases r with
  | error f => exact finish hs _
  | ok a => exact h a

end InPlace
end Turn

open Turn (InPlace)

variable {i : Identity} {c : RunContext} {s : Scope}

namespace RepositoryScan

theorem covers_path : Covers path := .inl rfl

theorem inPlace_start (hs : s.At i c) : (start s).InPlace i c :=
  .request hs covers_path

theorem inPlace_resume (hs : s.At i c) (scan : RepositoryScan) (req : Request)
    (reply : Reply) : (scan.resume req reply s).InPlace i c := by
  refine .ofExcept hs ?_
  intro urls
  dsimp only
  split
  · exact .log hs _ (.finish hs _)
  · exact .request hs covers_path

end RepositoryScan

namespace CheckRun

theorem Query.covers_path (q : Query) : Covers q.path := by
  refine .inr ⟨q.organization ++ ("/" ++ (q.repository ++ ("/commits/" ++ (q.sha ++
    "/check-runs")))), ?_⟩
  simp only [path, String.append_assoc]

theorem Creation.covers_path (e : Event) : Covers (path e) := by
  refine .inr ⟨e.organization ++ ("/" ++ (e.repository ++ "/check-runs")), ?_⟩
  simp only [path, String.append_assoc]

theorem Scan.inPlace_start (hs : s.At i c) (q : Query) : (start q s).InPlace i c :=
  .request hs q.covers_path

theorem Scan.inPlace_resume (hs : s.At i c) (scan : Scan) (req : Request)
    (reply : Reply) : (scan.resume req reply s).InPlace i c := by
  refine .ofExcept hs ?_
  intro batch
  dsimp only
  split
  · exact .finish hs _
  · exact .request hs scan.query.covers_path

theorem Lookup.inPlace_settle (hs : s.At i c) (run : String) (l : Listing) :
    (settle run s l).InPlace i c := by
  unfold settle
  split
  · exact .log hs _ (.finish hs _)
  · exact .finish hs _

theorem Lookup.inPlace_start (hs : s.At i c) (run : String) (q : Query) :
    (start run q s).InPlace i c :=
  (Scan.inPlace_start hs q).andThen fun _ l hs ↦ inPlace_settle hs run l

theorem Lookup.inPlace_resume (hs : s.At i c) (l : Lookup) (req : Request)
    (reply : Reply) : (l.resume req reply s).InPlace i c :=
  (Scan.inPlace_resume hs l.scan req reply).andThen fun _ a hs ↦ inPlace_settle hs l.run a

theorem Creation.inPlace_start (hs : s.At i c) (now : Moment) (w : StatusWrite) :
    (start now w s).InPlace i c := by
  unfold start
  split
  · exact .finish hs _
  · exact .request hs (covers_path w.event)

theorem Creation.inPlace_resume (hs : s.At i c) (creation : Creation) (req : Request)
    (reply : Reply) : (creation.resume req reply s).InPlace i c :=
  .ofExcept hs fun _ ↦ .log hs _ (.finish hs _)

namespace Ensure

theorem identity_store {run : String} {v : Value} {id : Int} {s' : Scope}
    (h : store run v s = .ok (id, s')) : s'.client.identity = s.client.identity := by
  cases v with
  | int n =>
    simp only [store, Except.ok.injEq, Prod.mk.injEq] at h
    rw [← h.2]
    rfl
  | _ => cases h

theorem inPlace_conclude (hs : s.At i c) (g : Goal) (r : Except Failure Value) :
    (conclude g s r).InPlace i c := by
  cases r with
  | error f => exact InPlace.finish (s := release g s) hs _
  | ok v =>
    cases v with
    | int id => exact InPlace.finish (s := release g (s.mapRuns _)) hs _
    | _ => exact InPlace.finish (s := release g s) hs _

theorem inPlace_afterLookup (hs : s.At i c) (now : Moment) (g : Goal)
    (r : Except Failure (Option Int)) : (afterLookup now g s r).InPlace i c := by
  match r with
  | .error f => exact inPlace_conclude hs g (.error f)
  | .ok (some id) => exact inPlace_conclude hs g (.ok (.int id))
  | .ok none =>
    exact (Creation.inPlace_start hs now g.write).followedBy fun _ r hs ↦ inPlace_conclude hs g r

theorem inPlace_inside (hs : s.At i c) (now : Moment) (g : Goal) :
    (inside now g s).InPlace i c := by
  unfold inside
  split
  · exact InPlace.finish (s := release g s) hs _
  · exact (Lookup.inPlace_start hs g.run g.query).followedBy fun _ r hs ↦
      inPlace_afterLookup hs now g r

theorem inPlace_enter (hs : s.At i c) (caller : Caller) (g : Goal) :
    (enter caller g s).InPlace i c := inPlace_inside (s := s.mapLock _ _) hs caller.now g

theorem inPlace_start (hs : s.At i c) (caller : Caller) (g : Goal) :
    (start caller g s).InPlace i c := by
  unfold start
  dsimp only
  split
  · exact InPlace.finish (s := s.attach) hs _
  · split
    · exact inPlace_enter (s := s.attach) hs caller g
    · exact InPlace.wait (s := s.attach.mapLock _ _) hs _

theorem inPlace_resume (hs : s.At i c) (now : Moment) (e : Ensure) (req : Request)
    (reply : Reply) : (e.resume now req reply s).InPlace i c := by
  cases e with
  | looking g lookup =>
    exact (Lookup.inPlace_resume hs lookup req reply).followedBy fun _ r hs ↦
      inPlace_afterLookup hs now g r
  | creating g creation =>
    exact (Creation.inPlace_resume hs creation req reply).followedBy fun _ r hs ↦
      inPlace_conclude hs g r

end Ensure
end CheckRun

namespace StatusWrite

theorem covers_checkRunPath (w : StatusWrite) (id : Int) : Covers (w.checkRunPath id) := by
  refine .inr ⟨w.event.organization ++ ("/" ++ (w.event.repository ++ ("/check-runs" ++ ("/" ++
    toString id)))), ?_⟩
  simp only [checkRunPath, CheckRun.Creation.path, String.append_assoc]

theorem covers_statusesPath (w : StatusWrite) : Covers w.statusesPath := by
  refine .inr ⟨w.event.organization ++ ("/" ++ (w.event.repository ++ ("/statuses/" ++
    w.event.sha))), ?_⟩
  simp only [statusesPath, String.append_assoc]

theorem covers_commentsPath (w : StatusWrite) : Covers w.commentsPath := by
  refine .inr ⟨w.event.organization ++ ("/" ++ (w.event.repository ++ ("/issues/" ++
    (toString w.event.pullRequest ++ "/comments")))), ?_⟩
  simp only [commentsPath, String.append_assoc]

end StatusWrite

namespace Publish

theorem inPlace_update (hs : s.At i c) (now : Moment) (w : StatusWrite) (id : Int) :
    (update now w s id).InPlace i c := by
  unfold update
  split
  · exact .finish hs _
  · exact .request hs (w.covers_checkRunPath id)

theorem inPlace_post (hs : s.At i c) (now : Moment) (w : StatusWrite) :
    (post now w s).InPlace i c := by
  unfold post
  split
  · exact .finish hs _
  · exact .request hs w.covers_statusesPath

theorem inPlace_comment (hs : s.At i c) (w : StatusWrite) :
    (comment w s).InPlace i c := by
  unfold comment
  split
  · exact .request hs w.covers_commentsPath
  · exact .finish hs _

theorem inPlace_start (hs : s.At i c) (caller : Caller) (sink : Sink)
    (w : StatusWrite) : (start caller sink w s).InPlace i c := by
  cases sink with
  | checkRun appId =>
    exact (CheckRun.Ensure.inPlace_start hs caller ⟨w, appId⟩).andThen fun _ id hs ↦
      inPlace_update hs caller.now w id
  | commitStatus => exact inPlace_post hs caller.now w

theorem inPlace_enter (hs : s.At i c) (caller : Caller) (appId : Int)
    (w : StatusWrite) : (enter caller appId w s).InPlace i c :=
  (CheckRun.Ensure.inPlace_enter hs caller ⟨w, appId⟩).andThen fun _ id hs ↦
    inPlace_update hs caller.now w id

theorem inPlace_resume (hs : s.At i c) (now : Moment) (p : Publish) (req : Request)
    (reply : Reply) : (p.resume now req reply s).InPlace i c := by
  cases p with
  | ensuring e =>
    exact (CheckRun.Ensure.inPlace_resume hs now e req reply).andThen fun _ id hs ↦
      inPlace_update hs now e.goal.write id
  | updating | commenting => exact .finish hs _
  | posting w => exact .ofExcept hs fun _ ↦ inPlace_comment hs w

end Publish

/-- The context that a block leaves behind: its own while it waits, and the one before it at its
end. -/
def Next.contextOf {σ α : Type} (c : RunContext) : Next σ α → RunContext
  | .done _ => c.leave
  | _ => c

namespace Turn

variable {σ τ α β : Type} {t : Turn σ α} {wrap : σ → τ} {f : α → β}

/-- A turn in a block, which is left at its end. -/
structure InBlock (i : Identity) (c : RunContext) (t : Turn σ α) : Prop extends t.Signed i where
  context_eq : t.scope.context = t.next.contextOf c
  run_eq : ∀ r ∈ t.records, r.run = c.current

theorem Signed.map (h : t.Signed i) : (t.map wrap f).Signed i := by
  refine ⟨?_, ?_⟩
  · rw [scope_map]
    exact h.identity_eq
  · intro req st hn
    obtain ⟨st', -, hst⟩ := next_map hn
    exact h.signs req st' hst

theorem InBlock.map (h : t.InBlock i c) : (t.map wrap f).InBlock i c := by
  have hsigned : (t.map wrap f).Signed i := h.toSigned.map
  obtain ⟨s, records, next⟩ := t
  cases next with
  | done r =>
    have hrecords : (map ⟨s, records, .done r⟩ wrap f).records = records := by
      cases r <;> exact List.append_nil records
    refine ⟨hsigned, ?_, fun rec hrec ↦ h.run_eq rec (hrecords ▸ hrec)⟩
    cases r <;> exact h.context_eq
  | _ => exact ⟨hsigned, h.context_eq, h.run_eq⟩

end Turn

namespace Reporter

theorem inBlock_close {t : Turn Publish Unit} (h : t.InPlace i c) : (close t).InBlock i c := by
  obtain ⟨s, records, next⟩ := t
  cases next with
  | done r =>
    refine ⟨⟨h.identity_eq, fun _ _ hn ↦ by cases hn⟩, congrArg RunContext.leave h.context_eq, ?_⟩
    intro rec hrec
    exact h.run_eq rec (by simpa [close, Turn.followedBy, Turn.finish] using hrec)
  | _ => exact ⟨⟨h.identity_eq, h.signs⟩, h.context_eq, h.run_eq⟩

theorem inBlock_start (hs : s.At i c) (caller : Caller) (r : Reporter) (w : StatusWrite) :
    (start caller r w s).InBlock i (c.enter w.status.run) := by
  unfold start prepare
  split
  · have henter : (s.enter w.status.run).At i (c.enter w.status.run) :=
      ⟨hs.1, congrArg (RunContext.enter · w.status.run) hs.2⟩
    have hclose := inBlock_close (Publish.inPlace_start henter caller (.ofEvent w.event r.appId)
      w.worded)
    refine ⟨⟨hclose.identity_eq, hclose.signs⟩, hclose.context_eq, ?_⟩
    intro rec hrec
    obtain rfl | hrec := List.mem_cons.1 hrec
    · exact congrArg RunContext.current henter.2
    · exact hclose.run_eq rec hrec
  · exact ⟨⟨hs.1, fun _ _ hn ↦ by cases hn⟩, hs.2, fun _ hr ↦ nomatch hr⟩

theorem inBlock_enter (hs : s.At i c) (caller : Caller) (r : Reporter) (w : StatusWrite) :
    (enter caller r w s).InBlock i c := inBlock_close (Publish.inPlace_enter hs _ _ _)

theorem inBlock_resume (hs : s.At i c) (now : Moment) (p : Publish) (req : Request)
    (reply : Reply) : (resume now p req reply s).InBlock i c :=
  inBlock_close (Publish.inPlace_resume hs _ _ _ _)

end Reporter
end StatusRelay
