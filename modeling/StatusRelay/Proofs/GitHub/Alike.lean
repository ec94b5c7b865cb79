import StatusRelay.Proofs.Task.Adoption

namespace StatusRelay

open Json (Value Members)

namespace Request

def anonymous (r : Request) : Request := { r with credential := .null }

variable {req req' : Request}

theorem accepted_eq (h : req'.anonymous = req.anonymous) (reply : Reply) :
    reply.accepted req' = reply.accepted req := by
  have hurl : req'.url = req.url := by simpa only [anonymous] using congrArg Request.url h
  cases reply with
  | answered r => simp only [Reply.accepted, hurl]
  | broken kind message => rfl

theorem json_eq (h : req'.anonymous = req.anonymous) (reply : Reply) :
    reply.json req' = reply.json req := by
  simp only [Reply.json, accepted_eq h]

end Request

/-- Identities with one base, where both have a token or neither has, and the same one if it is
`known` that they were given one. -/
structure Identity.Alike (known : Prop) (i i' : Identity) : Prop where
  apiUrl_eq : i'.apiUrl = i.apiUrl
  truthy_eq : i'.token.truthy = i.token.truthy
  token_eq : known → i'.token = i.token

namespace Identity.Alike

variable {known known' : Prop} {i i' : Identity}

theorem mono (h : i.Alike known i') (hk : known' → known) : i.Alike known' i' :=
  ⟨h.apiUrl_eq, h.truthy_eq, fun hknown ↦ h.token_eq (hk hknown)⟩

protected theorem refl (i : Identity) : i.Alike known i := ⟨rfl, rfl, fun _ ↦ rfl⟩

theorem url_eq (h : i.Alike known i') (path : String) : i'.url path = i.url path := by
  simp only [url, h.apiUrl_eq]

end Identity.Alike

structure Client.Alike (known : Prop) (c c' : Client) : Prop where
  identity : c.identity.Alike known c'.identity
  cache_eq : c'.cache = c.cache

namespace Client.Alike

variable {known : Prop} {c c' : Client}

theorem runs_eq (h : c.Alike known c') : c'.runs = c.runs := by
  simp only [runs, h.cache_eq]

theorem mapRuns (h : c.Alike known c') (f : RunCache → RunCache) :
    (c.mapRuns f).Alike known (c'.mapRuns f) :=
  ⟨h.identity, by simp only [Client.mapRuns, h.runs_eq]⟩

/-- The tokens given for the call may differ as well, if both count or neither does. -/
theorem request_eq (h : c.Alike known c') {token token' : Value}
    (ht : token'.truthy = token.truthy) (method path : String) (body : Option Value)
    (params : Option Members) :
    (c'.request method path token' body params).map Request.anonymous =
      (c.request method path token body params).map Request.anonymous := by
  simp only [request, Identity.bearer?, ht, h.identity.truthy_eq, h.identity.url_eq path]
  cases token.truthy with
  | true => rfl
  | false => cases c.identity.token.truthy <;> rfl

theorem base_eq (h : c.Alike known c') (host : String) :
    Installation.base c' host = Installation.base c host := by
  simp only [Installation.base, h.identity.apiUrl_eq]

end Client.Alike

structure Scope.Alike (known : Prop) (s s' : Scope) : Prop where
  client : s.client.Alike known s'.client
  context_eq : s'.context = s.context

namespace Scope.Alike

variable {known known' : Prop} {s s' : Scope}

theorem mono (h : s.Alike known s') (hk : known' → known) : s.Alike known' s' :=
  ⟨⟨h.client.identity.mono hk, h.client.cache_eq⟩, h.context_eq⟩

theorem mapRuns (h : s.Alike known s') (f : RunCache → RunCache) :
    (s.mapRuns f).Alike known (s'.mapRuns f) :=
  ⟨h.client.mapRuns f, h.context_eq⟩

theorem mapLock (h : s.Alike known s') (run : String) (f : Lock → Lock) :
    (s.mapLock run f).Alike known (s'.mapLock run f) := h.mapRuns _

theorem attach (h : s.Alike known s') : s.attach.Alike known s'.attach := h.mapRuns id

theorem adopt (h : s.Alike known s') {i i' : Identity} (hi : i.Alike known' i') :
    (s.adopt i).Alike known' (s'.adopt i') :=
  ⟨⟨hi, h.client.cache_eq⟩, h.context_eq⟩

theorem enter (h : s.Alike known s') (run : String) :
    (s.enter run).Alike known (s'.enter run) :=
  ⟨h.client, congrArg (·.enter run) h.context_eq⟩

theorem leave (h : s.Alike known s') : s.leave.Alike known s'.leave :=
  ⟨h.client, congrArg RunContext.leave h.context_eq⟩

end Scope.Alike

/-- Two ways to go on that differ in credentials alone, if `R` says so of the states. -/
inductive Next.Alike {σ α : Type} (R : σ → σ → Prop) : Next σ α → Next σ α → Prop
  | done (r : Except Failure α) : Alike R (.done r) (.done r)
  | send {req req' : Request} {st st' : σ} (hreq : req'.anonymous = req.anonymous)
      (hst : R st st') : Alike R (.send req st) (.send req' st')
  | wait (run : String) : Alike R (.wait run) (.wait run)

structure Turn.Alike {σ α : Type} (known : Prop) (R : σ → σ → Prop) (t t' : Turn σ α) : Prop where
  scope : t.scope.Alike known t'.scope
  records_eq : t'.records = t.records
  next : t.next.Alike R t'.next

namespace Turn.Alike

variable {σ τ α β : Type} {known : Prop} {R : σ → σ → Prop} {R' : τ → τ → Prop} {s s' : Scope}
  {t t' : Turn σ α} {wrap wrap' : σ → τ}

theorem finish (h : s.Alike known s') (r : Except Failure α) :
    (Turn.finish s r).Alike known R (Turn.finish s' r) :=
  ⟨h, rfl, .done r⟩

theorem log (h : s.Alike known s') (n : Notice) (ht : t.Alike known R t') :
    (Turn.log s n t).Alike known R (Turn.log s' n t') :=
  ⟨ht.scope, by simp only [Turn.log, h.context_eq, ht.records_eq], ht.next⟩

theorem wait (h : s.Alike known s') (run : String) :
    (Turn.wait s run : Turn σ α).Alike known R (Turn.wait s' run) :=
  ⟨h, rfl, .wait run⟩

theorem send (h : s.Alike known s') {r r' : Except Failure Request}
    (hr : r'.map Request.anonymous = r.map Request.anonymous) {st st' : σ} (hst : R st st') :
    (Turn.send s r st : Turn σ α).Alike known R (Turn.send s' r' st') := by
  cases r with
  | error f =>
    cases r' with
    | error f' =>
      obtain rfl := Except.error.inj hr
      exact finish h _
    | ok req' => cases hr
  | ok req =>
    cases r' with
    | error f' => cases hr
    | ok req' => exact ⟨h, rfl, .send (Except.ok.inj hr) hst⟩

/-- A request that is made by the client's own token. -/
theorem request (h : s.Alike known s') {method path : String} {body : Option Value}
    {params : Option Members} {st st' : σ} (hst : R st st') :
    (Turn.send s (s.client.request method path .null body params) st : Turn σ α).Alike known R
      (Turn.send s' (s'.client.request method path .null body params) st') :=
  send h (h.client.request_eq rfl method path body params) hst

theorem followedBy {rest rest' : Scope → Except Failure α → Turn τ β} (h : t.Alike known R t')
    (hw : ∀ st st', R st st' → R' (wrap st) (wrap' st'))
    (hr : ∀ s s' r, s.Alike known s' → (rest s r).Alike known R' (rest' s' r)) :
    (t.followedBy wrap rest).Alike known R' (t'.followedBy wrap' rest') := by
  obtain ⟨s, rs, next⟩ := t
  obtain ⟨s', rs', next'⟩ := t'
  obtain ⟨hs, hrs, hn⟩ := h
  dsimp only at hs hrs hn
  subst hrs
  cases hn with
  | done r =>
    obtain ⟨hs, hrs, hn⟩ := hr s s' r hs
    exact ⟨hs, by simp only [Turn.followedBy, hrs], hn⟩
  | send hreq hst => exact ⟨hs, rfl, .send hreq (hw _ _ hst)⟩
  | wait run => exact ⟨hs, rfl, .wait run⟩

theorem andThen {rest rest' : Scope → α → Turn τ β} (h : t.Alike known R t')
    (hw : ∀ st st', R st st' → R' (wrap st) (wrap' st'))
    (hr : ∀ s s' a, s.Alike known s' → (rest s a).Alike known R' (rest' s' a)) :
    (t.andThen wrap rest).Alike known R' (t'.andThen wrap' rest') := by
  refine h.followedBy hw ?_
  intro s s' r hs
  cases r with
  | error f => exact finish hs _
  | ok a => exact hr s s' a hs

theorem mono {known' : Prop} (h : t.Alike known R t') (hk : known' → known) :
    t.Alike known' R t' :=
  ⟨h.scope.mono hk, h.records_eq, h.next⟩

theorem map {f : α → β} (h : t.Alike known R t')
    (hw : ∀ st st', R st st' → R' (wrap st) (wrap' st')) :
    (t.map wrap f).Alike known R' (t'.map wrap' f) :=
  h.andThen hw fun _ _ _ hs ↦ finish hs _

theorem ofExcept {r : Except Failure α} {rest rest' : α → Turn σ β} (h : s.Alike known s')
    (hr : ∀ a, (rest a).Alike known R (rest' a)) :
    (Turn.ofExcept s r rest).Alike known R (Turn.ofExcept s' r rest') := by
  cases r with
  | error f => exact finish h _
  | ok a => exact hr a

end Turn.Alike

variable {known : Prop} {s s' : Scope} {req req' : Request}

namespace RepositoryScan

theorem alike_start (h : s.Alike known s') : (start s).Alike known Eq (start s') := .request h rfl

theorem alike_resume (h : s.Alike known s') (scan : RepositoryScan)
    (hreq : req'.anonymous = req.anonymous) (reply : Reply) :
    (scan.resume req reply s).Alike known Eq (scan.resume req' reply s') := by
  have hb : batch req' reply = batch req reply := by simp only [batch, Request.json_eq hreq]
  rw [resume, resume, hb]
  refine .ofExcept h ?_
  intro urls
  dsimp only
  split
  · exact .log h _ (.finish h _)
  · exact .request h rfl

end RepositoryScan

namespace CheckRun

theorem Scan.alike_start (h : s.Alike known s') (q : Query) :
    (start q s).Alike known Eq (start q s') := .request h rfl

theorem Scan.alike_resume (h : s.Alike known s') (scan : Scan)
    (hreq : req'.anonymous = req.anonymous) (reply : Reply) :
    (scan.resume req reply s).Alike known Eq (scan.resume req' reply s') := by
  have hb : batch req' reply = batch req reply := by simp only [batch, Request.json_eq hreq]
  rw [resume, resume, hb]
  refine .ofExcept h ?_
  intro batch
  dsimp only
  split
  · exact .finish h _
  · exact .request h rfl

theorem Lookup.alike_settle (h : s.Alike known s') (run : String) (l : Listing) :
    (settle run s l).Alike known Eq (settle run s' l) := by
  unfold settle
  split
  · exact .log h _ (.finish h _)
  · exact .finish h _

theorem Lookup.alike_start (h : s.Alike known s') (run : String) (q : Query) :
    (start run q s).Alike known Eq (start run q s') :=
  (Scan.alike_start h q).andThen (fun _ _ ↦ congrArg _) fun _ _ l hs ↦ alike_settle hs run l

theorem Lookup.alike_resume (h : s.Alike known s') (l : Lookup)
    (hreq : req'.anonymous = req.anonymous) (reply : Reply) :
    (l.resume req reply s).Alike known Eq (l.resume req' reply s') :=
  (Scan.alike_resume h l.scan hreq reply).andThen (fun _ _ ↦ congrArg _) fun _ _ a hs ↦
    alike_settle hs l.run a

theorem Creation.alike_start (h : s.Alike known s') (now : Moment) (w : StatusWrite) :
    (start now w s).Alike known Eq (start now w s') := by
  unfold start
  split
  · exact .finish h _
  · exact .request h rfl

theorem Creation.alike_resume (h : s.Alike known s') (c : Creation)
    (hreq : req'.anonymous = req.anonymous) (reply : Reply) :
    (c.resume req reply s).Alike known Eq (c.resume req' reply s') := by
  have hc : created c.write req' reply = created c.write req reply := by
    simp only [created, Request.json_eq hreq]
  rw [resume, resume, hc]
  exact .ofExcept h fun _ ↦ .log h _ (.finish h _)

namespace Ensure

theorem alike_conclude (h : s.Alike known s') (g : Goal) (r : Except Failure Value) :
    (conclude g s r).Alike known Eq (conclude g s' r) := by
  have hr : (release g s).Alike known (release g s') := h.mapLock _ _
  cases r with
  | error f => exact .finish hr _
  | ok v =>
    cases v with
    | int id => exact .finish ((h.mapRuns (·.store g.run id)).mapLock _ _) _
    | _ => exact .finish hr _

theorem alike_afterLookup (h : s.Alike known s') (now : Moment) (g : Goal)
    (r : Except Failure (Option Int)) :
    (afterLookup now g s r).Alike known Eq (afterLookup now g s' r) := by
  match r with
  | .error f => exact alike_conclude h g (.error f)
  | .ok (some id) => exact alike_conclude h g (.ok (.int id))
  | .ok none =>
    exact (Creation.alike_start h now g.write).followedBy (fun _ _ ↦ congrArg _) fun _ _ r hs ↦
      alike_conclude hs g r

theorem alike_inside (h : s.Alike known s') (now : Moment) (g : Goal) :
    (inside now g s).Alike known Eq (inside now g s') := by
  rw [inside, inside, h.client.runs_eq]
  split
  · exact .finish (h.mapLock _ _) _
  · exact (Lookup.alike_start h g.run g.query).followedBy (fun _ _ ↦ congrArg _) fun _ _ r hs ↦
      alike_afterLookup hs now g r

theorem alike_enter (h : s.Alike known s') (caller : Caller) (g : Goal) :
    (enter caller g s).Alike known Eq (enter caller g s') :=
  alike_inside (h.mapLock _ _) caller.now g

theorem alike_start (h : s.Alike known s') (caller : Caller) (g : Goal) :
    (start caller g s).Alike known Eq (start caller g s') := by
  simp only [start, h.attach.client.runs_eq]
  split
  · exact .finish h.attach _
  · split
    · exact alike_enter h.attach caller g
    · exact .wait (h.attach.mapLock _ _) _

theorem alike_resume (h : s.Alike known s') (now : Moment) (e : Ensure)
    (hreq : req'.anonymous = req.anonymous) (reply : Reply) :
    (e.resume now req reply s).Alike known Eq (e.resume now req' reply s') := by
  cases e with
  | looking g lookup =>
    exact (Lookup.alike_resume h lookup hreq reply).followedBy (fun _ _ ↦ congrArg _) fun _ _ r hs ↦
      alike_afterLookup hs now g r
  | creating g creation =>
    exact (Creation.alike_resume h creation hreq reply).followedBy (fun _ _ ↦ congrArg _)
      fun _ _ r hs ↦ alike_conclude hs g r

end Ensure
end CheckRun

namespace Publish

theorem settle_eq (hreq : req'.anonymous = req.anonymous) (reply : Reply) :
    settle req' reply = settle req reply := by
  simp only [settle, Request.json_eq hreq]

theorem alike_update (h : s.Alike known s') (now : Moment) (w : StatusWrite) (id : Int) :
    (update now w s id).Alike known Eq (update now w s' id) := by
  unfold update
  split
  · exact .finish h _
  · exact .request h rfl

theorem alike_post (h : s.Alike known s') (now : Moment) (w : StatusWrite) :
    (post now w s).Alike known Eq (post now w s') := by
  unfold post
  split
  · exact .finish h _
  · exact .request h rfl

theorem alike_comment (h : s.Alike known s') (w : StatusWrite) :
    (comment w s).Alike known Eq (comment w s') := by
  unfold comment
  split
  · exact .request h rfl
  · exact .finish h _

theorem alike_start (h : s.Alike known s') (caller : Caller) (sink : Sink) (w : StatusWrite) :
    (start caller sink w s).Alike known Eq (start caller sink w s') := by
  cases sink with
  | checkRun appId =>
    exact (CheckRun.Ensure.alike_start h caller ⟨w, appId⟩).andThen (fun _ _ ↦ congrArg _)
      fun _ _ id hs ↦ alike_update hs caller.now w id
  | commitStatus => exact alike_post h caller.now w

theorem alike_enter (h : s.Alike known s') (caller : Caller) (appId : Int) (w : StatusWrite) :
    (enter caller appId w s).Alike known Eq (enter caller appId w s') :=
  (CheckRun.Ensure.alike_enter h caller ⟨w, appId⟩).andThen (fun _ _ ↦ congrArg _) fun _ _ id hs ↦
    alike_update hs caller.now w id

theorem alike_resume (h : s.Alike known s') (now : Moment) (p : Publish)
    (hreq : req'.anonymous = req.anonymous) (reply : Reply) :
    (p.resume now req reply s).Alike known Eq (p.resume now req' reply s') := by
  cases p with
  | ensuring e =>
    exact (CheckRun.Ensure.alike_resume h now e hreq reply).andThen (fun _ _ ↦ congrArg _)
      fun _ _ id hs ↦ alike_update hs now e.goal.write id
  | updating | commenting =>
    rw [resume, resume, settle_eq hreq]
    exact .finish h _
  | posting w =>
    rw [resume, resume, settle_eq hreq]
    exact .ofExcept h fun _ ↦ alike_comment h w

theorem alike_cancel (h : s.Alike known s') (p : Publish) :
    (p.cancel s).Alike known (p.cancel s') := by
  cases p with
  | ensuring e => exact h.mapLock _ _
  | _ => exact h

end Publish

namespace Reporter

theorem alike_close {t t' : Turn Publish Unit} (h : t.Alike known Eq t') :
    (close t).Alike known Eq (close t') :=
  h.followedBy (fun _ _ ↦ congrArg _) fun _ _ _ hs ↦ .finish hs.leave _

theorem alike_start (h : s.Alike known s') (caller : Caller) (r : Reporter) (w : StatusWrite) :
    (start caller r w s).Alike known Eq (start caller r w s') := by
  have hp : r.prepare w s'.client = r.prepare w s.client := by
    simp only [prepare, h.client.identity.truthy_eq]
  rw [start, start, hp]
  refine .ofExcept h ?_
  rintro ⟨sink, w⟩
  exact .log (h.enter _) _ (alike_close (Publish.alike_start (h.enter _) caller sink w))

theorem alike_enter (h : s.Alike known s') (caller : Caller) (r : Reporter) (w : StatusWrite) :
    (enter caller r w s).Alike known Eq (enter caller r w s') :=
  alike_close (Publish.alike_enter h caller r.appId w.worded)

theorem alike_resume (h : s.Alike known s') (now : Moment) (p : Publish)
    (hreq : req'.anonymous = req.anonymous) (reply : Reply) :
    (resume now p req reply s).Alike known Eq (resume now p req' reply s') :=
  alike_close (Publish.alike_resume h now p hreq reply)

end Reporter

namespace TokenExchange

theorem alike_start (h : s.Alike known s') {appToken appToken' : String}
    (ht : (Value.str appToken').truthy = (Value.str appToken).truthy) (host : String) (id : Int)
    (namespaceName : String) :
    (start appToken host id namespaceName s).Alike known Eq
      (start appToken' host id namespaceName s') := by
  rw [start, start, h.client.base_eq]
  exact .send h (h.client.request_eq ht _ _ _ _) rfl

/-- After an exchange that grants a token both have that one. -/
theorem alike_resume (h : s.Alike known s') (x : TokenExchange)
    (hreq : req'.anonymous = req.anonymous) (reply : Reply) :
    (x.resume req reply s).Alike (known ∨ (reply.token? req).isSome = true) Eq
      (x.resume req' reply s') := by
  have hm : x.minted req' reply = x.minted req reply := by
    simp only [minted, Request.json_eq hreq]
  rw [resume, resume, hm]
  cases hx : x.minted req reply with
  | error f =>
    have hn : reply.token? req = none := token?_eq_none hx
    refine .finish (h.mono ?_) _
    rintro (hk | hs)
    · exact hk
    · simp [hn] at hs
  | ok token =>
    have ha : (s.adopt ⟨x.apiUrl, token⟩).Alike (known ∨ (reply.token? req).isSome = true)
        (s'.adopt ⟨x.apiUrl, token⟩) := h.adopt (.refl _)
    exact .log ha _ (.finish ha _)

end TokenExchange

theorem Installation.Listing.alike_start (h : s.Alike known s') (appToken appToken' : String)
    (host : String) : (start appToken host s).Alike known Eq (start appToken' host s') := by
  simp only [start, listingUrl, h.client.base_eq]
  exact ⟨h, rfl, .send rfl rfl⟩

/-- Queries that are the same but for the App's token, which both have or neither has. -/
inductive ResolveQuery.Alike (q : ResolveQuery) : ResolveQuery → Prop
  | withToken {appToken : String}
      (h : (Value.str appToken).truthy = (Value.str q.appToken).truthy) :
      Alike q { q with appToken }

namespace Resolve

inductive Alike : Resolve → Resolve → Prop
  | listing {q q' : ResolveQuery} (h : q.Alike q') (l : Installation.Listing) :
      Alike (.listing q l) (.listing q' l)
  | exchanging {q q' : ResolveQuery} (h : q.Alike q') (w : Walk) (i : Installation)
      (rest : List Installation) (x : TokenExchange) :
      Alike (.exchanging q w i rest x) (.exchanging q' w i rest x)
  | scanning {q q' : ResolveQuery} (h : q.Alike q') (w : Walk) (i : Installation)
      (rest : List Installation) (scan : RepositoryScan) :
      Alike (.scanning q w i rest scan) (.scanning q' w i rest scan)

protected theorem Alike.refl (r : Resolve) : r.Alike r := by
  cases r with
  | listing q l => exact .listing (.withToken rfl) l
  | exchanging q w i rest x => exact .exchanging (.withToken rfl) w i rest x
  | scanning q w i rest scan => exact .scanning (.withToken rfl) w i rest scan

variable {q q' : ResolveQuery} {onward onward' : Walk → Scope → Turn Resolve Resolution}

theorem alike_judge (h : s.Alike known s') (hq : q.Alike q')
    (ho : ∀ w s s', s.Alike known s' → (onward w s).Alike known Alike (onward' w s'))
    (i : Installation) (w : Walk) (urls : List Value) :
    (judge q i onward w s urls).Alike known Alike (judge q' i onward' w s' urls) := by
  obtain ⟨-⟩ := hq
  unfold judge
  dsimp only
  split
  · exact .log h _ (.finish h _)
  · exact ho _ s s' h

theorem alike_look (h : s.Alike known s') (hq : q.Alike q')
    (ho : ∀ w s s', s.Alike known s' → (onward w s).Alike known Alike (onward' w s'))
    (i : Installation) (rest : List Installation) (w : Walk) :
    (look q i rest onward w s).Alike known Alike (look q' i rest onward' w s') := by
  unfold look
  split
  · exact alike_judge h hq ho i w _
  · refine (RepositoryScan.alike_start h).andThen ?_ fun _ _ urls hs ↦ alike_judge hs hq ho i w urls
    rintro scan _ rfl
    exact .scanning hq w i rest scan

theorem alike_visit (hq : q.Alike q') (is : List Installation) : ∀ {s s' : Scope} (w : Walk),
    s.Alike known s' → (visit q is w s).Alike known Alike (visit q' is w s') := by
  induction is with
  | nil =>
    intro s s' w h
    obtain ⟨-⟩ := hq
    exact .log h _ (.finish h _)
  | cons i rest ih =>
    intro s s' w h
    rw [visit, visit]
    split
    · exact alike_look h hq (fun w _ _ ↦ ih w) i rest w
    · have hx : (TokenExchange.start q.appToken q.host i.id q.namespaceName s).Alike known Eq
          (TokenExchange.start q'.appToken q'.host i.id q'.namespaceName s') := by
        obtain ⟨ht⟩ := hq
        exact TokenExchange.alike_start h ht q.host i.id q.namespaceName
      refine hx.andThen ?_ fun _ _ token hs ↦ alike_look hs hq (fun w _ _ ↦ ih w) i rest _
      rintro x _ rfl
      exact .exchanging hq w i rest x

theorem alike_afterListing (h : s.Alike known s') (hq : q.Alike q') (is : List Installation) :
    (afterListing q s is).Alike known Alike (afterListing q' s' is) :=
  alike_visit hq is _ h

theorem alike_start (h : s.Alike known s') (hq : q.Alike q') :
    (start q s).Alike known Alike (start q' s') := by
  have hl : (Installation.Listing.start q.appToken q.host s).Alike known Eq
      (Installation.Listing.start q'.appToken q'.host s') := by
    obtain ⟨-⟩ := hq
    exact Installation.Listing.alike_start h _ _ q.host
  refine hl.andThen ?_ fun _ _ is hs ↦ alike_afterListing hs hq is
  rintro l _ rfl
  exact .listing hq l

theorem alike_resume (h : s.Alike known s') {r r' : Resolve} (hr : r.Alike r')
    (hreq : req'.anonymous = req.anonymous) (reply : Reply) :
    (r.resume req reply s).Alike
      (known ∨ ((Running.resolving r).adoption? req reply).isSome = true) Alike
      (r'.resume req' reply s') := by
  cases hr with
  | @listing q q' hq l =>
    have hl : (l.resume reply s).Alike known Eq (l.resume reply s') := .finish h _
    have ht : ((Resolve.listing q l).resume req reply s).Alike known Alike
        ((Resolve.listing q' l).resume req' reply s') := by
      refine hl.andThen ?_ fun _ _ is hs ↦ alike_afterListing hs hq is
      rintro l _ rfl
      exact .listing hq l
    refine ht.mono (Or.rec id ?_)
    simp [Running.adoption?, Running.exchange?]
  | @exchanging q q' hq w i rest x =>
    have hx := TokenExchange.alike_resume h x hreq reply
    have ht : ((Resolve.exchanging q w i rest x).resume req reply s).Alike
        (known ∨ (reply.token? req).isSome = true) Alike
        ((Resolve.exchanging q' w i rest x).resume req' reply s') := by
      refine hx.andThen ?_ fun _ _ token hs ↦
        alike_look hs hq (fun w _ _ ↦ alike_visit hq rest w) i rest _
      rintro x _ rfl
      exact .exchanging hq w i rest x
    refine ht.mono (Or.imp_right ?_)
    simp only [Running.adoption?, Running.exchange?]
    cases reply.token? req <;> simp
  | @scanning q q' hq w i rest scan =>
    have hscan := RepositoryScan.alike_resume h scan hreq reply
    have ht : ((Resolve.scanning q w i rest scan).resume req reply s).Alike known Alike
        ((Resolve.scanning q' w i rest scan).resume req' reply s') := by
      refine hscan.andThen ?_ fun _ _ urls hs ↦
        alike_judge hs hq (fun w _ _ ↦ alike_visit hq rest w) i w urls
      rintro scan _ rfl
      exact .scanning hq w i rest scan
    refine ht.mono (Or.rec id ?_)
    simp [Running.adoption?, Running.exchange?]

end Resolve
end StatusRelay
