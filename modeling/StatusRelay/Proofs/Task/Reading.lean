import StatusRelay.Proofs.Turn
import StatusRelay.Task.Operation

namespace StatusRelay

open Json (Value)

inductive Reading where
  /-- The response as it comes, even a rejection. -/
  | raw
  | response
  /-- The JSON in the response, whatever it is. -/
  | value
  | token (installation : Int)
  | addresses
  | checkRuns
  | created (run : String)
  | installations (url : String)
deriving Repr

def discard {α : Type} (r : Except Failure α) : Except Failure Unit := r.map fun _ ↦ ()

@[simp] theorem discard_map {α β : Type} (r : Except Failure α) (g : α → β) :
    discard (r.map g) = discard r := by
  cases r <;> rfl

namespace Reading

/-- What a rejection comes to. Only a listing of installations has no need of the body. -/
def rejection (req : Request) (resp : Response) : Reading → Failure
  | installations url => .rejected url resp.status (some Installation.rejectionDetail)
  | _ => resp.rejection req.url

theorem rejection_of_ne {r : Reading} (h : ∀ url, r ≠ installations url) (req : Request)
    (resp : Response) : r.rejection req resp = resp.rejection req.url := by
  cases r with
  | installations url => exact absurd rfl (h url)
  | _ => rfl

def ofValue (r : Reading) (v : Value) : Except Failure Unit :=
  match r with
  | token id => discard (TokenExchange.tokenOf id v)
  | addresses => discard (RepositoryScan.entries v >>= RepositoryScan.addresses)
  | checkRuns => discard (CheckRun.Listing.ofBody v)
  | created run => discard (CheckRun.Creation.idOf run v)
  | raw | response | value | installations _ => .ok ()

def ofBody (r : Reading) (b : Body) : Except Failure Unit :=
  match r, b with
  | raw, _ | response, _ => .ok ()
  | installations url, b => discard (Installation.ofBody url b)
  | r, .json v => r.ofValue v
  | _, .unread fault _ => .error (.bodyUnread fault)

def isChecked : Reading → Bool
  | raw => false
  | _ => true

def read (r : Reading) (req : Request) : Reply → Except Failure Unit
  | .broken kind message => .error (.network kind message)
  | .answered resp =>
    if r.isChecked && resp.isRejection then .error (r.rejection req resp)
    else r.ofBody resp.body

def IsValue : Reading → Prop
  | raw | response | installations _ => False
  | _ => True

theorem read_of_isValue (r : Reading) (hr : r.IsValue) (req : Request) (reply : Reply) :
    r.read req reply = reply.json req >>= r.ofValue := by
  have hc : r.isChecked = true := by cases r <;> first | rfl | exact hr.elim
  cases reply with
  | broken kind message => rfl
  | answered resp =>
    cases hj : resp.isRejection with
    | true =>
      have hd : r.rejection req resp = resp.rejection req.url := by
        refine rejection_of_ne ?_ req resp
        rintro url rfl
        exact hr
      simp only [read, hc, hj, hd, Bool.and_self, if_true, Reply.json, Reply.accepted]
      rfl
    | false =>
      obtain ⟨status, body⟩ := resp
      simp only [read, hj, Bool.and_false, Bool.false_eq_true, if_false, Reply.json,
        Reply.accepted, Response.json]
      cases body <;> cases r <;> first | rfl | exact hr.elim

end Reading

/-- The failures with which an operation may end although it could read the answer. A time fails
that cannot be written. -/
inductive Failure.IsLocal (now : Moment) : Failure → Prop
  | noToken : IsLocal now .noToken
  | noClient : IsLocal now .noClient
  | corruptId (id : Value) (run : String) : IsLocal now (.corruptId id run)
  | time (h : now.stamp? = none) : IsLocal now .timeOutOfRange

namespace Turn

variable {σ τ α β : Type} {now : Moment} {q : Except Failure Unit} {s : Scope} {t : Turn σ α}
  {wrap : σ → τ} {f : Failure}

/-- A turn that fails with a reading, and but for that for local reasons only. -/
structure Heeds (now : Moment) (q : Except Failure Unit) (t : Turn σ α) : Prop where
  fails : ∀ f, q = .error f → t.next = .done (.error f)
  only : ∀ f, t.next = .done (.error f) → q = .error f ∨ f.IsLocal now

abbrev IsFree (now : Moment) (t : Turn σ α) : Prop := t.Heeds now (.ok ())

theorem isFree_of (h : ∀ f, t.next = .done (.error f) → f.IsLocal now) : t.IsFree now :=
  ⟨fun _ hf ↦ (by cases hf), fun f hn ↦ .inr (h f hn)⟩

theorem isFree_ok (a : α) : (finish s (.ok a) : Turn σ α).IsFree now :=
  isFree_of fun _ hn ↦ by cases hn

theorem isFree_fail (hf : f.IsLocal now) : (fail s f : Turn σ α).IsFree now := by
  refine isFree_of fun f' hn ↦ ?_
  cases hn
  exact hf

theorem isFree_wait (run : String) : (wait s run : Turn σ α).IsFree now :=
  isFree_of fun _ hn ↦ by cases hn

theorem isFree_send (req : Request) (state : σ) : (send s (.ok req) state : Turn σ α).IsFree now :=
  isFree_of fun _ hn ↦ by cases hn

/-- For want of a token, if at all, a request is not made. -/
theorem isFree_request {c : Client} {method path : String} {token : Value} {body : Option Value}
    {params : Option Json.Members} {state : σ} :
    (send s (c.request method path token body params) state : Turn σ α).IsFree now := by
  unfold Client.request
  split
  · exact isFree_fail .noToken
  · exact isFree_send _ _

namespace Heeds

theorem finish (r : Except Failure α) : (Turn.finish s r : Turn σ α).Heeds now (discard r) := by
  cases r with
  | ok a => exact isFree_ok a
  | error f =>
    refine ⟨?_, ?_⟩
    · intro f' hf
      cases hf
      rfl
    · intro f' hn
      cases hn
      exact .inl rfl

theorem ofExcept {r : Except Failure α} {rest : α → Turn σ β} (h : ∀ a, (rest a).IsFree now) :
    (Turn.ofExcept s r rest).Heeds now (discard r) := by
  cases r with
  | ok a => exact h a
  | error f => exact finish (.error f)

theorem log (n : Notice) (h : t.Heeds now q) : (Turn.log s n t).Heeds now q := ⟨h.1, h.2⟩

/-- What follows a turn may do its own after a success, but passes a failure on. -/
theorem followedBy {rest : Scope → Except Failure α → Turn τ β} (h : t.Heeds now q)
    (he : ∀ s f, (rest s (.error f)).next = .done (.error f))
    (hr : ∀ s a, (rest s (.ok a)).IsFree now) : (t.followedBy wrap rest).Heeds now q := by
  obtain ⟨s, rs, next⟩ := t
  obtain ⟨hfails, honly⟩ := h
  cases next with
  | done r =>
    cases r with
    | error f =>
      have hn : (Turn.followedBy ⟨s, rs, .done (.error f)⟩ wrap rest).next = .done (.error f) :=
        he s f
      refine ⟨?_, ?_⟩
      · intro f' hf
        cases hfails f' hf
        exact hn
      · intro f' hf
        rw [hn] at hf
        cases hf
        exact honly f rfl
    | ok a =>
      refine ⟨fun f hf ↦ (by cases hfails f hf), ?_⟩
      intro f hf
      obtain hf | hf := (hr s a).only f hf
      · cases hf
      · exact .inr hf
  | send req st => exact ⟨fun f hf ↦ (by cases hfails f hf), fun f hf ↦ (by cases hf)⟩
  | wait run => exact ⟨fun f hf ↦ (by cases hfails f hf), fun f hf ↦ (by cases hf)⟩

theorem andThen {rest : Scope → α → Turn τ β} (h : t.Heeds now q)
    (hr : ∀ s a, (rest s a).IsFree now) : (t.andThen wrap rest).Heeds now q :=
  h.followedBy (fun _ _ ↦ rfl) hr

theorem map {f : α → β} (h : t.Heeds now q) : (t.map wrap f).Heeds now q :=
  h.andThen fun _ a ↦ isFree_ok (f a)

end Heeds
end Turn

open Turn (Heeds IsFree isFree_ok isFree_fail isFree_wait isFree_request)

variable {now : Moment} {s : Scope} {req : Request} {reply : Reply}

namespace TokenExchange

theorem discard_minted (x : TokenExchange) (req : Request) (reply : Reply) :
    discard (x.minted req reply) = (Reading.token x.installation).read req reply := by
  rw [Reading.read_of_isValue (.token _) trivial, minted]
  cases reply.json req <;> rfl

theorem isFree_start (appToken host : String) (id : Int) (namespaceName : String) :
    (start appToken host id namespaceName s).IsFree now := isFree_request

theorem heeds_resume (x : TokenExchange) :
    (x.resume req reply s).Heeds now ((Reading.token x.installation).read req reply) := by
  rw [← discard_minted]
  exact .ofExcept fun token ↦ .log _ (isFree_ok token)

end TokenExchange

namespace RepositoryScan

theorem discard_batch (req : Request) (reply : Reply) :
    discard (batch req reply) = Reading.addresses.read req reply := by
  rw [Reading.read_of_isValue .addresses trivial, batch]
  cases reply.json req <;> rfl

theorem isFree_start : (start s).IsFree now := isFree_request

theorem heeds_resume (scan : RepositoryScan) :
    (scan.resume req reply s).Heeds now (Reading.addresses.read req reply) := by
  rw [← discard_batch]
  refine .ofExcept fun urls ↦ ?_
  dsimp only
  split
  · exact .log _ (isFree_ok _)
  · exact isFree_request

end RepositoryScan

namespace Installation.Listing

theorem discard_read (l : Installation.Listing) (req : Request) (reply : Reply) :
    discard (l.read reply) = (Reading.installations l.url).read req reply := by
  cases reply with
  | broken kind message => rfl
  | answered resp =>
    cases hj : resp.isRejection with
    | true => simp only [read, Reply.response, Reading.read, Reading.isChecked, hj]; rfl
    | false => simp only [read, Reply.response, Reading.read, Reading.isChecked, hj]; rfl

theorem heeds_resume (l : Installation.Listing) :
    (l.resume reply s).Heeds now ((Reading.installations l.url).read req reply) := by
  rw [← discard_read]
  exact .finish _

end Installation.Listing

namespace CheckRun

theorem Scan.discard_batch (req : Request) (reply : Reply) :
    discard (batch req reply) = Reading.checkRuns.read req reply := by
  rw [Reading.read_of_isValue .checkRuns trivial, batch]
  cases reply.json req <;> rfl

theorem Scan.isFree_start (q : Query) : (start q s).IsFree now := isFree_request

theorem Scan.heeds_resume (scan : Scan) :
    (scan.resume req reply s).Heeds now (Reading.checkRuns.read req reply) := by
  rw [← discard_batch]
  refine .ofExcept fun batch ↦ ?_
  dsimp only
  split
  · exact isFree_ok _
  · exact isFree_request

theorem Lookup.isFree_settle (run : String) (l : Listing) : (settle run s l).IsFree now := by
  unfold settle
  split
  · exact .log _ (isFree_ok _)
  · exact isFree_ok _

theorem Lookup.isFree_start (run : String) (q : Query) : (start run q s).IsFree now :=
  (Scan.isFree_start q).andThen fun _ l ↦ isFree_settle run l

theorem Lookup.heeds_resume (l : Lookup) :
    (l.resume req reply s).Heeds now (Reading.checkRuns.read req reply) :=
  (Scan.heeds_resume l.scan).andThen fun _ a ↦ isFree_settle l.run a

theorem Creation.discard_created (w : StatusWrite) (req : Request) (reply : Reply) :
    discard (created w req reply) = (Reading.created w.status.run).read req reply := by
  rw [Reading.read_of_isValue (.created _) trivial, created]
  cases reply.json req <;> rfl

theorem Creation.isFree_start (w : StatusWrite) : (start now w s).IsFree now := by
  unfold start
  split
  · rename_i h
    exact isFree_fail (.time h)
  · exact isFree_request

theorem Creation.heeds_resume (c : Creation) :
    (c.resume req reply s).Heeds now ((Reading.created c.write.status.run).read req reply) := by
  rw [← discard_created]
  exact .ofExcept fun id ↦ .log _ (isFree_ok id)

namespace Ensure

def reading : Ensure → Reading
  | looking _ _ => .checkRuns
  | creating _ c => .created c.write.status.run

theorem isFree_conclude (g : Goal) (v : Value) : (conclude g s (.ok v)).IsFree now := by
  unfold conclude
  dsimp only
  split
  · exact isFree_ok _
  · rename_i h
    cases v <;> cases h <;> exact isFree_fail (.corruptId _ _)

theorem isFree_afterLookup (g : Goal) (found : Option Int) :
    (afterLookup now g s (.ok found)).IsFree now := by
  cases found with
  | some id => exact isFree_conclude g (.int id)
  | none =>
    exact (Creation.isFree_start g.write).followedBy (fun _ _ ↦ rfl) fun _ v ↦ isFree_conclude g v

theorem isFree_inside (g : Goal) : (inside now g s).IsFree now := by
  unfold inside
  split
  · exact isFree_ok _
  · exact (Lookup.isFree_start g.run g.query).followedBy (fun _ _ ↦ rfl) fun _ found ↦
      isFree_afterLookup g found

theorem isFree_enter (t : TaskId) (g : Goal) : (enter ⟨t, now⟩ g s).IsFree now := isFree_inside g

theorem isFree_start (t : TaskId) (g : Goal) : (start ⟨t, now⟩ g s).IsFree now := by
  unfold start
  dsimp only
  split
  · exact isFree_ok _
  · split
    · exact isFree_enter t g
    · exact isFree_wait _

theorem heeds_resume (e : Ensure) :
    (e.resume now req reply s).Heeds now (e.reading.read req reply) := by
  cases e with
  | looking g lookup =>
    exact (Lookup.heeds_resume lookup).followedBy (fun _ _ ↦ rfl) fun _ found ↦
      isFree_afterLookup g found
  | creating g c =>
    exact (Creation.heeds_resume c).followedBy (fun _ _ ↦ rfl) fun _ v ↦ isFree_conclude g v

end Ensure
end CheckRun

namespace Publish

def reading : Publish → Reading
  | ensuring e => e.reading
  | _ => .value

theorem discard_settle (req : Request) (reply : Reply) :
    discard (settle req reply) = Reading.value.read req reply := by
  rw [Reading.read_of_isValue .value trivial, settle]
  cases reply.json req <;> rfl

theorem isFree_update (w : StatusWrite) (id : Int) : (update now w s id).IsFree now := by
  unfold update
  split
  · rename_i h
    refine isFree_fail (.time ?_)
    simp only [StatusWrite.updatePayload?, StatusWrite.completion?, Option.map_eq_none_iff] at h
    split at h
    · exact Option.map_eq_none_iff.1 h
    · cases h
  · exact isFree_request

theorem isFree_post (w : StatusWrite) : (post now w s).IsFree now := by
  unfold post
  split
  · rename_i h
    exact isFree_fail (.time (Option.map_eq_none_iff.1 h))
  · exact isFree_request

theorem isFree_comment (w : StatusWrite) : (comment w s).IsFree now := by
  unfold comment
  split
  · exact isFree_request
  · exact isFree_ok _

theorem isFree_start (t : TaskId) (sink : Sink) (w : StatusWrite) :
    (start ⟨t, now⟩ sink w s).IsFree now := by
  cases sink with
  | checkRun appId => exact (CheckRun.Ensure.isFree_start t _).andThen fun _ id ↦ isFree_update w id
  | commitStatus => exact isFree_post w

theorem isFree_enter (t : TaskId) (appId : Int) (w : StatusWrite) :
    (enter ⟨t, now⟩ appId w s).IsFree now :=
  (CheckRun.Ensure.isFree_enter t _).andThen fun _ id ↦ isFree_update w id

theorem heeds_resume (p : Publish) :
    (p.resume now req reply s).Heeds now (p.reading.read req reply) := by
  cases p with
  | ensuring e =>
    exact (CheckRun.Ensure.heeds_resume e).andThen fun _ id ↦ isFree_update e.goal.write id
  | updating | commenting =>
    simp only [reading, ← discard_settle]
    exact .finish _
  | posting w =>
    simp only [reading, ← discard_settle]
    exact .ofExcept fun _ ↦ isFree_comment w

end Publish

namespace Reporter

theorem heeds_close {q : Except Failure Unit} {t : Turn Publish Unit} (h : t.Heeds now q) :
    (close t).Heeds now q :=
  h.followedBy (fun _ _ ↦ rfl) fun _ u ↦ isFree_ok u

theorem isFree_start (t : TaskId) (r : Reporter) (w : StatusWrite) :
    (start ⟨t, now⟩ r w s).IsFree now := by
  unfold start prepare
  split
  · exact .log _ (heeds_close (Publish.isFree_start t _ _))
  · exact isFree_fail .noClient

end Reporter

namespace Resolve

def reading : Resolve → Reading
  | listing _ l => .installations l.url
  | exchanging _ _ _ _ x => .token x.installation
  | scanning _ _ _ _ _ => .addresses

variable {q : ResolveQuery} {i : Installation} {rest : List Installation}
  {onward : Walk → Scope → Turn Resolve Resolution}

theorem isFree_judge (ho : ∀ w s, (onward w s).IsFree now) (w : Walk) (urls : List Value) :
    (judge q i onward w s urls).IsFree now := by
  unfold judge
  split
  · exact .log _ (isFree_ok _)
  · exact ho _ s

theorem isFree_look (ho : ∀ w s, (onward w s).IsFree now) (w : Walk) :
    (look q i rest onward w s).IsFree now := by
  unfold look
  split
  · exact isFree_judge ho w _
  · exact RepositoryScan.isFree_start.andThen fun _ urls ↦ isFree_judge ho w urls

theorem isFree_visit (q : ResolveQuery) (is : List Installation) (w : Walk) (s : Scope) :
    (visit q is w s).IsFree now := by
  induction is generalizing w s with
  | nil => exact .log _ (isFree_ok _)
  | cons i rest ih =>
    unfold visit
    split
    · exact isFree_look ih w
    · exact (TokenExchange.isFree_start _ _ _ _).andThen fun _ token ↦ isFree_look ih _

theorem isFree_start (q : ResolveQuery) : (start q s).IsFree now :=
  Heeds.andThen (Turn.isFree_send _ _) fun _ is ↦ isFree_visit q is _ _

theorem heeds_resume (r : Resolve) :
    (r.resume req reply s).Heeds now (r.reading.read req reply) := by
  cases r with
  | listing q l =>
    exact (Installation.Listing.heeds_resume l).andThen fun _ is ↦ isFree_visit q is _ _
  | exchanging q w i rest x =>
    exact (TokenExchange.heeds_resume x).andThen fun _ token ↦ isFree_look (isFree_visit q rest) _
  | scanning q w i rest scan =>
    exact (RepositoryScan.heeds_resume scan).andThen fun _ urls ↦
      isFree_judge (isFree_visit q rest) w urls

end Resolve

namespace Call

def reading : Call → Reading
  | plain _ _ _ _ _ => .response
  | unchecked _ _ _ => .raw
  | _ => .value

theorem discard_result (c : Call) (req : Request) (reply : Reply) :
    discard (c.result req reply) = c.reading.read req reply := by
  cases c with
  | plain =>
    cases reply with
    | broken => rfl
    | answered resp =>
      cases hj : resp.isRejection <;>
        simp only [result, reading, Reading.read, Reading.isChecked, Reply.accepted, hj] <;> rfl
  | unchecked => cases reply <;> rfl
  | _ =>
    simp only [result, reading, Reading.read_of_isValue .value trivial]
    cases reply.json req <;> rfl

end Call

namespace Running

def reading : Running → Reading
  | call c => c.reading
  | exchanging x => .token x.installation
  | listingRepositories _ => .addresses
  | listingCheckRuns _ | finding _ => .checkRuns
  | listingInstallations l => .installations l.url
  | resolving r => r.reading
  | ensuring e => e.reading
  | creating c => .created c.write.status.run
  | publishing p | reporting p => p.reading

theorem heeds_resume (st : Running) (now : Moment) (req : Request) (reply : Reply) (s : Scope) :
    (st.resume now req reply s).Heeds now (st.reading.read req reply) := by
  cases st with
  | call c =>
    simp only [resume, reading, ← Call.discard_result]
    rw [← discard_map _ Outcome.call]
    exact .finish _
  | exchanging x => exact (TokenExchange.heeds_resume x).map
  | listingRepositories scan => exact (RepositoryScan.heeds_resume scan).map
  | listingCheckRuns scan => exact (CheckRun.Scan.heeds_resume scan).map
  | listingInstallations l => exact (Installation.Listing.heeds_resume l).map
  | resolving r => exact (Resolve.heeds_resume r).map
  | ensuring e => exact (CheckRun.Ensure.heeds_resume e).map
  | finding l => exact (CheckRun.Lookup.heeds_resume l).map
  | creating c => exact (CheckRun.Creation.heeds_resume c).map
  | publishing p => exact (Publish.heeds_resume p).map
  | reporting p => exact (Reporter.heeds_close (Publish.heeds_resume p)).map

end Running

namespace Operation

/-- The operations that take no rejection for an answer, and that were given the App's token if they
need it. -/
def IsChecked : Operation → Prop
  | call (.unchecked _ _ _) | resolveConfigured _ _ _ => False
  | _ => True

theorem isFree_immediate (i : Immediate) :
    (Turn.finish (i.run s).1 ((i.run s).2.map .immediate) : Turn Running Outcome).IsFree now := by
  cases i with
  | store run id => cases id <;> first | exact isFree_ok _ | exact isFree_fail (.corruptId _ _)
  | sinkFor r e =>
    simp only [Immediate.run, Reporter.sinkFor]
    split
    · exact isFree_ok _
    · exact isFree_fail .noClient
  | _ => exact isFree_ok _

theorem isFree_start {op : Operation} (ho : op.IsChecked) (t : TaskId) (s : Scope) :
    (op.start ⟨t, now⟩ s).IsFree now := by
  cases op with
  | immediate i => exact isFree_immediate i
  | call c =>
    cases c with
    | unchecked => exact ho.elim
    | _ => exact isFree_request
  | exchangeToken appToken host id namespaceName =>
    exact (TokenExchange.isFree_start appToken host id namespaceName).map
  | mintToken appToken host id namespaceName =>
    simp only [start, TokenExchange.startUnlessZero]
    split
    · exact Heeds.map (isFree_ok _)
    · exact (TokenExchange.isFree_start appToken host id namespaceName).map.map
  | listRepositories => exact RepositoryScan.isFree_start.map
  | listCheckRuns q => exact (CheckRun.Scan.isFree_start q).map
  | listInstallations => exact Heeds.map (Turn.isFree_send _ _)
  | resolve q => exact (Resolve.isFree_start q).map
  | resolveConfigured => exact ho.elim
  | ensureCheckRun g => exact (CheckRun.Ensure.isFree_start t g).map
  | findCheckRun g => exact (CheckRun.Lookup.isFree_start g.run g.query).map
  | createCheckRun w => exact (CheckRun.Creation.isFree_start w).map
  | publish sink w => exact (Publish.isFree_start t sink w).map
  | report r w => exact (Reporter.isFree_start t r w).map

theorem isFree_enter {op : Operation} {t : TaskId} {u : Turn Running Outcome}
    (h : op.enter? ⟨t, now⟩ s = some u) : u.IsFree now := by
  cases op with
  | ensureCheckRun g =>
    obtain rfl := Option.some.inj h
    exact (CheckRun.Ensure.isFree_enter t g).map
  | publish sink w =>
    cases sink with
    | checkRun appId =>
      obtain rfl := Option.some.inj h
      exact (Publish.isFree_enter t appId w).map
    | commitStatus => cases h
  | report r w =>
    obtain rfl := Option.some.inj h
    exact (Reporter.heeds_close (Publish.isFree_enter t r.appId w.worded)).map
  | _ => cases h

end Operation
end StatusRelay
