import StatusRelay.Proofs.Installation.QueryRun

namespace StatusRelay

open Json (Value)

def Reply.token? (reply : Reply) (req : Request) : Option Value :=
  match reply.json req with
  | .ok (.obj ms) => (Table.get? ms "token").filter Value.truthy
  | _ => none

theorem Reply.Grants.token?_eq {reply : Reply} {token : Value} (h : reply.Grants token)
    (req : Request) : reply.token? req = some token := by
  obtain ⟨status, ms, rfl, hs, hg, ht⟩ := h
  simp only [token?, json_of_lt req hs, hg, Option.filter, ht, if_true]

theorem TokenExchange.minted_of_token? {x : TokenExchange} {req : Request} {reply : Reply}
    {token : Value} (h : reply.token? req = some token) : x.minted req reply = .ok token := by
  unfold Reply.token? at h
  split at h
  · rename_i ms hj
    obtain ⟨hg, ht⟩ := Option.filter_eq_some_iff.1 h
    simp only [minted, hj, tokenOf, hg, ht, if_true]
  · cases h

theorem TokenExchange.token?_eq_some {x : TokenExchange} {req : Request} {reply : Reply}
    {token : Value} (h : x.minted req reply = .ok token) : reply.token? req = some token :=
  (grants_of_minted h).token?_eq req

theorem TokenExchange.token?_eq_none {x : TokenExchange} {req : Request} {reply : Reply}
    {f : Failure} (h : x.minted req reply = .error f) : reply.token? req = none := by
  cases ht : reply.token? req with
  | none => rfl
  | some token =>
    rw [minted_of_token? ht] at h
    cases h

def Packet.grant? : Packet → Option (TaskId × Value)
  | .out _ _ => none
  | .back t req reply => if req.method == "POST" then (reply.token? req).map (t, ·) else none

def grants (past : List Packet) : List (TaskId × Value) := past.filterMap Packet.grant?

def lastGrant? (past : List Packet) : Option (TaskId × Value) := (grants past).getLast?

section

variable {past past' : List Packet} {t : TaskId} {req : Request} {reply : Reply} {token : Value}

@[simp] theorem grants_append : grants (past ++ past') = grants past ++ grants past' :=
  List.filterMap_append

theorem lastGrant?_append_of_nil (h : grants past' = []) :
    lastGrant? (past ++ past') = lastGrant? past := by
  rw [lastGrant?, grants_append, h, List.append_nil, lastGrant?]

theorem lastGrant?_append_of_cons {g : TaskId × Value} (h : grants past' = [g]) :
    lastGrant? (past ++ past') = some g := by
  rw [lastGrant?, grants_append, h, List.getLast?_concat]

theorem grants_out (o : Option Request) : grants (o.map (Packet.out t)).toList = [] := by
  cases o <;> rfl

theorem mem_grants_of_nil {back : List Packet} (hb : grants back = []) {o : Option Request}
    {g : TaskId × Value} (h : g ∈ grants (past ++ (back ++ (o.map (Packet.out t)).toList))) :
    g ∈ grants past := by
  rwa [grants_append, grants_append, hb, grants_out, List.append_nil, List.append_nil] at h

theorem grants_of_get (h : req.method = "GET") : grants [.back t req reply] = [] := by
  simp [grants, Packet.grant?, h]

theorem grants_of_post (h : req.method = "POST") (hg : reply.Grants token) :
    grants [.back t req reply] = [(t, token)] := by
  simp [grants, Packet.grant?, h, hg.token?_eq req]

theorem grants_of_unminted {x : TokenExchange} {f : Failure} (h : x.minted req reply = .error f) :
    grants [.back t req reply] = [] := by
  simp [grants, Packet.grant?, TokenExchange.token?_eq_none h]

theorem exists_lastGrant? {g : TaskId × Value} (h : g ∈ grants past) :
    ∃ g', lastGrant? past = some g' :=
  ⟨_, List.getLast?_eq_some_getLast (List.ne_nil_of_mem h)⟩

theorem asked_now (past back : List Packet) (t : TaskId) (req : Request) :
    past ++ back ++ [.out t req] <+: past ++ (back ++ [.out t req]) :=
  ⟨[], by rw [List.append_nil, List.append_assoc]⟩

theorem fst_of_mem_grants_back {g : TaskId × Value} (h : g ∈ grants [.back t req reply]) :
    g.1 = t := by
  obtain ⟨x, hx, h⟩ := List.mem_filterMap.1 h
  obtain rfl := List.mem_singleton.1 hx
  rw [Packet.grant?, Option.ite_none_right_eq_some, Option.map_eq_some_iff] at h
  obtain ⟨-, v, -, rfl⟩ := h
  rfl

theorem mem_grants_of_prefix (h : past <+: past') {g : TaskId × Value} (hg : g ∈ grants past) :
    g ∈ grants past' := by
  obtain ⟨l, rfl⟩ := h
  rw [grants_append]
  exact List.mem_append_left _ hg

end

namespace RepositoryScan

theorem pageRequest_inj {i i' : Identity} {n n' : Nat}
    (h : pageRequest i n = pageRequest i' n') : i.token = i'.token ∧ n = n' := by
  simp only [pageRequest, Page.params, Request.mk.injEq, Option.some.injEq, List.cons.injEq,
    Prod.mk.injEq, Value.int.injEq, Int.natCast_inj, true_and, and_true] at h
  exact ⟨h.2.1, h.2.2⟩

theorem ne_pageRequest {req : Request} (h : req.params = none) (i : Identity) (n : Nat) :
    req ≠ pageRequest i n := by
  rintro rfl
  cases h

end RepositoryScan

theorem TokenExchange.post_of_request {c : Client} {appToken host : String} {id : Int}
    {req : Request} (h : request c appToken host id = .ok req) :
    req.method = "POST" ∧ req.params = none ∧ ∃ base, req.url = url base id := by
  obtain ⟨bearer, -, rfl⟩ := Client.request_eq_ok h
  exact ⟨rfl, rfl, exists_url_eq _ _ _⟩

namespace Resolve

open RepositoryScan (pageRequest pageRequest_inj ne_pageRequest)

variable {q : ResolveQuery} {client c c' : Client} {past past' back : List Packet} {t : TaskId}
  {p p' : Phase} {req : Request} {i : Installation} {token : Value}

/-- Whether no listing of installations had the number zero in it. -/
def NonZero (past : List Packet) : Prop :=
  ∀ t req reply is base, .back t req reply ∈ past → req.url = base ++ Installation.path →
    (Installation.Listing.mk req.url).read reply = .ok is → ∀ i ∈ is, i.id ≠ 0

theorem NonZero.mono (h : NonZero past') (hp : past ⊆ past') : NonZero past :=
  fun t req reply is base hb ↦ h t req reply is base (hp hb)

def isNonZero : Packet → Bool
  | .out _ _ => true
  | .back _ req reply =>
    match (Installation.Listing.mk req.url).read reply with
    | .ok is => is.all (·.id != 0)
    | .error _ => true

theorem NonZero.of_all (h : past.all isNonZero = true) : NonZero past := by
  intro t req reply is base hb hu hr i hi
  have hall := List.all_eq_true.1 h _ hb
  simp only [isNonZero, hr, List.all_eq_true] at hall
  simpa using hall i hi

def Obtained (t : TaskId) (past : List Packet) (id : Int) (token : Value) : Prop :=
  ∃ base req reply, .back t req reply ∈ past ∧ req.method = "POST" ∧
    req.url = TokenExchange.url base id ∧ reply.Grants token

def ShownTo (t : TaskId) (past : List Packet) (token url : Value) : Prop :=
  ∃ j n reply page, j.token = token ∧ .back t (pageRequest j n) reply ∈ past ∧
    RepositoryScan.batch (pageRequest j n) reply = .ok page ∧ url ∈ page

/-- What a query has found out that visits an installation: the token is the only one it was granted,
and the addresses were shown on pages that it asked for. -/
structure Visit (t : TaskId) (past : List Packet) (i : Installation) (token : Value)
    (found : List Value) : Prop where
  own : ∀ v, (t, v) ∈ grants past → v = token
  obtained : Obtained t past i.id token
  shown : ∀ url ∈ found, ∃ before j n reply urls, before ++ [.out t (pageRequest j n)] <+: past ∧
    .back t (pageRequest j n) reply ∈ past ∧
    RepositoryScan.batch (pageRequest j n) reply = .ok urls ∧ url ∈ urls

inductive Story (q : ResolveQuery) (t : TaskId) (past : List Packet) : Phase → Prop
  | ready (hg : ∀ v, (t, v) ∉ grants past) : Story q t past .ready
  | listing {c : Client} (hg : ∀ v, (t, v) ∉ grants past) :
      Story q t past (.sending (listingRequest q c)
        (.resolving (.listing q ⟨Installation.listingUrl c q.host⟩)))
  | first {c : Client} {n : Nat} {i : Installation} {rest : List Installation} {x : TokenExchange}
      {req : Request} (hg : ∀ v, (t, v) ∉ grants past)
      (ha : Asks q c (.exchanging q ⟨n, .str "", none⟩ i rest x) req) :
      Story q t past (.sending req (.resolving (.exchanging q ⟨n, .str "", none⟩ i rest x)))
  | scanning {n k : Nat} {token : Value} {i : Installation} {rest : List Installation}
      {found : List Value} {before : List Packet} {j : Identity} (hk : 1 ≤ k)
      (ht : j.token.truthy = true) (hv : Visit t past i token found)
      (hb : before ++ [.out t (pageRequest j k)] <+: past) :
      Story q t past (.sending (pageRequest j k)
        (.resolving (.scanning q ⟨n, token, none⟩ i rest ⟨k, found⟩)))
  | later {c : Client} {n : Nat} {token : Value} {urls : List Value} {i : Installation}
      {rest : List Installation} {x : TokenExchange} {req : Request}
      (ha : Asks q c (.exchanging q ⟨n, token, some urls⟩ i rest x) req) :
      Story q t past (.sending req (.resolving (.exchanging q ⟨n, token, some urls⟩ i rest x)))
  | matched {i : Installation} {token : Value} {urls : List Value} (hv : Visit t past i token urls)
      (hl : isListed q.target urls = true) :
      Story q t past (.finished (.ok (.resolution ⟨q.host, token, some (i, urls)⟩)))
  | ended {r : Except Failure Outcome} (hr : ∀ res, r = .ok (.resolution res) → res.found = none) :
      Story q t past (.finished r)

theorem Story.placed (h : Story q t past p) : Placed q p := by
  cases h with
  | ready => exact .ready
  | @listing c => exact .asking (c := c) .listing
  | first _ ha | later ha => exact .asking ha
  | @scanning _ _ _ _ _ _ _ j _ ht => exact .asking (c := ⟨j, none⟩) (.page ht)
  | matched | ended => exact .finished

theorem Visit.mono {found : List Value} (h : Visit t past i token found) (hp : past <+: past')
    (hg : ∀ v, (t, v) ∈ grants past' → (t, v) ∈ grants past) : Visit t past' i token found where
  own v hv := h.own v (hg v hv)
  obtained := by
    obtain ⟨base, req, reply, hb, hreq⟩ := h.obtained
    exact ⟨base, req, reply, hp.subset hb, hreq⟩
  shown url hurl := by
    obtain ⟨before, j, n, reply, urls, hbefore, hb, hurls⟩ := h.shown url hurl
    exact ⟨before, j, n, reply, urls, hbefore.trans hp, hp.subset hb, hurls⟩

/-- What happens to other tasks does not change the story of a query. -/
theorem Story.mono (h : Story q t past p) (hp : past <+: past')
    (hg : ∀ v, (t, v) ∈ grants past' → (t, v) ∈ grants past) : Story q t past' p := by
  cases h with
  | ready hn => exact .ready fun v hv ↦ hn v (hg v hv)
  | listing hn => exact .listing fun v hv ↦ hn v (hg v hv)
  | first hn ha => exact .first (fun v hv ↦ hn v (hg v hv)) ha
  | scanning hk ht hv hb => exact .scanning hk ht (hv.mono hp hg) (hb.trans hp)
  | later ha => exact .later ha
  | matched hv hl => exact .matched (hv.mono hp hg) hl
  | ended hr => exact .ended hr

/-- A story that goes on without asking for a page. -/
structure Pageless (q : ResolveQuery) (t : TaskId) (past : List Packet) (p : Phase) : Prop where
  story : Story q t past p
  request_ne : ∀ j n, p.request? ≠ some (pageRequest j n)

theorem Pageless.failed (f : Failure) : Pageless q t past (.finished (.error f)) :=
  ⟨.ended (fun _ h ↦ by cases h), fun _ _ h ↦ by cases h⟩

theorem Pageless.unmatched (host : String) (token : Value) :
    Pageless q t past (.finished (.ok (.resolution ⟨host, token, none⟩))) := by
  refine ⟨.ended ?_, fun _ _ h ↦ by cases h⟩
  intro res hres
  cases hres
  rfl

theorem Pageless.sending {st : Running} (h : Story q t past (.sending req st))
    (hr : req.params = none) : Pageless q t past (.sending req st) :=
  ⟨h, fun j n heq ↦ ne_pageRequest hr j n (Option.some.inj heq)⟩

/-- Of the pages that are asked for, anything can be said. -/
theorem Pageless.told {P : Identity → Nat → Prop} (h : Pageless q t past p) :
    Story q t past p ∧ ∀ j n, p.request? = some (pageRequest j n) → P j n :=
  ⟨h.story, fun j n hr ↦ absurd hr (h.request_ne j n)⟩

theorem Begins.pageless {n : Nat} {is : List Installation} {next : Next Resolve Resolution}
    (hg : ∀ v, (t, v) ∉ grants past) (hz : ∀ i ∈ is, i.id ≠ 0) (h : Begins q c n is next) :
    Pageless q t past (phase next) := by
  cases h with
  | empty => exact .unmatched _ _
  | refuse | unsigned => exact .failed _
  | exchange hne hx =>
    exact .sending (.first hg (.first hne hx)) (TokenExchange.post_of_request hx).2.1
  | @scan i rest hzero ht => exact absurd hzero (hz i List.mem_cons_self)

theorem Continues.pageless {n : Nat} {urls : List Value} {is : List Installation}
    {next : Next Resolve Resolution} (hl : isListed q.target urls = false)
    (h : Continues q c n token urls is next) : Pageless q t past (phase next) := by
  induction h with
  | unmatched => exact .unmatched _ _
  | refuse => exact .failed _
  | skip hz h ih => exact ih
  | exchange hz hx =>
    exact .sending (.later (.later hl hz hx)) (TokenExchange.post_of_request hx).2.1

theorem Visit.mem_grants {found : List Value} (h : Visit t past i token found) :
    (t, token) ∈ grants past := by
  obtain ⟨base, req, reply, hb, hm, -, hg⟩ := h.obtained
  refine List.mem_filterMap.2 ⟨_, hb, ?_⟩
  simp [Packet.grant?, hm, hg.token?_eq req]

/-- With its first token a query begins a visit, in which it has seen nothing yet. -/
theorem Visit.first {appToken host : String} {reply : Reply} {o : Option Request}
    (hg : ∀ v, (t, v) ∉ grants past)
    (hr : TokenExchange.request c appToken host i.id = .ok req) (hgrant : reply.Grants token) :
    Visit t (past ++ ([.back t req reply] ++ (o.map (Packet.out t)).toList)) i token [] := by
  obtain ⟨hpost, -, base, hurl⟩ := TokenExchange.post_of_request hr
  refine ⟨?_, ?_, fun url hurl ↦ by cases hurl⟩
  · intro v hv
    rw [grants_append, grants_append, grants_of_post hpost hgrant, grants_out] at hv
    simpa [hg v] using hv
  · exact ⟨base, req, reply, List.mem_append_right _ List.mem_cons_self, hpost, hurl, hgrant⟩

/-- A page that was asked for adds what it shows. -/
theorem Visit.answered {found urls : List Value} {before : List Packet} {j : Identity} {k : Nat}
    {reply : Reply} {o : Option Request} (h : Visit t past i token found)
    (hb : before ++ [.out t (pageRequest j k)] <+: past)
    (hu : RepositoryScan.batch (pageRequest j k) reply = .ok urls) :
    Visit t (past ++ ([.back t (pageRequest j k) reply] ++ (o.map (Packet.out t)).toList)) i token
      (found ++ urls) := by
  have hp : past <+: past ++ ([.back t (pageRequest j k) reply] ++
      (o.map (Packet.out t)).toList) := List.prefix_append _ _
  have hkept := h.mono hp fun v ↦ mem_grants_of_nil (grants_of_get rfl)
  refine ⟨hkept.own, hkept.obtained, ?_⟩
  intro url hurl
  obtain hurl | hurl := List.mem_append.1 hurl
  · exact hkept.shown url hurl
  · exact ⟨before, j, k, reply, urls, hb.trans hp,
      List.mem_append_right _ List.mem_cons_self, hu, hurl⟩

/-- A move of a query carries its story on, and if it asks for a page, it does so by the token that
was granted last, which for the first page is its own. -/
theorem Story.step (h : Story q t past p) (hm : Moves q t c p back c' p')
    (hid : ∀ t' v, lastGrant? past = some (t', v) → c.identity.token = v)
    (hz : NonZero (past ++ back)) :
    Story q t (past ++ (back ++ (p'.request?.map (Packet.out t)).toList)) p' ∧
      ∀ j n, p'.request? = some (pageRequest j n) →
        ∃ t', lastGrant? (past ++ back) = some (t', j.token) ∧ (n = 1 → t' = t) := by
  cases hm with
  | cancel => exact (Pageless.failed _).told
  | start =>
    cases h with
    | ready hg =>
      exact (Pageless.sending (.listing fun v hv ↦ hg v (mem_grants_of_nil rfl hv)) rfl).told
  | @answer st req reply c' next hcourse =>
    cases hcourse with
    | unlisted | unminted | unread | unsigned => exact (Pageless.failed _).told
    | listed hr hb =>
      cases h with
      | listing hg =>
        have hne := hz t _ reply _ _ (List.mem_append_right _ (List.mem_singleton_self _)) rfl hr
        exact (hb.pageless (fun v hv ↦ hg v (mem_grants_of_nil (grants_of_get rfl) hv)) hne).told
    | @adopt n i rest x token hmint =>
      cases h with
      | first hg ha =>
        have hgrant := TokenExchange.grants_of_minted hmint
        obtain ⟨-, hr⟩ := ha.of_exchanging
        have hback := grants_of_post (t := t) (TokenExchange.post_of_request hr).1 hgrant
        have hsent := asked_now past [.back t req reply] t (pageRequest ⟨x.apiUrl, token⟩ 1)
        refine ⟨.scanning (Nat.le_refl 1) hgrant.truthy (.first hg hr hgrant) hsent, ?_⟩
        intro j n hpage
        obtain ⟨htoken, -⟩ := pageRequest_inj (Option.some.inj hpage)
        exact ⟨t, by rw [lastGrant?_append_of_cons hback, ← htoken], fun _ ↦ rfl⟩
    | readopt hl hmint hc => exact (hc.pageless hl).told
    | @page n k token i rest found urls hb hs ht =>
      cases h with
      | @scanning _ _ _ _ _ _ _ j' hk htoken hv hbefore =>
        have hvisit := hv.answered hbefore hb (o := some (pageRequest c.identity (k + 1)))
        have hsent := asked_now past [.back t (pageRequest j' k) reply] t
          (pageRequest c.identity (k + 1))
        refine ⟨.scanning (Nat.le_add_left 1 k) ht hvisit hsent, ?_⟩
        intro j n hpage
        obtain ⟨hj, hn⟩ := pageRequest_inj (Option.some.inj hpage)
        -- Some grant there was, for the query has one, but the last may be another's.
        obtain ⟨⟨t', v⟩, hlast⟩ := exists_lastGrant? hv.mem_grants
        rw [lastGrant?_append_of_nil (grants_of_get rfl), ← hj, hid t' v hlast]
        exact ⟨t', hlast, by omega⟩
    | matched hb hs hl =>
      cases h with
      | scanning hk htoken hv hbefore =>
        exact ⟨.matched (hv.answered hbefore hb (o := none)) hl, fun j n hr ↦ by cases hr⟩
    | onward hb hs hl hc => exact (hc.pageless hl).told

/-- The identity of the client is the one that was granted last, after a move as before. -/
theorem Moves.token_of_lastGrant? (hp : Placed q p) (hm : Moves q t c p back c' p')
    (hid : ∀ t' v, lastGrant? past = some (t', v) → c.identity.token = v) (t' : TaskId) (v : Value)
    (h : lastGrant? (past ++ back) = some (t', v)) : c'.identity.token = v := by
  have hkept (hback : grants back = []) (hi : c'.identity = c.identity) :
      c'.identity.token = v := by
    rw [lastGrant?_append_of_nil hback] at h
    rw [hi]
    exact hid t' v h
  cases hm with
  | start => exact hkept rfl rfl
  | cancel hi => exact hkept rfl hi
  | @answer st req reply c' next hcourse =>
    cases hp with
    | asking ha =>
      cases hcourse with
      | unlisted | listed =>
        cases ha
        exact hkept (grants_of_get rfl) rfl
      | unread | unsigned | page | matched | onward =>
        cases ha
        exact hkept (grants_of_get rfl) rfl
      | unminted hmint => exact hkept (grants_of_unminted hmint) rfl
      | adopt hmint | readopt _ hmint =>
        obtain ⟨hpost, -, -⟩ := TokenExchange.post_of_request ha.of_exchanging.2
        rw [lastGrant?_append_of_cons
          (grants_of_post hpost (TokenExchange.grants_of_minted hmint))] at h
        cases h
        rfl

/-- Whether a query always asked for its pages while the token that was granted last was its own. -/
def Undisturbed (t : TaskId) (past : List Packet) : Prop :=
  ∀ before j n, before ++ [.out t (pageRequest j n)] <+: past →
    ∃ v, lastGrant? before = some (t, v)

end Resolve

open Resolve (NonZero Obtained ShownTo Story Undisturbed)
open RepositoryScan (pageRequest)

namespace System

variable {client : Client} {ops : List Operation} {past : List Packet} {sys sys' : System} {m : Move}

/-- What queries know that share a client: who was granted a token last, what became of each, and
by which token each page was asked for. -/
structure Shares (past : List Packet) (sys : System) : Prop where
  token : ∀ t v, lastGrant? past = some (t, v) → sys.client.identity.token = v
  tasks : ∀ (t : TaskId) (task : Task), sys.tasks[t]? = some task →
    ∃ q, task.op = .resolve q ∧ Story q t past task.phase
  pages : ∀ before t j n, before ++ [.out t (pageRequest j n)] <+: past →
    ∃ t', lastGrant? before = some (t', j.token) ∧ (n = 1 → t' = t)

theorem shares_initial (ho : ∀ op ∈ ops, ∃ q, op = .resolve q) :
    Shares [] (initial client ops) where
  token t v h := by cases h
  tasks t task ht := by
    obtain ⟨op, hop, rfl⟩ := initial_tasks ht
    obtain ⟨q, rfl⟩ := ho op (List.mem_of_getElem? hop)
    exact ⟨q, rfl, .ready fun v hv ↦ by cases hv⟩
  pages before t j n h := by simp at h

theorem mem_grants_of_ne {t : TaskId} (hne : t ≠ m.task) {v : Value} {o : Option Request}
    (h : (t, v) ∈ grants (past ++ (sys.incoming m ++ (o.map (Packet.out m.task)).toList))) :
    (t, v) ∈ grants past := by
  rw [grants_append, grants_append, grants_out, List.append_nil] at h
  obtain h | h := List.mem_append.1 h
  · exact h
  · obtain hi | ⟨req, reply, hi⟩ := incoming_cases sys m
    · rw [hi] at h
      cases h
    · rw [hi] at h
      exact absurd (fst_of_mem_grants_back h) hne

theorem Shares.step (h : Shares past sys) (hs : sys.step m = some sys')
    (hz : NonZero (past ++ (sys.incoming m ++ sys.outgoing sys'))) :
    Shares (past ++ (sys.incoming m ++ sys.outgoing sys')) sys' := by
  obtain ⟨task, p, hc, hd⟩ := step_cases hs
  obtain ⟨q, ho, hstory⟩ := h.tasks _ _ hc.found
  have hm := hd.query ho hstory.placed
  have hz' : NonZero (past ++ sys.incoming m) := hz.mono (incoming_subset past sys sys' m)
  obtain ⟨hnext, hpage⟩ := hstory.step hm h.token hz'
  refine ⟨?_, ?_, ?_⟩
  · intro t v hlast
    rw [hc.outgoing_eq, ← List.append_assoc, lastGrant?_append_of_nil (grants_out _)] at hlast
    exact hm.token_of_lastGrant? hstory.placed h.token t v hlast
  · rw [hc.outgoing_eq]
    refine hc.forall_tasks h.tasks (fun ctx ↦ ⟨q, ho, hnext⟩) ?_
    rintro t task' hne ⟨q', ho', hstory'⟩
    exact ⟨q', ho', hstory'.mono (List.prefix_append _ _) fun v ↦ mem_grants_of_ne hne⟩
  · intro before t j n hbefore
    obtain hbefore | ⟨rfl, rfl, hp⟩ := hc.sent_before_or hbefore
    · exact h.pages before t j n hbefore
    · exact hpage j n hp

/-- Among queries that run side by side, each page of repositories is asked for by the token that
was granted last, whoever it was granted to; the first page by the query's own. A query that finds
an installation got its token for that installation, and if nobody else was granted one while it
asked for its pages, all that it found was shown to that token. -/
theorem pages_by_last_grant (ho : ∀ op ∈ ops, ∃ q, op = .resolve q) {moves : List Move}
    (hr : (initial client ops).run moves = some sys) :
    let past := (initial client ops).traffic moves
    NonZero past →
      (∀ before t j n, before ++ [.out t (pageRequest j n)] <+: past →
        ∃ t', lastGrant? before = some (t', j.token) ∧ (n = 1 → t' = t)) ∧
      ∀ (t : TaskId) (q : ResolveQuery) (ctx : RunContext) (r : Resolution) (i : Installation)
        (urls : List Value),
        sys.tasks[t]? = some ⟨.resolve q, .finished (.ok (.resolution r)), ctx⟩ →
        r.found = some (i, urls) →
          Resolve.isListed q.target urls = true ∧ Obtained t past i.id r.token ∧
            (Undisturbed t past → ∀ url ∈ urls, ShownTo t past r.token url) := by
  intro past hz
  -- No listing of the whole run had a zero in it, so none had up to any moment of it.
  have hshares : NonZero past → Shares past sys := by
    refine traffic_induction (P := fun h sys ↦ NonZero h → Shares h sys)
      (fun _ ↦ shares_initial ho) ?_ hr
    intro h sys m sys' hp hs hz
    exact (hp (hz.mono (List.subset_append_left _ _))).step hs hz
  have h := hshares hz
  refine ⟨h.pages, ?_⟩
  intro t q ctx r i urls ht hfound
  obtain ⟨q', hq, hstory⟩ := h.tasks t _ ht
  cases hq
  generalize hp : (⟨Operation.resolve q, .finished (.ok (.resolution r)), ctx⟩ : Task).phase = p
    at hstory
  cases hstory with
  | ended hnone =>
    cases hp
    rw [hnone r rfl] at hfound
    cases hfound
  | matched hv hl =>
    cases hp
    cases hfound
    refine ⟨hl, hv.obtained, ?_⟩
    intro hown url hurl
    obtain ⟨before, j, n, reply, page, hbefore, hb, hpage⟩ := hv.shown url hurl
    obtain ⟨v, hlast⟩ := hown before j n hbefore
    obtain ⟨t', hlast', -⟩ := h.pages before t j n hbefore
    have htoken : j.token = v := by
      rw [hlast] at hlast'
      cases hlast'
      rfl
    have hmem : (t, v) ∈ grants past :=
      mem_grants_of_prefix ((List.prefix_append _ _).trans hbefore) (List.mem_of_getLast? hlast)
    exact ⟨j, n, reply, page, htoken.trans (hv.own v hmem), hb, hpage⟩
  | _ => cases hp

end System

namespace Sample

def twoQueries : List Operation := [.resolve appQuery, .resolve appQuery]

theorem queries : ∀ op ∈ twoQueries, ∃ q, op = .resolve q := by
  intro op hop
  simp only [twoQueries, List.mem_cons, List.not_mem_nil, or_false] at hop
  obtain rfl | rfl := hop <;> exact ⟨_, rfl⟩

def besideMoves : List Move :=
  [start 0, start 1, answer 0 (listing [1]), answer 1 (listing [2]), answer 0 (grant "t1"),
    answer 1 (grant "t2"), answer 0 (page [target]), answer 1 (page [])]

def crossedMoves : List Move :=
  [start 0, start 1, answer 0 (listing [1]), answer 1 (listing [2]), answer 0 (grant "t1"),
    answer 1 (grant "t2"), answer 0 (page (List.replicate 100 "https://github.com/org/other")),
    answer 0 (page [target])]

end Sample

namespace System

theorem pages_by_last_grant_beside :
    (∀ op ∈ Sample.twoQueries, ∃ q, op = .resolve q) ∧
      ∃ sys, (initial Sample.appClient Sample.twoQueries).run Sample.besideMoves = some sys ∧
        let past := (initial Sample.appClient Sample.twoQueries).traffic Sample.besideMoves
        NonZero past ∧
          (∀ before t j n, before ++ [.out t (pageRequest j n)] <+: past →
            ∃ t', lastGrant? before = some (t', j.token) ∧ (n = 1 → t' = t)) ∧
          ∀ (t : TaskId) (q : ResolveQuery) (ctx : RunContext) (r : Resolution) (i : Installation)
            (urls : List Value),
            sys.tasks[t]? = some ⟨.resolve q, .finished (.ok (.resolution r)), ctx⟩ →
            r.found = some (i, urls) →
              Resolve.isListed q.target urls = true ∧ Obtained t past i.id r.token ∧
                (Undisturbed t past → ∀ url ∈ urls, ShownTo t past r.token url) := by
  have hr : ((initial Sample.appClient Sample.twoQueries).run Sample.besideMoves).isSome = true := by
    decide
  have hz : NonZero ((initial Sample.appClient Sample.twoQueries).traffic Sample.besideMoves) :=
    NonZero.of_all (by decide)
  obtain ⟨sys, hr⟩ := Option.isSome_iff_exists.1 hr
  exact ⟨Sample.queries, sys, hr, hz, pages_by_last_grant Sample.queries hr hz⟩

set_option maxRecDepth 4000 in
/-- The first query is shown the target by the token of the second, and finds the installation
that its own token is for. -/
theorem second_page_by_other_token :
    ∃ sys, (initial Sample.appClient Sample.twoQueries).run Sample.crossedMoves = some sys ∧
      sys.sent[6]? = some (0, pageRequest ⟨"https://api.github.com", .str "t2"⟩ 2) ∧
      ∃ r ctx, sys.tasks[0]? =
          some ⟨.resolve Sample.appQuery, .finished (.ok (.resolution r)), ctx⟩ ∧
        r.installationId = 1 ∧ r.token = .str "t1" :=
  ⟨_, rfl, rfl, _, _, rfl, rfl, rfl⟩

end System
end StatusRelay
