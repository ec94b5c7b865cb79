import StatusRelay.Proofs.Installation.QueryRun

namespace StatusRelay

open Json (Value)

namespace Enterprise

def Hosts (host : String) (req : Request) : Prop := ∃ rest, req.url = apiUrl host ++ "/" ++ rest

theorem Hosts.isPrefix {host : String} {req : Request} (h : Hosts host req) :
    (apiUrl host).toList <+: req.url.toList := by
  obtain ⟨rest, hu⟩ := h
  rw [hu, String.append_assoc, String.toList_append]
  exact List.prefix_append _ _

theorem base_eq {host : String} (h : host ≠ "") (c : Client) :
    Installation.base c host = apiUrl host := by
  have hs : (host == "") = false := by simpa using h
  simp only [Installation.base, hs, Bool.false_eq_true, if_false]

theorem hosts_listing {host : String} (h : host ≠ "") (c : Client) (credential : Value) :
    Hosts host (.bare "GET" (Installation.listingUrl c host) credential) := by
  have hp : Installation.path = "/" ++ "app/installations" := by decide
  refine ⟨"app/installations", ?_⟩
  simp only [Request.bare, Installation.listingUrl, base_eq h, hp, String.append_assoc]

theorem hosts_exchange {host : String} (h : host ≠ "") {c : Client} {appToken : String} {id : Int}
    {req : Request} (hr : TokenExchange.request c appToken host id = .ok req) :
    Hosts host req := by
  have hp : Installation.path = "/" ++ "app/installations" := by decide
  obtain ⟨bearer, -, rfl⟩ := Client.request_eq_ok hr
  have ha := TokenExchange.isAbsolute_url (Identity.isAbsolute_enterprise host) id
  refine ⟨"app/installations" ++ ("/" ++ (toString id ++ "/access_tokens")), ?_⟩
  rw [base_eq h, Identity.url_of_isAbsolute ha]
  simp only [TokenExchange.url, hp, String.append_assoc]

theorem hosts_page {host : String} {i : Identity} (h : i.apiUrl = apiUrl host) (n : Nat) :
    Hosts host (RepositoryScan.pageRequest i n) := by
  have hp : RepositoryScan.path = "/" ++ "installation/repositories" := by decide
  refine ⟨"installation/repositories", ?_⟩
  simp only [RepositoryScan.pageRequest, h, hp, String.append_assoc]

end Enterprise

open Enterprise (Hosts)

namespace Resolve

variable {q : ResolveQuery} {client c c' : Client} {past back : List Packet} {t : TaskId}
  {p p' : Phase} {req : Request}

def ZeroFirst (q : ResolveQuery) (client : Client) (past : List Packet) : Prop :=
  ∃ t reply i rest, .back t (listingRequest q client) reply ∈ past ∧
    (Installation.Listing.mk (Installation.listingUrl client q.host)).read reply =
      .ok (i :: rest) ∧ i.id = 0

theorem ZeroFirst.mono {past' : List Packet} (h : ZeroFirst q client past) (hp : past ⊆ past') :
    ZeroFirst q client past' := by
  obtain ⟨t, reply, i, rest, hb, hr⟩ := h
  exact ⟨t, reply, i, rest, hp hb, hr⟩

/-- Where a request of a query may go: to the host, or where the client was before if the number zero
came first. -/
def InBounds (q : ResolveQuery) (client : Client) (past : List Packet) (req : Request) : Prop :=
  Hosts q.host req ∨
    ZeroFirst q client past ∧ ∃ n, req = RepositoryScan.pageRequest client.identity n

theorem InBounds.mono {past' : List Packet} (h : InBounds q client past req)
    (hp : past ⊆ past') : InBounds q client past' req := h.imp_right (.imp_left (·.mono hp))

/-- Where a client may be when a query lists repositories: at the host, or where it was before if
the number zero came first. -/
def Homed (q : ResolveQuery) (client : Client) (past : List Packet) (i : Identity) : Prop :=
  i.apiUrl = Enterprise.apiUrl q.host ∨ ZeroFirst q client past ∧ i = client.identity

theorem Homed.mono {past' : List Packet} {i : Identity} (h : Homed q client past i)
    (hp : past ⊆ past') : Homed q client past' i := h.imp_right (.imp_left (·.mono hp))

/-- What is known of the client in each phase of a query that is alone with it. -/
inductive Stage (q : ResolveQuery) (client : Client) (past : List Packet) (c : Client) :
    Phase → Prop
  | ready (hc : c = client) : Stage q client past c .ready
  | listing (hc : c = client) : Stage q client past c (.sending (listingRequest q client)
      (.resolving (.listing q ⟨Installation.listingUrl client q.host⟩)))
  | exchanging {w : Walk} {i : Installation} {rest : List Installation} {x : TokenExchange}
      {req : Request} (ha : Asks q c (.exchanging q w i rest x) req) :
      Stage q client past c (.sending req (.resolving (.exchanging q w i rest x)))
  | scanning {w : Walk} {i : Installation} {rest : List Installation} {scan : RepositoryScan}
      {n : Nat} (hh : Homed q client past c.identity) :
      Stage q client past c (.sending (RepositoryScan.pageRequest c.identity n)
        (.resolving (.scanning q w i rest scan)))
  | finished {r : Except Failure Outcome} : Stage q client past c (.finished r)

theorem Stage.mono {past' : List Packet} (h : Stage q client past c p) (hp : past ⊆ past') :
    Stage q client past' c p := by
  cases h with
  | scanning hh => exact .scanning (hh.mono hp)
  | ready hc => exact .ready hc
  | listing hc => exact .listing hc
  | exchanging ha => exact .exchanging ha
  | finished => exact .finished

theorem Stage.inBounds (hh : q.host ≠ "") (h : Stage q client past c p)
    (hr : p.request? = some req) : InBounds q client past req := by
  cases h with
  | ready | finished => cases hr
  | listing =>
    obtain rfl := Option.some.inj hr
    exact .inl (Enterprise.hosts_listing hh client _)
  | exchanging ha =>
    obtain rfl := Option.some.inj hr
    exact .inl (Enterprise.hosts_exchange hh ha.of_exchanging.2)
  | scanning hhome =>
    obtain rfl := Option.some.inj hr
    exact hhome.imp (Enterprise.hosts_page · _) fun ⟨hz, hi⟩ ↦ ⟨hz, _, by rw [hi]⟩

theorem Continues.stage {n : Nat} {token : Value} {urls : List Value} {is : List Installation}
    {next : Next Resolve Resolution} (hl : isListed q.target urls = false)
    (h : Continues q c n token urls is next) : Stage q client past c (phase next) := by
  induction h with
  | unmatched | refuse => exact .finished
  | skip hz h ih => exact ih
  | exchange hz hr => exact .exchanging (.later hl hz hr)

theorem Stage.step (hh : q.host ≠ "") (h : Stage q client past c p)
    (hm : Moves q t c p back c' p') : Stage q client (past ++ back) c' p' := by
  cases hm with
  | cancel => exact .finished
  | start =>
    cases h with
    | ready hc =>
      subst hc
      exact .listing rfl
  | @answer st req reply c' next hcourse =>
    cases hcourse with
    | unlisted | unminted | unread | unsigned | matched => exact .finished
    | @listed l is next hr hb =>
      cases h with
      | listing hc =>
        subst hc
        cases hb with
        | empty | refuse | unsigned => exact .finished
        | exchange hz hx => exact .exchanging (.first hz hx)
        | scan hz ht =>
          exact .scanning (.inr ⟨⟨t, reply, _, _, List.mem_append_right _
            (List.mem_singleton_self _), hr, hz⟩, rfl⟩)
    | adopt hm =>
      -- The exchange has brought the client to the host before the first page.
      cases h with
      | exchanging ha =>
        obtain ⟨rfl, -⟩ := ha.of_exchanging
        exact .scanning (c := { c with identity := _ }) (.inl (Enterprise.base_eq hh c))
    | readopt hl hm hc => exact hc.stage hl
    | page hb hs ht =>
      cases h with
      | scanning hhome =>
        exact .scanning (hhome.mono (List.subset_append_left _ _))
    | onward hb hs hl hc => exact hc.stage hl

end Resolve

open Resolve (InBounds Stage ZeroFirst)

namespace Sample

def hostedMoves : List Move :=
  [start 0, answer 0 (listing [1]), answer 0 (grant "t1"), answer 0 (page [target])]

end Sample

namespace System

variable {q : ResolveQuery} {client : Client} {past : List Packet} {sys sys' : System} {m : Move}

structure Stays (q : ResolveQuery) (client : Client) (past : List Packet) (sys : System) :
    Prop where
  tasks : ∀ (t : TaskId) (task : Task), sys.tasks[t]? = some task →
    t = 0 ∧ task.op = .resolve q ∧ Resolve.Placed q task.phase ∧
      Stage q client past sys.client task.phase
  sent : ∀ x ∈ sys.sent, InBounds q client past x.2

theorem stays_initial : Stays q client [] (initial client [.resolve q]) where
  tasks t task ht := by
    obtain ⟨op, hop, rfl⟩ := initial_tasks ht
    obtain ⟨rfl, rfl⟩ : t = 0 ∧ Operation.resolve q = op := by
      cases t with
      | zero => exact ⟨rfl, Option.some.inj hop⟩
      | succ t => simp at hop
    exact ⟨rfl, rfl, .ready, .ready rfl⟩
  sent x hx := by cases hx

theorem Stays.step (hh : q.host ≠ "") (h : Stays q client past sys)
    (hs : sys.step m = some sys') :
    Stays q client (past ++ (sys.incoming m ++ sys.outgoing sys')) sys' := by
  obtain ⟨task, p, hc, hd⟩ := step_cases hs
  obtain ⟨hzero, ho, hplaced, hstage⟩ := h.tasks _ _ hc.found
  have hm := hd.query ho hplaced
  have hnext := hstage.step hh hm
  have hsub := incoming_subset past sys sys' m
  refine ⟨?_, ?_⟩
  · refine hc.forall_tasks h.tasks ?_ ?_
    · intro ctx
      exact ⟨hzero, ho, hm.placed, hnext.mono hsub⟩
    · intro t task' hne ht
      exact absurd (ht.1.trans hzero.symm) hne
  · intro x hx
    rw [hc.sent, List.mem_append] at hx
    obtain hx | hx := hx
    · exact (h.sent x hx).mono (List.subset_append_left _ _)
    · cases hp : p.request? with
      | none =>
        rw [hp] at hx
        cases hx
      | some req =>
        rw [hp] at hx
        obtain rfl := List.mem_singleton.1 hx
        exact (hnext.inBounds hh hp).mono hsub

/-- All requests of a query that is alone go to the host it names, but for one case: if the number
zero comes first in the listing, the repositories are asked for where the client was before, by the
token that it had. -/
theorem resolve_stays_on_host (hh : q.host ≠ "") {moves : List Move}
    (hr : (initial client [.resolve q]).run moves = some sys) :
    ∀ x ∈ sys.sent, Hosts q.host x.2 ∨
      ZeroFirst q client ((initial client [.resolve q]).traffic moves) ∧
        ∃ n, x.2 = RepositoryScan.pageRequest client.identity n :=
  (traffic_induction (P := Stays q client) stays_initial (Stays.step hh) hr).sent

theorem resolve_stays_on_host_matched : Sample.hostedQuery.host ≠ "" ∧
    ∃ sys, (initial Sample.appClient [.resolve Sample.hostedQuery]).run Sample.hostedMoves =
        some sys ∧
      ∀ x ∈ sys.sent, Hosts Sample.hostedQuery.host x.2 ∨
        ZeroFirst Sample.hostedQuery Sample.appClient
            ((initial Sample.appClient [.resolve Sample.hostedQuery]).traffic
              Sample.hostedMoves) ∧
          ∃ n, x.2 = RepositoryScan.pageRequest Sample.appClient.identity n := by
  have hh : Sample.hostedQuery.host ≠ "" := by decide
  have hr : ((initial Sample.appClient [.resolve Sample.hostedQuery]).run
    Sample.hostedMoves).isSome = true := by decide
  obtain ⟨sys, hr⟩ := Option.isSome_iff_exists.1 hr
  exact ⟨hh, sys, hr, resolve_stays_on_host hh hr⟩

/-- The client's token goes to its own base, although the query names another host. -/
theorem zero_leaves_host : Sample.hostedQuery.host ≠ "" ∧
    ∃ sys, (initial (.create "https://api.github.com" (.str "ghs_previous"))
        [.resolve Sample.hostedQuery]).run
          [Sample.start 0, Sample.answer 0 (Sample.listing [0])] = some sys ∧
      ∃ x ∈ sys.sent, x.2.url = "https://api.github.com/installation/repositories" ∧
        x.2.authorization = "Bearer ghs_previous" ∧ ¬ Hosts Sample.hostedQuery.host x.2 := by
  refine ⟨by decide, _, rfl, _, List.mem_cons_of_mem _ (List.mem_singleton_self _), by decide,
    by decide, ?_⟩
  intro h
  exact absurd h.isPrefix (by decide)

end System
end StatusRelay
