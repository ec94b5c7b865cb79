import Mathlib.Data.List.Forall2
import StatusRelay.Proofs.Installation.QueryRun

namespace StatusRelay

open Json (Value)

inductive Content where
  | installations (is : List Installation)
  | token (v : Value)
  | page (urls : List Value)

def Content.BroughtBy (reply : Reply) : Content → Prop
  | installations is => ∀ url, (Installation.Listing.mk url).read reply = .ok is
  | token v => reply.Grants v
  | page urls => ∀ req, RepositoryScan.batch req reply = .ok urls

structure Lone where
  client : Client
  next : Next Resolve Resolution
  sent : List Request

def Lone.Describes (q : ResolveQuery) (l : Lone) (sys : System) : Prop :=
  sys.client = l.client ∧ (∃ ctx, sys.tasks = [⟨.resolve q, Resolve.phase l.next, ctx⟩]) ∧
    sys.sent = l.sent.map (0, ·)

def Move.ofAnswer (a : Moment × Reply) : Move := ⟨0, a.1, .reply a.2⟩

namespace Resolve

variable {q : ResolveQuery} {client c c' : Client} {st : Resolve} {req : Request} {base : String}
  {sent : List Request} {l l' : Lone} {contents : List Content} {content : Content}

def Leads (q : ResolveQuery) (contents : List Content) (l l' : Lone) : Prop :=
  ∀ sys answers, l.Describes q sys →
    List.Forall₂ (fun (a : Moment × Reply) content ↦ content.BroughtBy a.2) answers contents →
    ∃ sys', sys.run (answers.map .ofAnswer) = some sys' ∧ l'.Describes q sys'

theorem Leads.refl (l : Lone) : Leads q [] l l := by
  intro sys answers hl ha
  cases ha
  exact ⟨sys, rfl, hl⟩

theorem Leads.trans {contents' : List Content} {l'' : Lone} (h : Leads q contents l l')
    (h' : Leads q contents' l' l'') : Leads q (contents ++ contents') l l'' := by
  intro sys answers hl ha
  obtain ⟨mid, hmid, hl'⟩ := h sys _ hl (List.forall₂_take_append answers contents contents' ha)
  obtain ⟨sys', hsys', hl''⟩ := h' mid _ hl' (List.forall₂_drop_append answers contents contents' ha)
  refine ⟨sys', ?_, hl''⟩
  rw [← List.take_append_drop contents.length answers, List.map_append, System.run,
    List.foldlM_append]
  exact Option.bind_eq_some_iff.2 ⟨mid, hmid, hsys'⟩

/-- One answer more, of which only the course is known that it leads to. -/
theorem Leads.step (ha : Asks q c st req)
    (h : ∀ reply c' next, content.BroughtBy reply → Course q c req reply st c' next →
      Leads q contents ⟨c', next, sent ++ (phase next).request?.toList⟩ l') :
    Leads q (content :: contents) ⟨c, .send req st, sent⟩ l' := by
  intro sys answers hl hanswers
  obtain ⟨⟨now, reply⟩, rest, hreply, hrest, rfl⟩ := List.forall₂_cons_right_iff.1 hanswers
  obtain ⟨hclient, ⟨ctx, htasks⟩, hsent⟩ := hl
  subst hclient
  have hfound : sys.tasks[(Move.ofAnswer (now, reply)).task]? =
      some ⟨.resolve q, .sending req (.resolving st), ctx⟩ := by
    rw [htasks]
    rfl
  obtain ⟨mid, hmid⟩ : ∃ mid, sys.step (.ofAnswer (now, reply)) = some mid :=
    ⟨_, by simp only [System.step, hfound]; rfl⟩
  obtain ⟨task, p, hc, hd⟩ := System.step_cases hmid
  obtain rfl := Option.some.inj (hfound.symm.trans hc.found)
  have hm := hd.query rfl (.asking ha)
  have hback : sys.incoming (.ofAnswer (now, reply)) = [.back 0 req reply] := by
    simp only [System.incoming, hfound]
    rfl
  rw [hback] at hm
  cases hm with
  | @answer _ _ _ c' next hcourse =>
    have hmidl : Lone.Describes q ⟨mid.client, next, sent ++ (phase next).request?.toList⟩ mid := by
      obtain ⟨ctx', hset⟩ := hc.tasks
      refine ⟨rfl, ⟨ctx', by rw [hset, htasks]; rfl⟩, ?_⟩
      rw [hc.sent, hsent, List.map_append]
      cases (phase next).request? <;> rfl
    obtain ⟨sys', hsys', hl'⟩ := h reply _ next hreply hcourse mid rest hmidl hrest
    exact ⟨sys', Option.bind_eq_some_iff.2 ⟨mid, hmid, hsys'⟩, hl'⟩

open RepositoryScan (pageRequest)

def mintable (is : List Installation) : List Installation := is.filter (·.id != 0)

def exchanges (q : ResolveQuery) (base : String) (is : List Installation) : List Request :=
  (mintable is).map fun i ↦ .bare "POST" (TokenExchange.url base i.id) (.str q.appToken)

def pages (i : Identity) (n : Nat) : List Request := (List.range' 1 n).map (pageRequest i)

/-- A client after exchanges at one base: it has the last token, if there is one. -/
def adopted (base : String) (c : Client) (ts : List Value) : Client :=
  ts.foldl (fun c t ↦ { c with identity := ⟨base, t⟩ }) c

theorem mintable_cons_of_zero {i : Installation} (hz : i.id = 0) (is : List Installation) :
    mintable (i :: is) = mintable is := by simp [mintable, hz]

theorem mintable_cons {i : Installation} (hz : i.id ≠ 0) (is : List Installation) :
    mintable (i :: is) = i :: mintable is := by simp [mintable, hz]

theorem exchanges_nil (q : ResolveQuery) (base : String) : exchanges q base [] = [] := rfl

theorem exchanges_cons_of_zero {i : Installation} (hz : i.id = 0) (q : ResolveQuery)
    (base : String) (is : List Installation) :
    exchanges q base (i :: is) = exchanges q base is := by
  rw [exchanges, mintable_cons_of_zero hz, exchanges]

theorem exchanges_cons {i : Installation} (hz : i.id ≠ 0) (q : ResolveQuery) (base : String)
    (is : List Installation) : exchanges q base (i :: is) =
      .bare "POST" (TokenExchange.url base i.id) (.str q.appToken) :: exchanges q base is := by
  rw [exchanges, mintable_cons hz, List.map_cons, exchanges]

theorem adopted_append (base : String) (c : Client) (ts ts' : List Value) :
    adopted base c (ts ++ ts') = adopted base (adopted base c ts) ts' := List.foldl_append

/-- The base of a query stays, whichever tokens are adopted at it. -/
theorem base_of_identity (c : Client) (host : String) (t : Value) :
    Installation.base { c with identity := ⟨Installation.base c host, t⟩ } host =
      Installation.base c host := by
  unfold Installation.base
  split <;> rfl

/-- After a list without the target, every exchange leads to the next, and the last token stays. -/
theorem leads_continues (ha : q.appToken ≠ "") (hb : Identity.isAbsolute base = true) {n : Nat}
    {urls : List Value} (hl : isListed q.target urls = false) (is : List Installation) :
    ∀ {c : Client} {token : Value} {ts : List Value} {next : Next Resolve Resolution}
      {sent : List Request}, Installation.base c q.host = base →
      Continues q c n token urls is next → ts.length = (mintable is).length →
      Leads q (ts.map .token) ⟨c, next, sent ++ (phase next).request?.toList⟩
        ⟨adopted base c ts, .done (.ok ⟨q.host, ts.getLastD token, none⟩),
          sent ++ exchanges q base is⟩ := by
  -- On the installations that are left. The base stays, the client changes with every token.
  induction is with
  | nil =>
    intro c token ts next sent hbase hc hts
    obtain rfl := List.length_eq_zero_iff.1 hts
    cases hc with
    | unmatched => exact .refl _
  | cons i is ih =>
    intro c token ts next sent hbase hc hts
    subst hbase
    have hrequest (id : Int) : TokenExchange.request c q.appToken q.host id = _ :=
      TokenExchange.request_eq ha hb id
    cases hc with
    | skip hz hc =>
      rw [mintable_cons_of_zero hz] at hts
      rw [exchanges_cons_of_zero hz]
      exact ih rfl hc hts
    | refuse hz hr =>
      rw [hrequest] at hr
      cases hr
    | exchange hz hr =>
      rw [mintable_cons hz] at hts
      obtain ⟨t, ts, rfl⟩ := List.exists_cons_of_length_eq_add_one hts
      rw [exchanges_cons hz, List.getLastD_cons]
      refine Leads.step (.later hl hz hr) ?_
      intro reply c' next hreply hcourse
      cases hcourse with
      | unminted hm =>
        rw [TokenExchange.minted_of_grants hreply] at hm
        cases hm
      | readopt _ hm hc =>
        rw [TokenExchange.minted_of_grants hreply] at hm
        obtain rfl := Except.ok.inj hm
        obtain rfl := Except.ok.inj ((hrequest i.id).symm.trans hr)
        rw [List.append_cons]
        exact ih (base_of_identity c q.host t) hc (Nat.succ.inj hts)

section

variable {n k : Nat} {token t : Value} {i : Installation} {rest : List Installation}
  {found urls short : List Value} {full : List (List Value)} {reply : Reply}
  {next : Next Resolve Resolution}

theorem Course.of_full (h : Course q c req reply
      (.scanning q ⟨n, token, none⟩ i rest ⟨k, found⟩) c' next)
    (ht : c.identity.token.truthy = true) (hu : RepositoryScan.batch req reply = .ok urls)
    (hs : Page.size ≤ urls.length) : c' = c ∧ next = .send (pageRequest c.identity (k + 1))
      (.scanning q ⟨n, token, none⟩ i rest ⟨k + 1, found ++ urls⟩) := by
  cases h with
  | unread hb =>
    rw [hu] at hb
    cases hb
  | matched hb hlt | onward hb hlt =>
    obtain rfl := Except.ok.inj (hu.symm.trans hb)
    exact absurd hs (Nat.not_le.2 hlt)
  | unsigned hb hs htoken =>
    rw [ht] at htoken
    cases htoken
  | page hb =>
    obtain rfl := Except.ok.inj (hu.symm.trans hb)
    exact ⟨rfl, rfl⟩

theorem Course.of_short (h : Course q c req reply
      (.scanning q ⟨n, token, none⟩ i rest ⟨k, found⟩) c' next)
    (hu : RepositoryScan.batch req reply = .ok urls) (hs : urls.length < Page.size) :
    c' = c ∧ if isListed q.target (found ++ urls) then
        next = .done (.ok ⟨q.host, token, some (i, found ++ urls)⟩)
      else Continues q c n token (found ++ urls) rest next := by
  cases h with
  | unread hb =>
    rw [hu] at hb
    cases hb
  | page hb hle | unsigned hb hle =>
    obtain rfl := Except.ok.inj (hu.symm.trans hb)
    exact absurd hs (Nat.not_lt.2 hle)
  | matched hb _ hl =>
    obtain rfl := Except.ok.inj (hu.symm.trans hb)
    exact ⟨rfl, by rw [if_pos hl]⟩
  | onward hb _ hl hc =>
    obtain rfl := Except.ok.inj (hu.symm.trans hb)
    exact ⟨rfl, by rwa [hl, if_neg Bool.false_ne_true]⟩

theorem Course.of_first {x : TokenExchange} (h : Course q c req reply
      (.exchanging q ⟨n, .str "", none⟩ i rest x) c' next) (hg : reply.Grants t) :
    c' = { c with identity := ⟨x.apiUrl, t⟩ } ∧
      next = .send (pageRequest ⟨x.apiUrl, t⟩ 1) (.scanning q ⟨n, t, none⟩ i rest ⟨1, []⟩) := by
  have hmint := TokenExchange.minted_of_grants hg x req
  cases h with
  | unminted hm =>
    rw [hmint] at hm
    cases hm
  | adopt hm =>
    obtain rfl := Except.ok.inj (hmint.symm.trans hm)
    exact ⟨rfl, rfl⟩

theorem leads_full (ht : c.identity.token.truthy = true) :
    ∀ {full : List (List Value)} {k : Nat} {found : List Value} {sent : List Request},
      (∀ urls ∈ full, Page.size ≤ urls.length) → Leads q (full.map .page)
        ⟨c, .send (pageRequest c.identity k) (.scanning q ⟨n, token, none⟩ i rest ⟨k, found⟩), sent⟩
        ⟨c, .send (pageRequest c.identity (k + full.length))
            (.scanning q ⟨n, token, none⟩ i rest ⟨k + full.length, found ++ full.flatten⟩),
          sent ++ (List.range' (k + 1) full.length).map (pageRequest c.identity)⟩ := by
  intro full
  -- On the pages that are left, from any page on.
  induction full with
  | nil =>
    intro k found sent _
    simp only [List.map_nil, List.length_nil, Nat.add_zero, List.flatten_nil, List.append_nil,
      List.range'_zero]
    exact .refl _
  | cons urls full ih =>
    intro k found sent hfull
    obtain ⟨hurls, hfull⟩ := List.forall_mem_cons.1 hfull
    have hlength : k + (urls :: full).length = k + 1 + full.length := by
      rw [List.length_cons]
      omega
    rw [hlength, List.length_cons, List.range'_succ, List.map_cons, List.map_cons, List.flatten_cons,
      ← List.append_assoc, List.append_cons]
    refine Leads.step (.page ht) ?_
    intro reply c' next hreply hcourse
    obtain ⟨rfl, rfl⟩ := hcourse.of_full ht (hreply _) hurls
    exact ih hfull

/-- The last page leads to the end, with an installation or past all that are left. -/
theorem leads_short (ha : q.appToken ≠ "") (hb : Identity.isAbsolute base = true)
    (hbase : Installation.base c q.host = base) (ht : c.identity.token.truthy = true)
    (hshort : short.length < Page.size) {ts : List Value}
    (hts : ts.length = if isListed q.target (found ++ short) then 0 else (mintable rest).length) :
    Leads q (.page short :: ts.map .token)
      ⟨c, .send (pageRequest c.identity k) (.scanning q ⟨n, token, none⟩ i rest ⟨k, found⟩), sent⟩
      ⟨adopted base c ts, .done (.ok ⟨q.host, ts.getLastD token,
          if isListed q.target (found ++ short) then some (i, found ++ short) else none⟩),
        sent ++ if isListed q.target (found ++ short) then [] else exchanges q base rest⟩ := by
  refine Leads.step (.page ht) ?_
  intro reply c' next hreply hcourse
  obtain ⟨rfl, hnext⟩ := hcourse.of_short (hreply _) hshort
  cases hl : isListed q.target (found ++ short) with
  | true =>
    rw [hl, if_pos rfl] at hnext hts
    subst hnext
    obtain rfl := List.length_eq_zero_iff.1 hts
    exact .refl _
  | false =>
    rw [hl, if_neg Bool.false_ne_true] at hnext hts
    exact leads_continues ha hb hl rest hbase hnext hts

/-- The first visit, from its exchange, if there is one, to the request for the first page. -/
theorem leads_first (ha : q.appToken ≠ "") (hb : Identity.isAbsolute base = true)
    (hbase : Installation.base c q.host = base) {ts : List Value}
    (hts : ts.length = (mintable [i]).length)
    (ht : i.id = 0 → c.identity.token.truthy = true) {contents : List Content}
    (h : (adopted base c ts).identity.token.truthy = true → Leads q contents
      ⟨adopted base c ts, .send (pageRequest (adopted base c ts).identity 1)
          (.scanning q ⟨n, ts.getLastD (.str ""), none⟩ i rest ⟨1, []⟩),
        sent ++ exchanges q base [i] ++ [pageRequest (adopted base c ts).identity 1]⟩ l')
    (hc : Begins q c n (i :: rest) next) :
    Leads q (ts.map .token ++ contents) ⟨c, next, sent ++ (phase next).request?.toList⟩ l' := by
  subst hbase
  cases hc with
  | refuse hz hr =>
    rw [TokenExchange.request_eq ha hb] at hr
    cases hr
  | unsigned hz htoken =>
    rw [ht hz] at htoken
    cases htoken
  | scan hz htoken =>
    rw [mintable_cons_of_zero hz] at hts
    obtain rfl := List.length_eq_zero_iff.1 hts
    rw [exchanges_cons_of_zero hz, exchanges_nil, List.append_nil] at h
    exact h htoken
  | exchange hz hr =>
    rw [mintable_cons hz] at hts
    obtain ⟨t, rfl⟩ := List.length_eq_one_iff.1 hts
    rw [exchanges_cons hz, exchanges_nil] at h
    refine Leads.step (.first hz hr) ?_
    intro reply c' next hreply hcourse
    obtain ⟨rfl, rfl⟩ := hcourse.of_first hreply
    obtain rfl := Except.ok.inj ((TokenExchange.request_eq ha hb i.id).symm.trans hr)
    exact h hreply.truthy

end

/-- Whether a query comes so far, alone with a client, by answers that bring these contents. -/
def Comes (q : ResolveQuery) (client : Client) (contents : List Content) (l : Lone) : Prop :=
  ∀ now answers,
    List.Forall₂ (fun (a : Moment × Reply) content ↦ content.BroughtBy a.2) answers contents →
    ∃ sys, (System.initial client [.resolve q]).run
        (⟨0, now, .start⟩ :: answers.map .ofAnswer) = some sys ∧ l.Describes q sys

theorem comes_of_listed {is : List Installation} (h : ∀ next, Begins q client is.length is next →
      Leads q contents ⟨client, next, [listingRequest q client] ++ (phase next).request?.toList⟩ l) :
    Comes q client (.installations is :: contents) l := by
  intro now answers hanswers
  have hleads : Leads q (.installations is :: contents)
      ⟨client, .send (listingRequest q client)
        (.listing q ⟨Installation.listingUrl client q.host⟩), [listingRequest q client]⟩ l := by
    refine Leads.step .listing ?_
    intro reply c' next hreply hcourse
    cases hcourse with
    | unlisted hr =>
      rw [hreply] at hr
      cases hr
    | listed hr hb =>
      rw [hreply] at hr
      obtain rfl := Except.ok.inj hr
      exact h _ hb
  obtain ⟨first, hfirst, hdescribes⟩ : ∃ sys,
      (System.initial client [.resolve q]).step ⟨0, now, .start⟩ = some sys ∧
        Lone.Describes q ⟨client, .send (listingRequest q client)
          (.listing q ⟨Installation.listingUrl client q.host⟩), [listingRequest q client]⟩ sys :=
    ⟨_, rfl, rfl, ⟨_, rfl⟩, rfl⟩
  obtain ⟨sys, hsys, hl⟩ := hleads first answers hdescribes hanswers
  refine ⟨sys, ?_, hl⟩
  rw [System.run, List.foldlM_cons, hfirst]
  exact hsys

theorem base_adopted {ts : List Value} : ∀ {c : Client}, Installation.base c q.host = base →
    Installation.base (adopted base c ts) q.host = base := by
  induction ts with
  | nil => exact id
  | cons t ts ih =>
    intro c hbase
    subst hbase
    exact ih (base_of_identity c q.host t)

theorem getLastD_append (ts ts' : List Value) (v : Value) :
    (ts ++ ts').getLastD v = ts'.getLastD (ts.getLastD v) := by
  rw [List.getLastD_eq_getLast?, List.getLast?_append, List.getLastD_eq_getLast?,
    List.getLastD_eq_getLast?]
  cases ts'.getLast? <;> rfl

/-- Up to the request for a page that follows full ones. -/
theorem comes_of_page {i : Installation} {rest : List Installation} {ts : List Value}
    {full : List (List Value)} (ha : q.appToken ≠ "") (hb : Identity.isAbsolute base = true)
    (hbase : Installation.base client q.host = base)
    (ht : i.id = 0 → client.identity.token.truthy = true)
    (hts : ts.length = (mintable [i]).length) (hfull : ∀ urls ∈ full, Page.size ≤ urls.length)
    (hc : adopted base client ts = c)
    (h : c.identity.token.truthy = true → Leads q contents
      ⟨c, .send (pageRequest c.identity (full.length + 1)) (.scanning q
          ⟨(i :: rest).length, ts.getLastD (.str ""), none⟩ i rest
          ⟨full.length + 1, full.flatten⟩),
        listingRequest q client :: exchanges q base [i] ++ pages c.identity (full.length + 1)⟩ l) :
    Comes q client (.installations (i :: rest) :: (ts.map .token ++ full.map .page) ++ contents)
      l := by
  subst hc
  rw [List.cons_append, List.append_assoc]
  refine comes_of_listed ?_
  intro next hbegins
  refine leads_first ha hb hbase hts ht ?_ hbegins
  intro htoken
  rw [pages, List.range'_succ, List.map_cons, List.append_cons, Nat.add_comm full.length 1] at h
  exact Leads.trans (leads_full htoken hfull) (h htoken)

/-- What a query comes to that is alone and answered well. Without installations it ends at once.
If the first has the number zero and the client no token, it fails before it asks for a page. If
not, it exchanges the first, unless its number is zero, and asks for page after page up to the
first short one; with the target among them it ends, and without it exchanges all the others. -/
theorem trace_alone (ha : q.appToken ≠ "")
    (hb : Identity.isAbsolute client.identity.apiUrl = true) :
    let base := Installation.base client q.host
    let listing := listingRequest q client
    Comes q client [.installations []]
        ⟨client, .done (.ok ⟨q.host, .str "", none⟩), [listing]⟩ ∧
      ∀ i rest,
        (i.id = 0 → client.identity.token.truthy = false →
          Comes q client [.installations (i :: rest)]
            ⟨client, .done (.error .noToken), [listing]⟩) ∧
        ((i.id = 0 → client.identity.token.truthy = true) →
          ∀ (ts : List Value) (full : List (List Value)), ts.length = (mintable [i]).length →
            (∀ urls ∈ full, Page.size ≤ urls.length) →
            let c := adopted base client ts
            let contents := .installations (i :: rest) :: (ts.map .token ++ full.map .page)
            let asked := listing :: exchanges q base [i] ++ pages c.identity (full.length + 1)
            (∃ st, Comes q client contents
              ⟨c, .send (pageRequest c.identity (full.length + 1)) st, asked⟩) ∧
            ∀ (short ts' : List Value), short.length < Page.size →
              let found := full.flatten ++ short
              let listed := isListed q.target found
              ts'.length = (if listed then 0 else (mintable rest).length) →
              Comes q client (contents ++ .page short :: ts'.map .token)
                ⟨adopted base client (ts ++ ts'), .done (.ok ⟨q.host,
                    (ts ++ ts').getLastD (.str ""), if listed then some (i, found) else none⟩),
                  asked ++ if listed then [] else exchanges q base rest⟩) := by
  intro base listing
  have hbase : Identity.isAbsolute base = true := Installation.isAbsolute_base hb q.host
  refine ⟨?_, ?_⟩
  · refine comes_of_listed ?_
    intro next hc
    cases hc with
    | empty => exact .refl _
  · intro i rest
    refine ⟨?_, ?_⟩
    · intro hz ht
      refine comes_of_listed ?_
      intro next hc
      cases hc with
      | exchange hne | refuse hne => exact absurd hz hne
      | scan _ htoken =>
        rw [ht] at htoken
        cases htoken
      | unsigned => exact .refl _
    · intro ht ts full hts hfull c contents asked
      refine ⟨⟨.scanning q ⟨(i :: rest).length, ts.getLastD (.str ""), none⟩ i rest
        ⟨full.length + 1, full.flatten⟩, ?_⟩, ?_⟩
      · rw [← List.append_nil contents]
        exact comes_of_page ha hbase rfl ht hts hfull rfl fun _ ↦ .refl _
      · intro short ts' hshort found listed hts'
        refine comes_of_page ha hbase rfl ht hts hfull rfl ?_
        intro htoken
        rw [getLastD_append, adopted_append]
        exact leads_short ha hbase (base_adopted rfl) htoken hshort hts'

/-- The second number is zero, and the last token is that of the third installation. -/
theorem trace_alone_unmatched : Sample.appQuery.appToken ≠ "" ∧
    Identity.isAbsolute Sample.appClient.identity.apiUrl = true ∧
    ∃ sys, (System.initial Sample.appClient [.resolve Sample.appQuery]).run
        [Sample.start 0, Sample.answer 0 (Sample.listing [1, 0, 2]),
          Sample.answer 0 (Sample.grant "t1"), Sample.answer 0 (Sample.page ["elsewhere"]),
          Sample.answer 0 (Sample.grant "t2")] = some sys ∧
      Lone.Describes Sample.appQuery
        ⟨⟨⟨"https://api.github.com", .str "t2"⟩, none⟩, .done (.ok ⟨"", .str "t2", none⟩),
          [.bare "GET" "https://api.github.com/app/installations" (.str "app.jwt"),
            .bare "POST" "https://api.github.com/app/installations/1/access_tokens"
              (.str "app.jwt"),
            pageRequest ⟨"https://api.github.com", .str "t1"⟩ 1,
            .bare "POST" "https://api.github.com/app/installations/2/access_tokens"
              (.str "app.jwt")]⟩ sys := by
  have ha : Sample.appQuery.appToken ≠ "" := by decide
  have hb : Identity.isAbsolute Sample.appClient.identity.apiUrl = true := by decide
  obtain ⟨-, htrace⟩ := trace_alone ha hb
  obtain ⟨-, hfirst⟩ := htrace ⟨1, ""⟩ [⟨0, ""⟩, ⟨2, ""⟩]
  obtain ⟨-, hlast⟩ := hfirst (by decide) [.str "t1"] [] rfl (by simp)
  have hcomes := hlast [.str "elsewhere"] [.str "t2"] (by decide) rfl
  refine ⟨ha, hb, hcomes Sample.morning [(Sample.morning, _), (Sample.morning, _),
    (Sample.morning, _), (Sample.morning, _)] ?_⟩
  exact .cons (fun _ ↦ rfl) (.cons ⟨200, _, rfl, by decide, rfl, rfl⟩ (.cons (fun _ ↦ rfl)
    (.cons ⟨200, _, rfl, by decide, rfl, rfl⟩ .nil)))

/-- No page is asked for, because there is no token to ask with. -/
theorem zero_without_token :
    ∃ sys, (System.initial Sample.appClient [.resolve Sample.appQuery]).run
        [Sample.start 0, Sample.answer 0 (Sample.listing [0])] = some sys ∧
      sys.sent = [(0, listingRequest Sample.appQuery Sample.appClient)] ∧
      ∃ ctx, sys.tasks[0]? = some ⟨.resolve Sample.appQuery, .finished (.error .noToken), ctx⟩ :=
  ⟨_, rfl, rfl, _, rfl⟩

end Resolve
end StatusRelay
