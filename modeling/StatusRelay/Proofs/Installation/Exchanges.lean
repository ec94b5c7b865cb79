import Mathlib.Data.List.DropRight
import StatusRelay.Proofs.Installation.EnterpriseHost
import StatusRelay.Proofs.Installation.QueryTrace

namespace StatusRelay

open Json (Value)

theorem Client.getLast?_normalBase (url : String) :
    (normalBase url).toList.getLast? ≠ some '/' := by
  have hd : (normalBase url).toList = url.toList.rdropWhile (· == '/') := String.toList_ofList
  rw [hd]
  intro h
  obtain ⟨front, hfront⟩ := List.getLast?_eq_some_iff.1 h
  have hne : url.toList.rdropWhile (· == '/') ≠ [] := by simp [hfront]
  have hlast := List.rdropWhile_last_not (· == '/') url.toList hne
  simp [hfront] at hlast

namespace Identity

/-- The two slashes of a scheme do not come from where a base and a path meet. -/
theorem prefix_of_prefix_append {scheme base rest : List Char} (hs : '/' ∉ scheme)
    (hb : base.getLast? ≠ some '/') (hr : rest.head? ≠ some '/')
    (h : scheme ++ ['/', '/'] <+: base ++ '/' :: rest) : scheme ++ ['/', '/'] <+: base := by
  induction scheme generalizing base with
  | nil =>
    match base with
    | [] =>
      obtain ⟨-, hslash⟩ := List.cons_prefix_cons.1 h
      obtain ⟨tail, rfl⟩ := hslash
      exact absurd rfl hr
    | [c] =>
      obtain ⟨rfl, -⟩ := List.cons_prefix_cons.1 h
      exact absurd rfl hb
    | c :: d :: base =>
      obtain ⟨rfl, hrest⟩ := List.cons_prefix_cons.1 h
      obtain ⟨rfl, -⟩ := List.cons_prefix_cons.1 hrest
      exact List.prefix_append ['/', '/'] base
  | cons s scheme ih =>
    rw [List.mem_cons, not_or] at hs
    cases base with
    | nil =>
      obtain ⟨rfl, -⟩ := List.cons_prefix_cons.1 h
      exact absurd rfl hs.1
    | cons c base =>
      obtain ⟨rfl, htail⟩ := List.cons_prefix_cons.1 h
      refine List.cons_prefix_cons.2 ⟨rfl, ih hs.2 ?_ htail⟩
      intro hlast
      rw [List.getLast?_cons, hlast] at hb
      exact hb rfl

theorem isAbsolute_append_slash {base rest : String} (hb : base.toList.getLast? ≠ some '/')
    (hr : rest.toList.head? ≠ some '/') :
    isAbsolute (base ++ ("/" ++ rest)) = isAbsolute base := by
  refine Bool.eq_iff_iff.2 ⟨?_, fun h ↦ isAbsolute_append h _⟩
  have hlist : (base ++ ("/" ++ rest)).toList = base.toList ++ '/' :: rest.toList := by
    rw [String.toList_append, String.toList_append]
    rfl
  simp only [isAbsolute, Bool.or_eq_true, List.isPrefixOf_iff_prefix, hlist]
  have hplain : '/' ∉ "http:".toList := by decide
  have hsecure : '/' ∉ "https:".toList := by decide
  exact Or.imp (prefix_of_prefix_append hplain hb hr) (prefix_of_prefix_append hsecure hb hr)

end Identity

namespace Resolve

def exchangeUrl (c : Client) (host : String) (id : Int) : String :=
  c.identity.url (TokenExchange.url (Installation.base c host) id)

def lead (c : Client) (host : String) : String :=
  if host = "" ∧ Identity.isAbsolute c.identity.apiUrl = false then c.identity.apiUrl else ""

def exchangeUrls (c : Client) (host : String) (is : List Installation) : List String :=
  (mintable is).map (exchangeUrl c host ·.id)

def posted (sent : List Request) : List String :=
  (sent.filter (·.method == "POST")).map (·.url)

def Listed (q : ResolveQuery) (client : Client) (past : List Packet) (is : List Installation) :
    Prop :=
  ∃ reply, .back 0 (listingRequest q client) reply ∈ past ∧
    (Installation.Listing.mk (listingRequest q client).url).read reply = .ok is

variable {q : ResolveQuery} {client c c' : Client} {past back : List Packet} {p p' : Phase}
  {done : List String} {host : String} {is rest : List Installation} {next : Next Resolve Resolution}

theorem exchangeUrls_cons_of_zero {i : Installation} (hz : i.id = 0) (c : Client) (host : String)
    (is : List Installation) : exchangeUrls c host (i :: is) = exchangeUrls c host is := by
  rw [exchangeUrls, mintable_cons_of_zero hz, exchangeUrls]

theorem exchangeUrls_cons {i : Installation} (hz : i.id ≠ 0) (c : Client) (host : String)
    (is : List Installation) :
    exchangeUrls c host (i :: is) = exchangeUrl c host i.id :: exchangeUrls c host is := by
  rw [exchangeUrls, mintable_cons hz, List.map_cons, exchangeUrls]

theorem exchangeUrl_of_host (hh : host ≠ "") (c : Client) :
    exchangeUrl c host = TokenExchange.url (Enterprise.apiUrl host) := by
  funext id
  have ha := TokenExchange.isAbsolute_url (Identity.isAbsolute_enterprise host) id
  rw [exchangeUrl, Enterprise.base_eq hh, Identity.url_of_isAbsolute ha]

/-- The token of an exchange moves the client to where the next exchange goes as well. -/
theorem exchangeUrl_adopted (c : Client) (host : String) (token : Value) :
    exchangeUrl { c with identity := ⟨Installation.base c host, token⟩ } host =
      exchangeUrl c host := by
  by_cases hh : host = ""
  · subst hh
    rfl
  · rw [exchangeUrl_of_host hh, exchangeUrl_of_host hh]

theorem isAbsolute_exchange {base : String} (hb : base.toList.getLast? ≠ some '/') (id : Int) :
    Identity.isAbsolute (TokenExchange.url base id) = Identity.isAbsolute base := by
  have hp : Installation.path = "/" ++ "app/installations" := by decide
  have hr : ("app/installations" ++ ("/" ++ (toString id ++ "/access_tokens"))).toList.head? ≠
      some '/' := by
    have ha : "app/installations".toList.head? = some 'a' := by decide
    rw [String.toList_append, List.head?_append, ha, Option.some_or]
    decide
  have hurl : TokenExchange.url base id = base ++ ("/" ++
      ("app/installations" ++ ("/" ++ (toString id ++ "/access_tokens")))) := by
    simp only [TokenExchange.url, hp, String.append_assoc]
  rw [hurl]
  exact Identity.isAbsolute_append_slash hb hr

theorem exchangeUrl_eq (hb : client.identity.apiUrl.toList.getLast? ≠ some '/')
    (q : ResolveQuery) (id : Int) : exchangeUrl client q.host id = lead client q.host ++
      ((listingRequest q client).url ++ "/" ++ toString id ++ "/access_tokens") := by
  have hrest : (listingRequest q client).url ++ "/" ++ toString id ++ "/access_tokens" =
      TokenExchange.url (Installation.base client q.host) id := rfl
  rw [hrest, lead]
  by_cases hh : q.host = ""
  · have hbase : Installation.base client "" = client.identity.apiUrl := rfl
    rw [hh, exchangeUrl, hbase, Identity.url, isAbsolute_exchange hb]
    cases Identity.isAbsolute client.identity.apiUrl <;> simp
  · rw [exchangeUrl_of_host hh, Enterprise.base_eq hh, if_neg fun h ↦ hh h.1, String.empty_append]

theorem posted_append (sent sent' : List Request) :
    posted (sent ++ sent') = posted sent ++ posted sent' := by
  rw [posted, List.filter_append, List.map_append, posted, posted]

theorem posted_exchange {appToken host : String} {id : Int} {req : Request}
    (h : TokenExchange.request c appToken host id = .ok req) :
    posted [req] = [exchangeUrl c host id] := by
  obtain ⟨bearer, -, rfl⟩ := Client.request_eq_ok h
  rfl

theorem Listed.mono {past' : List Packet} (h : Listed q client past is) (hp : past ⊆ past') :
    Listed q client past' is := by
  obtain ⟨reply, hb, hr⟩ := h
  exact ⟨reply, hp hb, hr⟩

def Exchanged (q : ResolveQuery) (client : Client) (past : List Packet) (done : List String)
    (rest : List Installation) : Prop :=
  ∃ is, Listed q client past is ∧
    done ++ exchangeUrls client q.host rest = exchangeUrls client q.host is

inductive Tour (q : ResolveQuery) (client : Client) (past : List Packet) (c : Client) :
    List String → Phase → Prop
  | ready (hc : c = client) : Tour q client past c [] .ready
  | listing (hc : c = client) : Tour q client past c [] (.sending (listingRequest q client)
      (.resolving (.listing q ⟨(listingRequest q client).url⟩)))
  | exchanging {done : List String} {w : Walk} {i : Installation} {rest : List Installation}
      {x : TokenExchange} {req : Request} (hx : x.apiUrl = Installation.base c q.host)
      (hu : exchangeUrl c q.host = exchangeUrl client q.host)
      (he : Exchanged q client past done rest) :
      Tour q client past c done (.sending req (.resolving (.exchanging q w i rest x)))
  | scanning {done : List String} {w : Walk} {i : Installation} {rest : List Installation}
      {scan : RepositoryScan} {req : Request}
      (hu : exchangeUrl c q.host = exchangeUrl client q.host)
      (he : Exchanged q client past done rest) :
      Tour q client past c done (.sending req (.resolving (.scanning q w i rest scan)))
  | finished {done : List String} {r : Except Failure Outcome}
      (h : done = [] ∨ ∃ rest, Exchanged q client past done rest)
      (hall : ∀ res, r = .ok (.resolution res) → res.found = none →
        Exchanged q client past done []) : Tour q client past c done (.finished r)

theorem Exchanged.mono {past' : List Packet} (h : Exchanged q client past done rest)
    (hp : past ⊆ past') : Exchanged q client past' done rest := by
  obtain ⟨is, hl, hd⟩ := h
  exact ⟨is, hl.mono hp, hd⟩

theorem Exchanged.skip {i : Installation} (h : Exchanged q client past done (i :: rest))
    (hz : i.id = 0) : Exchanged q client past done rest := by
  obtain ⟨is, hl, hd⟩ := h
  rw [exchangeUrls_cons_of_zero hz] at hd
  exact ⟨is, hl, hd⟩

theorem Exchanged.made {i : Installation} {req : Request}
    (h : Exchanged q client past done (i :: rest)) (hz : i.id ≠ 0)
    (hu : exchangeUrl c q.host = exchangeUrl client q.host)
    (hr : TokenExchange.request c q.appToken q.host i.id = .ok req) :
    Exchanged q client past (done ++ posted [req]) rest := by
  obtain ⟨is, hl, hd⟩ := h
  rw [exchangeUrls_cons hz] at hd
  rw [posted_exchange hr, hu]
  exact ⟨is, hl, by rw [List.append_assoc]; exact hd⟩

theorem Exchanged.page (h : Exchanged q client past done rest) (i : Identity) (n : Nat) :
    Exchanged q client past (done ++ posted [RepositoryScan.pageRequest i n]) rest := by
  have hnone : posted [RepositoryScan.pageRequest i n] = [] := rfl
  rwa [hnone, List.append_nil]

theorem Tour.mono {past' : List Packet} (h : Tour q client past c done p) (hp : past ⊆ past') :
    Tour q client past' c done p := by
  cases h with
  | ready hc => exact .ready hc
  | listing hc => exact .listing hc
  | exchanging hx hu he => exact .exchanging hx hu (he.mono hp)
  | scanning hu he => exact .scanning hu (he.mono hp)
  | finished h hall =>
    refine .finished (h.imp_right fun ⟨rest, he⟩ ↦ ⟨rest, he.mono hp⟩) ?_
    intro res hr hn
    exact (hall res hr hn).mono hp

theorem Tour.exchanged (h : Tour q client past c done p) :
    done = [] ∨ ∃ rest, Exchanged q client past done rest := by
  cases h with
  | ready | listing => exact .inl rfl
  | exchanging _ _ he | scanning _ he => exact .inr ⟨_, he⟩
  | finished h => exact h

theorem Tour.exchanged_all {res : Resolution}
    (h : Tour q client past c done (.finished (.ok (.resolution res)))) (hn : res.found = none) :
    Exchanged q client past done [] := by
  cases h with
  | finished _ hall => exact hall res rfl hn

theorem Tour.fail (h : done = [] ∨ ∃ rest, Exchanged q client past done rest) (f : Failure) :
    Tour q client past c (done ++ posted (phase (.done (.error f))).request?.toList)
      (phase (.done (.error f))) := by
  have hnone : posted (phase (.done (.error f))).request?.toList = [] := rfl
  rw [hnone, List.append_nil]
  exact .finished h fun res hr ↦ by cases hr

theorem Tour.succeed (he : Exchanged q client past done rest) {res : Resolution}
    (hall : res.found = none → rest = []) :
    Tour q client past c (done ++ posted (phase (.done (.ok res))).request?.toList)
      (phase (.done (.ok res))) := by
  have hnone : posted (phase (.done (.ok res))).request?.toList = [] := rfl
  rw [hnone, List.append_nil]
  refine .finished (.inr ⟨rest, he⟩) ?_
  intro res' hr hn
  cases hr
  exact hall hn ▸ he

theorem Begins.tour {n : Nat} (h : Begins q client n is next) (hl : Listed q client past is) :
    Tour q client past client (posted (phase next).request?.toList) (phase next) := by
  have he : Exchanged q client past [] is := ⟨is, hl, rfl⟩
  cases h with
  | empty => exact .succeed he fun _ ↦ rfl
  | refuse | unsigned => exact .fail (.inl rfl) _
  | exchange hz hr => exact .exchanging rfl rfl (he.made hz rfl hr)
  | scan hz => exact .scanning rfl (he.skip hz)

theorem Continues.tour {n : Nat} {token : Value} {urls : List Value}
    (h : Continues q c n token urls rest next)
    (hu : exchangeUrl c q.host = exchangeUrl client q.host)
    (he : Exchanged q client past done rest) :
    Tour q client past c (done ++ posted (phase next).request?.toList) (phase next) := by
  -- On the installations that are left. The number zero is passed over without a request.
  induction h with
  | unmatched => exact .succeed he fun _ ↦ rfl
  | refuse => exact .fail (.inr ⟨_, he⟩) _
  | skip hz h ih => exact ih (he.skip hz)
  | exchange hz hr => exact .exchanging rfl hu (he.made hz hu hr)

theorem Tour.step (h : Tour q client past c done p) (hm : Moves q 0 c p back c' p') :
    Tour q client (past ++ back) c' (done ++ posted p'.request?.toList) p' := by
  have hkept := h.mono (List.subset_append_left past back)
  cases hm with
  | cancel => exact .fail hkept.exchanged .cancelled
  | start =>
    cases h with
    | ready hc =>
      subst hc
      exact .listing rfl
  | @answer st req reply c' next hcourse =>
    cases hcourse with
    | unlisted | unminted | unread | unsigned => exact .fail hkept.exchanged _
    | matched =>
      cases hkept with
      | scanning hu he => exact .succeed he fun hn ↦ by cases hn
    | listed hr hb =>
      cases h with
      | listing hc =>
        subst hc
        exact hb.tour ⟨reply, List.mem_append_right past (List.mem_singleton_self _), hr⟩
    | adopt =>
      -- The client goes to the base that the exchange was made at, so the next one goes there too.
      cases hkept with
      | exchanging hx hu he =>
        refine .scanning ?_ (he.page _ 1)
        rw [hx, exchangeUrl_adopted, hu]
    | readopt _ _ hc =>
      cases hkept with
      | exchanging hx hu he =>
        refine hc.tour ?_ he
        rw [hx, exchangeUrl_adopted, hu]
    | page =>
      cases hkept with
      | scanning hu he => exact .scanning hu (he.page _ _)
    | onward _ _ _ hc =>
      cases hkept with
      | scanning hu he => exact hc.tour hu he

end Resolve

namespace System

open Resolve (Listed Tour exchangeUrls lead listingRequest mintable posted)

variable {q : ResolveQuery} {client : Client} {sys : System} {moves : List Move}

/-- The exchanges of a query that is alone are those of a listing that it got, in its order, up to
where the query has come. They are all of them if it ends without a match. -/
theorem posted_isPrefix (hr : (initial client [.resolve q]).run moves = some sys) :
    let past := (initial client [.resolve q]).traffic moves
    let made := posted (sys.sent.map (·.2))
    (made = [] ∨ ∃ is, Listed q client past is ∧ made <+: exchangeUrls client q.host is) ∧
      ∀ res, sys.result? = some (.ok (.resolution res)) → res.found = none →
        ∃ is, Listed q client past is ∧ made = exchangeUrls client q.host is := by
  have hrun := query_induction
    (P := fun past c sent p ↦ Tour q client past c (posted sent) p) (.ready rfl) ?_ hr
  · obtain ⟨p, ctx, htasks, htour⟩ := hrun
    refine ⟨htour.exchanged.imp_right ?_, ?_⟩
    · rintro ⟨rest, is, hl, hd⟩
      exact ⟨is, hl, ⟨_, hd⟩⟩
    · intro res hres hn
      rw [result?, htasks] at hres
      obtain rfl : p = .finished (.ok (.resolution res)) := Task.phase_of_result? hres
      obtain ⟨is, hl, hd⟩ := htour.exchanged_all hn
      exact ⟨is, hl, (List.append_nil _).symm.trans hd⟩
  · intro past c sent p back c' p' h hm
    rw [Resolve.posted_append, ← List.append_assoc]
    exact (h.step hm).mono (List.subset_append_left _ _)

/-- Every exchange of a query that is alone goes to the URL of the listing with the number of the
installation behind it, for one number after the other but zero, and for all if there is no match.
But without an enterprise host, and with a base that begins with neither of the two schemes in lower
case, the base stands before it a second time. -/
theorem exchanges_beside_listing (apiUrl : String) (token : Value) (q : ResolveQuery)
    (hr : (initial (.create apiUrl token) [.resolve q]).run moves = some sys) :
    let client := Client.create apiUrl token
    let past := (initial client [.resolve q]).traffic moves
    let made := posted (sys.sent.map (·.2))
    let listing := (listingRequest q client).url
    let base := Client.normalBase apiUrl
    let lead := if q.host = "" ∧ Identity.isAbsolute base = false then base else ""
    let urls (is : List Installation) := (mintable is).map fun i ↦
      lead ++ (listing ++ "/" ++ toString i.id ++ "/access_tokens")
    (made = [] ∨ ∃ is, Listed q client past is ∧ made <+: urls is) ∧
      ∀ res, sys.result? = some (.ok (.resolution res)) → res.found = none →
        ∃ is, Listed q client past is ∧ made = urls is := by
  intro client past made listing base lead urls
  have hb : client.identity.apiUrl.toList.getLast? ≠ some '/' :=
    Client.getLast?_normalBase apiUrl
  have hurls (is : List Installation) : exchangeUrls client q.host is = urls is := by
    rw [exchangeUrls]
    simp only [Resolve.exchangeUrl_eq hb]
    rfl
  simp only [← hurls]
  exact posted_isPrefix hr

/-- The number zero is passed over. -/
theorem exchanges_beside_listing_unmatched :
    let client := Client.create "https://api.github.com/" .null
    let moves := [Sample.start 0, Sample.answer 0 (Sample.listing [1, 0, 2]),
      Sample.answer 0 (Sample.grant "t1"), Sample.answer 0 (Sample.page ["elsewhere"]),
      Sample.answer 0 (Sample.grant "t2")]
    ∃ sys, (initial client [.resolve Sample.appQuery]).run moves = some sys ∧
      sys.result?.isSome = true ∧
      ∃ is, Listed Sample.appQuery client
          ((initial client [.resolve Sample.appQuery]).traffic moves) is ∧
        posted (sys.sent.map (·.2)) = (mintable is).map fun i ↦
          "" ++ ("https://api.github.com/app/installations" ++ "/" ++ toString i.id ++
            "/access_tokens") := by
  intro client moves
  obtain ⟨sys, hr, res, hres, hn⟩ : ∃ sys,
      (initial client [.resolve Sample.appQuery]).run moves = some sys ∧
        ∃ res, sys.result? = some (.ok (.resolution res)) ∧ res.found = none :=
    ⟨_, rfl, _, rfl, rfl⟩
  obtain ⟨-, hall⟩ := exchanges_beside_listing "https://api.github.com/" .null Sample.appQuery hr
  exact ⟨sys, hr, by rw [hres]; rfl, hall res hres hn⟩

/-- A scheme in upper case is as good for the listing, which goes to the base as it is. -/
theorem base_repeated : ∃ sys,
    (initial (.create "HTTPS://api.github.com" .null) [.resolve Sample.appQuery]).run
        [Sample.start 0, Sample.answer 0 (Sample.listing [1])] = some sys ∧
      sys.sent.map (fun x ↦ (x.2.method, x.2.url)) =
        [("GET", "HTTPS://api.github.com/app/installations"),
          ("POST", "HTTPS://api.github.comHTTPS://api.github.com/app/installations/1/" ++
            "access_tokens")] :=
  ⟨_, rfl, by decide⟩

end System
end StatusRelay
