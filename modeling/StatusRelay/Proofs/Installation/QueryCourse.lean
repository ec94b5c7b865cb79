import StatusRelay.Proofs.Installation.FirstVisit

namespace StatusRelay

open Json (Value)

namespace Identity

theorem isAbsolute_append {base : String} (h : isAbsolute base = true) (rest : String) :
    isAbsolute (base ++ rest) = true := by
  simp only [isAbsolute, Bool.or_eq_true, List.isPrefixOf_iff_prefix, String.toList_append] at h ⊢
  exact h.imp (·.trans (List.prefix_append _ _)) (·.trans (List.prefix_append _ _))

theorem url_of_isAbsolute {path : String} (h : isAbsolute path = true) (i : Identity) :
    i.url path = path := by
  rw [url, if_pos h]

theorem isAbsolute_enterprise (host : String) : isAbsolute (Enterprise.apiUrl host) = true := by
  have hs : isAbsolute "https://" = true := by decide
  exact isAbsolute_append (isAbsolute_append hs host) _

end Identity

theorem Installation.isAbsolute_base {c : Client}
    (h : Identity.isAbsolute c.identity.apiUrl = true) (host : String) :
    Identity.isAbsolute (base c host) = true := by
  unfold base
  split
  · exact h
  · exact Identity.isAbsolute_enterprise host

namespace Reply

theorem Grants.truthy {reply : Reply} {token : Value} (h : reply.Grants token) :
    token.truthy = true := by
  obtain ⟨_, _, _, _, _, ht⟩ := h
  exact ht

end Reply

namespace TokenExchange

theorem isAbsolute_url {base : String} (h : Identity.isAbsolute base = true) (id : Int) :
    Identity.isAbsolute (url base id) = true := by
  simp only [url, String.append_assoc]
  exact Identity.isAbsolute_append h _

def request (c : Client) (appToken host : String) (installation : Int) : Except Failure Request :=
  c.request "POST" (url (Installation.base c host) installation) (.str appToken) none none

theorem start_eq (appToken host : String) (id : Int) (namespaceName : String) (s : Scope) :
    start appToken host id namespaceName s = .send s (request s.client appToken host id)
      ⟨Installation.base s.client host, id, namespaceName⟩ := rfl

/-- The App's token authorises the exchange, and the base is not put before the URL again. -/
theorem request_eq {c : Client} {appToken host : String} (ha : appToken ≠ "")
    (hb : Identity.isAbsolute (Installation.base c host) = true) (id : Int) :
    request c appToken host id =
      .ok (.bare "POST" (url (Installation.base c host) id) (.str appToken)) := by
  have ht : (Value.str appToken).truthy = true := by simpa [Value.truthy] using ha
  simp only [request, Client.request, Identity.bearer?, ht, if_true,
    Identity.url_of_isAbsolute (isAbsolute_url hb id), Request.bare]

theorem get?_of_tokenOf {id : Int} {v token : Value} (h : tokenOf id v = .ok token) :
    ∃ ms, v = .obj ms ∧ Table.get? ms "token" = some token ∧ token.truthy = true := by
  cases v with
  | obj ms =>
    cases hg : Table.get? ms "token" with
    | none => simp [tokenOf, hg] at h
    | some t =>
      cases ht : t.truthy with
      | false => simp [tokenOf, hg, ht] at h
      | true =>
        obtain rfl : t = token := by simpa [tokenOf, hg, ht] using h
        exact ⟨ms, rfl, hg, ht⟩
  | _ => cases h

theorem grants_of_minted {x : TokenExchange} {req : Request} {reply : Reply} {token : Value}
    (h : x.minted req reply = .ok token) : reply.Grants token := by
  unfold minted at h
  split at h
  · rename_i v hj
    obtain ⟨ms, rfl, hg, ht⟩ := get?_of_tokenOf h
    obtain ⟨status, rfl, hs⟩ := Reply.answered_of_json hj
    exact ⟨status, ms, rfl, hs, hg, ht⟩
  · cases h

end TokenExchange

namespace RepositoryScan

theorem request_eq_error {c : Client} (ht : c.identity.token.truthy = false) (n : Nat) :
    request c n = .error .noToken := by
  have hn : Value.null.truthy = false := rfl
  simp only [request, Client.get, Client.request, Identity.bearer?, ht, hn, Bool.false_eq_true,
    if_false]

end RepositoryScan

namespace Resolve

inductive Asks (q : ResolveQuery) (c : Client) : Resolve → Request → Prop
  | listing : Asks q c (.listing q ⟨Installation.listingUrl c q.host⟩)
      (.bare "GET" (Installation.listingUrl c q.host) (.str q.appToken))
  | first {n : Nat} {i : Installation} {rest : List Installation} {req : Request} (hz : i.id ≠ 0)
      (hr : TokenExchange.request c q.appToken q.host i.id = .ok req) :
      Asks q c (.exchanging q ⟨n, .str "", none⟩ i rest
        ⟨Installation.base c q.host, i.id, q.namespaceName⟩) req
  | page {n k : Nat} {token : Value} {i : Installation} {rest : List Installation}
      {found : List Value} (ht : c.identity.token.truthy = true) :
      Asks q c (.scanning q ⟨n, token, none⟩ i rest ⟨k, found⟩)
        (RepositoryScan.pageRequest c.identity k)
  | later {n : Nat} {token : Value} {urls : List Value} {i : Installation}
      {rest : List Installation} {req : Request} (hl : isListed q.target urls = false)
      (hz : i.id ≠ 0) (hr : TokenExchange.request c q.appToken q.host i.id = .ok req) :
      Asks q c (.exchanging q ⟨n, token, some urls⟩ i rest
        ⟨Installation.base c q.host, i.id, q.namespaceName⟩) req

theorem Asks.of_exchanging {q : ResolveQuery} {c : Client} {w : Walk} {i : Installation}
    {rest : List Installation} {x : TokenExchange} {req : Request}
    (h : Asks q c (.exchanging q w i rest x) req) :
    x = ⟨Installation.base c q.host, i.id, q.namespaceName⟩ ∧
      TokenExchange.request c q.appToken q.host i.id = .ok req := by
  cases h with
  | first _ hr | later _ _ hr => exact ⟨rfl, hr⟩

inductive Begins (q : ResolveQuery) (c : Client) (n : Nat) :
    List Installation → Next Resolve Resolution → Prop
  | empty : Begins q c n [] (.done (.ok ⟨q.host, .str "", none⟩))
  | exchange {i : Installation} {rest : List Installation} {req : Request} (hz : i.id ≠ 0)
      (hr : TokenExchange.request c q.appToken q.host i.id = .ok req) :
      Begins q c n (i :: rest) (.send req (.exchanging q ⟨n, .str "", none⟩ i rest
        ⟨Installation.base c q.host, i.id, q.namespaceName⟩))
  | scan {i : Installation} {rest : List Installation} (hz : i.id = 0)
      (ht : c.identity.token.truthy = true) :
      Begins q c n (i :: rest) (.send (RepositoryScan.pageRequest c.identity 1)
        (.scanning q ⟨n, .str "", none⟩ i rest ⟨1, []⟩))
  | refuse {i : Installation} {rest : List Installation} {f : Failure} (hz : i.id ≠ 0)
      (hr : TokenExchange.request c q.appToken q.host i.id = .error f) :
      Begins q c n (i :: rest) (.done (.error f))
  | unsigned {i : Installation} {rest : List Installation} (hz : i.id = 0)
      (ht : c.identity.token.truthy = false) :
      Begins q c n (i :: rest) (.done (.error .noToken))

inductive Continues (q : ResolveQuery) (c : Client) (n : Nat) (token : Value)
    (urls : List Value) : List Installation → Next Resolve Resolution → Prop
  | unmatched : Continues q c n token urls [] (.done (.ok ⟨q.host, token, none⟩))
  | skip {i : Installation} {rest : List Installation} {next : Next Resolve Resolution}
      (hz : i.id = 0) (h : Continues q c n token urls rest next) :
      Continues q c n token urls (i :: rest) next
  | exchange {i : Installation} {rest : List Installation} {req : Request} (hz : i.id ≠ 0)
      (hr : TokenExchange.request c q.appToken q.host i.id = .ok req) :
      Continues q c n token urls (i :: rest) (.send req (.exchanging q ⟨n, token, some urls⟩ i rest
        ⟨Installation.base c q.host, i.id, q.namespaceName⟩))
  | refuse {i : Installation} {rest : List Installation} {f : Failure} (hz : i.id ≠ 0)
      (hr : TokenExchange.request c q.appToken q.host i.id = .error f) :
      Continues q c n token urls (i :: rest) (.done (.error f))

inductive Course (q : ResolveQuery) (c : Client) (req : Request) (reply : Reply) :
    Resolve → Client → Next Resolve Resolution → Prop
  | listed {l : Installation.Listing} {is : List Installation} {next : Next Resolve Resolution}
      (hr : l.read reply = .ok is) (hb : Begins q c is.length is next) :
      Course q c req reply (.listing q l) c next
  | adopt {n : Nat} {i : Installation} {rest : List Installation} {x : TokenExchange}
      {token : Value} (hm : x.minted req reply = .ok token) :
      Course q c req reply (.exchanging q ⟨n, .str "", none⟩ i rest x)
        { c with identity := ⟨x.apiUrl, token⟩ }
        (.send (RepositoryScan.pageRequest ⟨x.apiUrl, token⟩ 1)
          (.scanning q ⟨n, token, none⟩ i rest ⟨1, []⟩))
  | readopt {n : Nat} {last : Value} {urls : List Value} {i : Installation}
      {rest : List Installation} {x : TokenExchange} {token : Value}
      {next : Next Resolve Resolution} (hl : isListed q.target urls = false)
      (hm : x.minted req reply = .ok token)
      (hc : Continues q { c with identity := ⟨x.apiUrl, token⟩ } n token urls rest next) :
      Course q c req reply (.exchanging q ⟨n, last, some urls⟩ i rest x)
        { c with identity := ⟨x.apiUrl, token⟩ } next
  | page {n k : Nat} {token : Value} {i : Installation} {rest : List Installation}
      {found urls : List Value} (hb : RepositoryScan.batch req reply = .ok urls)
      (hs : Page.size ≤ urls.length) (ht : c.identity.token.truthy = true) :
      Course q c req reply (.scanning q ⟨n, token, none⟩ i rest ⟨k, found⟩) c
        (.send (RepositoryScan.pageRequest c.identity (k + 1))
          (.scanning q ⟨n, token, none⟩ i rest ⟨k + 1, found ++ urls⟩))
  | matched {n k : Nat} {token : Value} {i : Installation} {rest : List Installation}
      {found urls : List Value} (hb : RepositoryScan.batch req reply = .ok urls)
      (hs : urls.length < Page.size) (hl : isListed q.target (found ++ urls) = true) :
      Course q c req reply (.scanning q ⟨n, token, none⟩ i rest ⟨k, found⟩) c
        (.done (.ok ⟨q.host, token, some (i, found ++ urls)⟩))
  | onward {n k : Nat} {token : Value} {i : Installation} {rest : List Installation}
      {found urls : List Value} {next : Next Resolve Resolution}
      (hb : RepositoryScan.batch req reply = .ok urls) (hs : urls.length < Page.size)
      (hl : isListed q.target (found ++ urls) = false)
      (hc : Continues q c n token (found ++ urls) rest next) :
      Course q c req reply (.scanning q ⟨n, token, none⟩ i rest ⟨k, found⟩) c next
  | unlisted {l : Installation.Listing} {f : Failure} (hr : l.read reply = .error f) :
      Course q c req reply (.listing q l) c (.done (.error f))
  | unminted {w : Walk} {i : Installation} {rest : List Installation} {x : TokenExchange}
      {f : Failure} (hm : x.minted req reply = .error f) :
      Course q c req reply (.exchanging q w i rest x) c (.done (.error f))
  | unread {w : Walk} {i : Installation} {rest : List Installation} {scan : RepositoryScan}
      {f : Failure} (hb : RepositoryScan.batch req reply = .error f) :
      Course q c req reply (.scanning q w i rest scan) c (.done (.error f))
  | unsigned {w : Walk} {i : Installation} {rest : List Installation} {scan : RepositoryScan}
      {urls : List Value} (hb : RepositoryScan.batch req reply = .ok urls)
      (hs : Page.size ≤ urls.length) (ht : c.identity.token.truthy = false) :
      Course q c req reply (.scanning q w i rest scan) c (.done (.error .noToken))

variable {q : ResolveQuery} {s : Scope} {c c' : Client} {req : Request} {reply : Reply}
  {st : Resolve} {next : Next Resolve Resolution}

theorem visit_begins (n : Nat) (is : List Installation) :
    (visit q is ⟨n, .str "", none⟩ s).scope.client = s.client ∧
      Begins q s.client n is (visit q is ⟨n, .str "", none⟩ s).next := by
  cases is with
  | nil => exact ⟨rfl, .empty⟩
  | cons i rest =>
    by_cases hz : i.id = 0
    · cases ht : s.client.identity.token.truthy with
      | false =>
        simp only [visit, hz, beq_self_eq_true, if_true, look, RepositoryScan.start,
          RepositoryScan.request_eq_error ht, Turn.send_error, Turn.andThen_error]
        exact ⟨rfl, .unsigned hz ht⟩
      | true =>
        simp only [visit, hz, beq_self_eq_true, if_true, look, RepositoryScan.start,
          RepositoryScan.request_eq ht, Turn.send_ok, Turn.andThen_send]
        exact ⟨trivial, .scan hz ht⟩
    · have hid : (i.id == 0) = false := by simpa using hz
      cases hr : TokenExchange.request s.client q.appToken q.host i.id with
      | error f =>
        simp only [visit, hid, Bool.false_eq_true, if_false, TokenExchange.start_eq, hr,
          Turn.send_error, Turn.andThen_error]
        exact ⟨rfl, .refuse hz hr⟩
      | ok req =>
        simp only [visit, hid, Bool.false_eq_true, if_false, TokenExchange.start_eq, hr,
          Turn.send_ok, Turn.andThen_send]
        exact ⟨trivial, .exchange hz hr⟩

theorem visit_continues {urls : List Value} (hl : isListed q.target urls = false) (n : Nat)
    (token : Value) (is : List Installation) :
    (visit q is ⟨n, token, some urls⟩ s).scope.client = s.client ∧
      Continues q s.client n token urls is (visit q is ⟨n, token, some urls⟩ s).next := by
  induction is with
  | nil => exact ⟨rfl, .unmatched⟩
  | cons i rest ih =>
    by_cases hz : i.id = 0
    · simp only [visit, hz, beq_self_eq_true, if_true, look, judge, hl, Bool.false_eq_true,
        if_false]
      exact ⟨ih.1, .skip hz ih.2⟩
    · have hid : (i.id == 0) = false := by simpa using hz
      cases hr : TokenExchange.request s.client q.appToken q.host i.id with
      | error f =>
        simp only [visit, hid, Bool.false_eq_true, if_false, TokenExchange.start_eq, hr,
          Turn.send_error, Turn.andThen_error]
        exact ⟨rfl, .refuse hz hr⟩
      | ok req =>
        simp only [visit, hid, Bool.false_eq_true, if_false, TokenExchange.start_eq, hr,
          Turn.send_ok, Turn.andThen_send]
        exact ⟨trivial, .exchange hz hr⟩

theorem start_asks : (start q s).scope = s ∧ ∃ st req, (start q s).next = .send req st ∧
    Asks q s.client st req := ⟨rfl, _, _, rfl, .listing⟩

section

variable {n k : Nat} {token : Value} {i : Installation} {rest : List Installation}

theorem listing_course (l : Installation.Listing) :
    let t := (Resolve.listing q l).resume req reply s
    Course q s.client req reply (.listing q l) t.scope.client t.next := by
  intro t
  have ht : t = (Turn.finish s (l.read reply)).andThen (.listing q) (afterListing q) := rfl
  cases hr : l.read reply with
  | error f =>
    rw [ht, hr, Turn.andThen_error]
    exact .unlisted hr
  | ok is =>
    obtain ⟨hs, hb⟩ := visit_begins (q := q) (s := s) is.length is
    rw [ht, hr, Turn.andThen_ok, afterListing, hs]
    exact .listed hr hb

theorem first_course (x : TokenExchange) :
    let t := (Resolve.exchanging q ⟨n, .str "", none⟩ i rest x).resume req reply s
    Course q s.client req reply (.exchanging q ⟨n, .str "", none⟩ i rest x) t.scope.client
      t.next := by
  intro t
  have ht : t = (x.resume req reply s).andThen (.exchanging q ⟨n, .str "", none⟩ i rest)
    (lookWith q i rest (visit q rest) ⟨n, .str "", none⟩) := rfl
  cases hm : x.minted req reply with
  | error f =>
    simp only [ht, TokenExchange.resume, hm, Turn.ofExcept_error, Turn.andThen_error]
    exact .unminted hm
  | ok token =>
    have htoken : (s.adopt ⟨x.apiUrl, token⟩).client.identity.token.truthy = true :=
      (TokenExchange.grants_of_minted hm).truthy
    simp only [ht, TokenExchange.resume, hm, Turn.ofExcept_ok, Turn.done_eq, Turn.andThen_log,
      Turn.andThen_ok, lookWith, look, RepositoryScan.start, RepositoryScan.request_eq htoken,
      Turn.send_ok, Turn.andThen_send]
    exact .adopt hm

theorem later_course {urls : List Value} (hl : isListed q.target urls = false)
    (x : TokenExchange) :
    let t := (Resolve.exchanging q ⟨n, token, some urls⟩ i rest x).resume req reply s
    Course q s.client req reply (.exchanging q ⟨n, token, some urls⟩ i rest x) t.scope.client
      t.next := by
  intro t
  have ht : t = (x.resume req reply s).andThen (.exchanging q ⟨n, token, some urls⟩ i rest)
    (lookWith q i rest (visit q rest) ⟨n, token, some urls⟩) := rfl
  cases hm : x.minted req reply with
  | error f =>
    simp only [ht, TokenExchange.resume, hm, Turn.ofExcept_error, Turn.andThen_error]
    exact .unminted hm
  | ok token' =>
    obtain ⟨hs, hc⟩ := visit_continues (s := s.adopt ⟨x.apiUrl, token'⟩) hl n token' rest
    simp only [ht, TokenExchange.resume, hm, Turn.ofExcept_ok, Turn.done_eq, Turn.andThen_log,
      Turn.andThen_ok, lookWith, look, judge, hl, Bool.false_eq_true, if_false, Turn.scope_log,
      Turn.next_log, hs]
    exact .readopt hl hm hc

theorem scanning_course (found : List Value) :
    let t := (Resolve.scanning q ⟨n, token, none⟩ i rest ⟨k, found⟩).resume req reply s
    Course q s.client req reply (.scanning q ⟨n, token, none⟩ i rest ⟨k, found⟩) t.scope.client
      t.next := by
  intro t
  have ht : t = (RepositoryScan.resume ⟨k, found⟩ req reply s).andThen
    (.scanning q ⟨n, token, none⟩ i rest) (judge q i (visit q rest) ⟨n, token, none⟩) := rfl
  cases hb : RepositoryScan.batch req reply with
  | error f =>
    simp only [ht, RepositoryScan.resume, hb, Turn.ofExcept_error, Turn.andThen_error]
    exact .unread hb
  | ok urls =>
    by_cases hshort : urls.length < Page.size
    · simp only [ht, RepositoryScan.resume, hb, Turn.ofExcept_ok, hshort, if_true, Turn.done_eq,
        Turn.andThen_log, Turn.andThen_ok, Turn.scope_log, Turn.next_log]
      cases hl : isListed q.target (found ++ urls) with
      | true =>
        simp only [judge, hl, if_true]
        exact .matched hb hshort hl
      | false =>
        obtain ⟨hs, hc⟩ := visit_continues (s := s) hl n token rest
        simp only [judge, hl, Bool.false_eq_true, if_false, hs]
        exact .onward hb hshort hl hc
    · cases htoken : s.client.identity.token.truthy with
      | false =>
        simp only [ht, RepositoryScan.resume, hb, Turn.ofExcept_ok, hshort, if_false,
          RepositoryScan.request_eq_error htoken, Turn.send_error, Turn.andThen_error]
        exact .unsigned hb (Nat.not_lt.1 hshort) htoken
      | true =>
        simp only [ht, RepositoryScan.resume, hb, Turn.ofExcept_ok, hshort, if_false,
          RepositoryScan.request_eq htoken, Turn.send_ok, Turn.andThen_send]
        exact .page hb (Nat.not_lt.1 hshort) htoken

end

/-- Every answer carries a query on in one of these ways. -/
theorem resume_course (h : Asks q c st req) (reply : Reply) (s : Scope) :
    Course q s.client req reply st (st.resume req reply s).scope.client
      (st.resume req reply s).next := by
  cases h with
  | listing => exact listing_course _
  | first => exact first_course _
  | page => exact scanning_course _
  | later hl => exact later_course hl _

theorem Begins.asks {n : Nat} {is : List Installation} (h : Begins q c n is next)
    (hn : next = .send req st) : Asks q c st req := by
  cases h with
  | empty | refuse | unsigned => cases hn
  | exchange hz hr =>
    cases hn
    exact .first hz hr
  | scan hz ht =>
    cases hn
    exact .page ht

theorem Continues.asks {n : Nat} {token : Value} {urls : List Value} {is : List Installation}
    (hl : isListed q.target urls = false) (h : Continues q c n token urls is next)
    (hn : next = .send req st) : Asks q c st req := by
  induction h with
  | unmatched | refuse => cases hn
  | skip hz h ih => exact ih hn
  | exchange hz hr =>
    cases hn
    exact .later hl hz hr

/-- What a query asks next it asks as the client then is. -/
theorem Course.asks {req' : Request} {st' : Resolve} (h : Course q c req reply st c' next)
    (hn : next = .send req' st') : Asks q c' st' req' := by
  cases h with
  | listed hr hb => exact hb.asks hn
  | adopt hm =>
    cases hn
    exact .page (TokenExchange.grants_of_minted hm).truthy
  | readopt hl hm hc => exact hc.asks hl hn
  | page hb hs ht =>
    cases hn
    exact .page ht
  | onward hb hs hl hc => exact hc.asks hl hn
  | matched | unlisted | unminted | unread | unsigned => cases hn

theorem Begins.ne_wait {n : Nat} {is : List Installation} (h : Begins q c n is next)
    (run : String) : next ≠ .wait run := by
  cases h <;> exact fun hn ↦ by cases hn

theorem Continues.ne_wait {n : Nat} {token : Value} {urls : List Value} {is : List Installation}
    (h : Continues q c n token urls is next) (run : String) : next ≠ .wait run := by
  induction h with
  | skip hz h ih => exact ih
  | _ => exact fun hn ↦ by cases hn

/-- A query waits for no lock. -/
theorem Course.ne_wait (h : Course q c req reply st c' next) (run : String) :
    next ≠ .wait run := by
  cases h with
  | listed hr hb => exact hb.ne_wait run
  | readopt hl hm hc | onward hb hs hl hc => exact hc.ne_wait run
  | _ => exact fun hn ↦ by cases hn

end Resolve

namespace Sample

def morning : Moment := ⟨⟨2024, 5, 1⟩, 9, 0, 0, 0, 0⟩

def start (t : TaskId) : Move := ⟨t, morning, .start⟩

def answer (t : TaskId) (v : Value) : Move := ⟨t, morning, .reply (.answered ⟨200, .json v⟩)⟩

def listing (ids : List Int) : Value := .arr (ids.map fun id ↦ .obj [("id", .int id)])

def grant (token : String) : Value := .obj [("token", .str token)]

def page (urls : List String) : Value :=
  .obj [("repositories", .arr (urls.map fun url ↦ .obj [("html_url", .str url)]))]

def hostedQuery : ResolveQuery := ⟨"app.jwt", "ghe.corp", target, ""⟩

end Sample
end StatusRelay
