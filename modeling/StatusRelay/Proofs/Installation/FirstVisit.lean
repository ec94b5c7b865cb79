import StatusRelay.Proofs.Installation.RepositoryPages

namespace StatusRelay

open Json (Value)

def Reply.Grants (reply : Reply) (token : Value) : Prop :=
  ∃ status ms, reply = .answered ⟨status, .json (.obj ms)⟩ ∧ status < Response.rejectionStatus ∧
    Table.get? ms "token" = some token ∧ token.truthy = true

namespace TokenExchange

theorem minted_of_grants {reply : Reply} {token : Value} (h : reply.Grants token)
    (x : TokenExchange) (req : Request) : x.minted req reply = .ok token := by
  obtain ⟨status, ms, rfl, hs, hget, ht⟩ := h
  have hj := Reply.json_of_lt req hs (.obj ms)
  simp only [minted, hj, tokenOf, hget, ht, if_true]

theorem exists_url_eq (i : Identity) (base : String) (id : Int) :
    ∃ b, i.url (url base id) = url b id := by
  unfold Identity.url
  split
  · exact ⟨base, rfl⟩
  · refine ⟨i.apiUrl ++ base, ?_⟩
    simp only [url, String.append_assoc]

theorem plays_start {w : Server} {s : Scope} {appToken host namespaceName : String} {id : Int}
    {asked : List Request} {req : Request} {token : Value}
    (hr : s.client.request "POST" (url (Installation.base s.client host) id) (.str appToken) none
      none = .ok req)
    (hg : (w.reply (asked ++ [req]) req).Grants token) :
    Plays w (fun _ ↦ resume) asked (start appToken host id namespaceName s)
      ⟨s.adopt ⟨Installation.base s.client host, token⟩, .ok token, asked ++ [req]⟩ := by
  simp only [start, hr]
  refine .request ?_
  simp only [resume, minted_of_grants hg, Turn.ofExcept_ok, Turn.done_eq]
  exact .log (.finish _)

end TokenExchange

/-- A server that lists installations, exchanges a token for each of them, and shows whoever has
such a token the repositories of that installation. -/
structure Obliging (w : Server) (is : List Installation) (own : Int → List String)
    (sees : Value → List String) : Prop where
  listing : ∀ asked req b, req.method = "GET" → req.url = b ++ Installation.path →
    (Installation.Listing.mk req.url).read (w.reply asked req) = .ok is
  exchange : ∀ asked req b, ∀ i ∈ is, req.method = "POST" → req.url = TokenExchange.url b i.id →
    ∃ token, (w.reply asked req).Grants token ∧ sees token = own i.id
  repositories : ∀ asked req b n, 1 ≤ n → req.method = "GET" →
    req.url = b ++ RepositoryScan.path → req.params = some (Page.params n) →
    (w.reply asked req).Shows (Page.slice Page.size n (sees req.credential))

def Minted (w : Server) (asked : List Request) (id : Int) (token : Value) : Prop :=
  ∃ before req b, before ++ [req] <+: asked ∧ req.method = "POST" ∧
    req.url = TokenExchange.url b id ∧ (w.reply (before ++ [req]) req).Grants token

theorem Minted.mono {w : Server} {asked asked' : List Request} {id : Int} {token : Value}
    (h : Minted w asked id token) (hp : asked <+: asked') : Minted w asked' id token := by
  obtain ⟨before, req, b, hb, hreq⟩ := h
  exact ⟨before, req, b, hb.trans hp, hreq⟩

namespace Resolve

variable {w : Server} {is rest : List Installation} {own : Int → List String}
  {sees : Value → List String} {q : ResolveQuery} {s : Scope} {asked : List Request}
  {i : Installation}

theorem isListed_map (target : String) (urls : List String) :
    isListed target (urls.map .str) = decide (target ∈ urls) := by
  induction urls with
  | nil => rfl
  | cons url urls ih =>
    have hc : isListed target ((url :: urls).map .str) =
        (url == target || isListed target (urls.map .str)) := rfl
    rw [hc, ih]
    simp only [List.mem_cons, Bool.decide_or, eq_comm (a := target)]
    rfl

/-- Every visit begins with an exchange, which leaves the client with the new token. -/
theorem exists_exchange (hw : Obliging w is own sees) (hi : i ∈ is)
    (hb : (s.client.identity.bearer? (.str q.appToken)).isSome = true) (asked : List Request) :
    ∃ token asked', Plays w (fun _ ↦ TokenExchange.resume) asked
        (TokenExchange.start q.appToken q.host i.id q.namespaceName s)
        ⟨s.adopt ⟨Installation.base s.client q.host, token⟩, .ok token, asked'⟩ ∧
      token.truthy = true ∧ sees token = own i.id ∧ Minted w asked' i.id token := by
  obtain ⟨bearer, hb⟩ := Option.isSome_iff_exists.1 hb
  obtain ⟨b, hu⟩ := TokenExchange.exists_url_eq s.client.identity
    (Installation.base s.client q.host) i.id
  generalize hreq : (⟨"POST", s.client.identity.url
    (TokenExchange.url (Installation.base s.client q.host) i.id), bearer, none, none⟩ : Request) =
    req
  have hmethod : req.method = "POST" := by rw [← hreq]
  have hurl : req.url = TokenExchange.url b i.id := by rw [← hreq, hu]
  have hr : s.client.request "POST" (TokenExchange.url (Installation.base s.client q.host) i.id)
      (.str q.appToken) none none = .ok req := by
    rw [← hreq]
    simp only [Client.request, hb]
  obtain ⟨token, hg, hsees⟩ := hw.exchange (asked ++ [req]) req b i hi hmethod hurl
  have htruthy : token.truthy = true := by
    obtain ⟨_, _, _, _, _, ht⟩ := hg
    exact ht
  exact ⟨token, asked ++ [req], TokenExchange.plays_start hr hg, htruthy, hsees,
    asked, req, b, List.prefix_rfl, hmethod, hurl, hg⟩

theorem bearer?_isSome_of_truthy {i : Identity} (h : i.token.truthy = true) (given : Value) :
    (i.bearer? given).isSome = true := by
  rw [Identity.bearer?, if_pos h]
  split <;> rfl

/-- Once the repositories are listed without the target, no visit finds it. -/
theorem plays_visit (hw : Obliging w is own sees) {urls : List Value}
    (hl : isListed q.target urls = false) (count : Nat) (rest : List Installation) :
    ∀ {s : Scope} {asked : List Request} {token : Value} {last : Int},
      (∀ i ∈ rest, i ∈ is ∧ i.id ≠ 0) → s.client.identity.token.truthy = true →
      Minted w asked last token →
      ∃ s' asked' token', Plays w (fun _ ↦ resume) asked
          (visit q rest ⟨count, token, some urls⟩ s) ⟨s', .ok ⟨q.host, token', none⟩, asked'⟩ ∧
        Minted w asked' ((rest.map (·.id)).getLastD last) token' := by
  induction rest with
  | nil =>
    intro s asked token last _ _ hm
    exact ⟨s, asked, token, .log (.finish _), hm⟩
  | cons i rest ih =>
    intro s asked token last hmem ht _
    obtain ⟨hi, hz⟩ := hmem i List.mem_cons_self
    obtain ⟨token', asked', hx, ht', -, hm'⟩ := exists_exchange (q := q) hw hi
      (bearer?_isSome_of_truthy ht _) asked
    obtain ⟨s'', asked'', token'', hp, hm''⟩ := ih
      (s := s.adopt ⟨Installation.base s.client q.host, token'⟩)
      (fun j hj ↦ hmem j (List.mem_cons_of_mem i hj)) ht' hm'
    rw [List.map_cons, List.getLastD_cons]
    refine ⟨s'', asked'', token'', ?_, hm''⟩
    have hid : (i.id == 0) = false := by simpa using hz
    simp only [visit, hid, Bool.false_eq_true, if_false]
    refine Plays.andThen (fun _ _ _ _ _ ↦ rfl) hx ?_
    simp only [lookWith, look, judge, hl, Bool.false_eq_true, if_false]
    exact hp

/-- What a query comes to if nobody's repositories count but those of the installation that is
listed first. -/
def OfFirst (w : Server) (q : ResolveQuery) (own : Int → List String) (asked : List Request)
    (r : Resolution) : List Installation → Prop
  | [] => r.found = none ∧ r.token = .str ""
  | i :: rest =>
    if q.target ∈ own i.id then
      r.found = some (i, (own i.id).map .str) ∧ Minted w asked i.id r.token
    else r.found = none ∧ Minted w asked ((rest.map (·.id)).getLastD i.id) r.token

theorem exists_judge (rest : List Installation) (hw : Obliging w is own sees) (hi : i ∈ is)
    (hz : i.id ≠ 0) (count : Nat)
    (hb : (s.client.identity.bearer? (.str q.appToken)).isSome = true) (asked : List Request) :
    ∃ s' token asked', s'.client.identity.token.truthy = true ∧ Minted w asked' i.id token ∧
      ∀ e, Plays w (fun _ ↦ resume) asked'
          (judge q i (visit q rest) ⟨count, token, none⟩ s' ((own i.id).map .str)) e →
        Plays w (fun _ ↦ resume) asked (visit q (i :: rest) ⟨count, .str "", none⟩ s) e := by
  obtain ⟨token, asked₁, hx, ht, hsees, hm⟩ := exists_exchange (q := q) hw hi hb asked
  generalize hs₁ : s.adopt ⟨Installation.base s.client q.host, token⟩ = s₁ at hx
  have htoken : s₁.client.identity.token = token := by rw [← hs₁]; rfl
  have ht₁ : s₁.client.identity.token.truthy = true := by rw [htoken, ht]
  have hpage (asked : List Request) (n : Nat) (hn : 1 ≤ n) :
      (w.reply asked (RepositoryScan.pageRequest s₁.client.identity n)).Shows
        (Page.slice Page.size n (own i.id)) := by
    have hshows := hw.repositories asked (RepositoryScan.pageRequest s₁.client.identity n) _ n hn
      rfl rfl rfl
    have hcredential :
        (RepositoryScan.pageRequest s₁.client.identity n).credential = token := htoken
    rwa [hcredential, hsees] at hshows
  obtain ⟨asked₂, hprefix, hscan⟩ : ∃ asked₂, asked₁ <+: asked₂ ∧
      Plays w (fun _ ↦ RepositoryScan.resume) asked₁ (RepositoryScan.start s₁)
        ⟨s₁, .ok ((own i.id).map .str), asked₂⟩ :=
    ⟨_, List.prefix_append asked₁ _, RepositoryScan.plays_start ht₁ (own i.id) hpage asked₁⟩
  refine ⟨s₁, token, asked₂, ht₁, hm.mono hprefix, ?_⟩
  intro e hp
  have hid : (i.id == 0) = false := by simpa using hz
  simp only [visit, hid, Bool.false_eq_true, if_false]
  refine Plays.andThen (fun _ _ _ _ _ ↦ rfl) hx ?_
  exact Plays.andThen (fun _ _ _ _ _ ↦ rfl) hscan hp

theorem plays_first (hw : Obliging w is own sees) (count : Nat)
    (hmem : ∀ j ∈ i :: rest, j ∈ is ∧ j.id ≠ 0)
    (hb : (s.client.identity.bearer? (.str q.appToken)).isSome = true) (asked : List Request) :
    ∃ s' asked' r, Plays w (fun _ ↦ resume) asked (visit q (i :: rest) ⟨count, .str "", none⟩ s)
        ⟨s', .ok r, asked'⟩ ∧ r.host = q.host ∧ OfFirst w q own asked' r (i :: rest) := by
  obtain ⟨hi, hz⟩ := hmem i List.mem_cons_self
  obtain ⟨s₁, token, asked₁, ht, hm, hjudge⟩ :=
    exists_judge rest hw hi hz count hb asked
  by_cases htarget : q.target ∈ own i.id
  · refine ⟨s₁, asked₁, ⟨q.host, token, some (i, (own i.id).map .str)⟩, hjudge _ ?_, rfl, ?_⟩
    · rw [judge, isListed_map, if_pos (decide_eq_true htarget)]
      exact .log (.finish _)
    · rw [OfFirst, if_pos htarget]
      exact ⟨rfl, hm⟩
  · have hl : isListed q.target ((own i.id).map .str) = false := by
      rw [isListed_map, decide_eq_false htarget]
    obtain ⟨s', asked', token', hp, hm'⟩ := plays_visit hw hl count rest
      (fun j hj ↦ hmem j (List.mem_cons_of_mem i hj)) ht hm
    refine ⟨s', asked', ⟨q.host, token', none⟩, hjudge _ ?_, rfl, ?_⟩
    · rw [judge, hl, if_neg Bool.false_ne_true]
      exact hp
    · rw [OfFirst, if_neg htarget]
      exact ⟨rfl, hm'⟩

theorem plays_start (hw : Obliging w is own sees) (hz : ∀ i ∈ is, i.id ≠ 0)
    (hb : (s.client.identity.bearer? (.str q.appToken)).isSome = true) :
    ∃ s' asked' r, Plays w (fun _ ↦ resume) [] (start q s) ⟨s', .ok r, asked'⟩ ∧
      r.host = q.host ∧ OfFirst w q own asked' r is := by
  generalize hreq : Request.bare "GET" (Installation.listingUrl s.client q.host)
    (.str q.appToken) = req
  have hurl : req.url = Installation.base s.client q.host ++ Installation.path := by
    rw [← hreq]
    rfl
  have hmethod : req.method = "GET" := by rw [← hreq]; rfl
  have hread := hw.listing [req] req _ hmethod hurl
  have hlisting : Plays w (fun _ l _ ↦ l.resume) []
      (Installation.Listing.start q.appToken q.host s) ⟨s, .ok is, [req]⟩ := by
    simp only [Installation.Listing.start, hreq]
    refine .request ?_
    have hl : Installation.Listing.mk req.url =
        ⟨Installation.listingUrl s.client q.host⟩ := by rw [← hreq]; rfl
    rw [hl] at hread
    simp only [List.nil_append, Installation.Listing.resume, hread]
    exact .finish _
  have hvisit : ∀ {e : Ending Resolution},
      Plays w (fun _ ↦ resume) [req] (afterListing q s is) e →
      Plays w (fun _ ↦ resume) [] (start q s) e :=
    fun hp ↦ Plays.andThen (fun _ _ _ _ _ ↦ rfl) hlisting hp
  cases is with
  | nil => exact ⟨s, [req], ⟨q.host, .str "", none⟩, hvisit (.log (.finish _)), rfl, rfl, rfl⟩
  | cons i rest =>
    have hmem : ∀ j ∈ i :: rest, j ∈ i :: rest ∧ j.id ≠ 0 := fun j hj ↦ ⟨hj, hz j hj⟩
    obtain ⟨s', asked', r, hp, hr⟩ := plays_first hw (i :: rest).length hmem hb [req]
    exact ⟨s', asked', r, hvisit hp, hr⟩

/-- Alone with a server that answers everything, a query comes to an end, and only the repositories
of the installation that is listed first decide it: if the target is among them, that installation
is found with the token minted for it; if not, none is found, whatever the others can see. -/
theorem resolve_of_first (hw : Obliging w is own sees) (hz : ∀ i ∈ is, i.id ≠ 0) {client : Client}
    (hb : (client.identity.bearer? (.str q.appToken)).isSome = true) :
    ∃ n r, let sys := (System.initial client [.resolve q]).play w n
      sys.result? = some (.ok (.resolution r)) ∧ r.host = q.host ∧
        OfFirst w q own (sys.sent.map (·.2)) r is := by
  obtain ⟨s', asked', r, hp, hhost, hr⟩ := plays_start
    (s := ⟨client, RunContext.initial.child⟩) hw hz hb
  have hop : Plays w Running.resume []
      ((Operation.resolve q).start ⟨0, w.clock []⟩ ⟨client, RunContext.initial.child⟩)
      ⟨s', .ok (.resolution r), asked'⟩ := Plays.map (fun _ _ _ _ _ ↦ rfl) hp
  obtain ⟨n, hresult, -, hasked⟩ := System.play_initial hop
  refine ⟨n, r, hresult, hhost, ?_⟩
  rw [hasked]
  exact hr

end Resolve

namespace Sample

def target : String := "https://github.com/org/target"

def installations : List Installation := [⟨1, ""⟩, ⟨2, ""⟩]

def own (id : Int) : List String :=
  if id == 2 then [target] else ["https://github.com/org/other"]

def sees (token : Value) : List String :=
  match token with
  | .str t => own (if t == "t1" then 1 else 2)
  | _ => []

def endsIn (url suffix : String) : Bool := suffix.toList.isSuffixOf url.toList

def pageOf (req : Request) : Nat :=
  match req.params.bind (Table.get? · "page") with
  | some (.int n) => n.toNat
  | _ => 0

def server : Server where
  clock _ := ⟨⟨2024, 5, 1⟩, 12, 0, 0, 0, 0⟩
  reply _ req :=
    if req.method == "POST" then
      .answered ⟨201, .json (.obj
        [("token", .str (if endsIn req.url "/1/access_tokens" then "t1" else "t2"))])⟩
    else if endsIn req.url Installation.path then
      .answered ⟨200, .json (.arr [.obj [("id", .int 1)], .obj [("id", .int 2)]])⟩
    else
      .answered ⟨200, .json (.obj [("repositories",
        .arr ((Page.slice Page.size (pageOf req) (sees req.credential)).map
          fun url ↦ .obj [("html_url", .str url)]))])⟩

def appQuery : ResolveQuery := ⟨"app.jwt", "", target, ""⟩

def appClient : Client := .create "https://api.github.com" .null

theorem endsIn_append {suffix rest : String} (h : suffix.length ≤ rest.length) (base : String) :
    endsIn (base ++ rest) suffix = endsIn rest suffix := by
  have hl : suffix.toList.length ≤ rest.toList.length := by
    simpa only [String.length_toList] using h
  have hb : rest.toList <:+ (base ++ rest).toList := by
    rw [String.toList_append]
    exact List.suffix_append _ _
  rw [Bool.eq_iff_iff, endsIn, endsIn, List.isSuffixOf_iff_suffix, List.isSuffixOf_iff_suffix]
  exact ⟨fun hs ↦ List.suffix_of_suffix_length_le hs hb hl, fun hs ↦ hs.trans hb⟩

theorem exchangeUrl_eq (base tail : String) {id : Int}
    (h : "/" ++ toString id ++ "/access_tokens" = tail) :
    TokenExchange.url base id = base ++ Installation.path ++ tail := by
  rw [← h]
  simp only [TokenExchange.url, String.append_assoc]

theorem obliging : Obliging server installations own sees where
  listing asked req b hm hu := by
    have he : endsIn req.url Installation.path = true := by
      rw [hu, endsIn_append (Nat.le_refl _)]
      decide
    simp only [server, hm, he, if_true]
    rfl
  exchange asked req b i hi hm hu := by
    have he : endsIn req.url "/1/access_tokens" = (i.id == 1) := by
      simp only [installations, List.mem_cons, List.not_mem_nil, or_false] at hi
      obtain rfl | rfl := hi
      · rw [hu, exchangeUrl_eq b "/1/access_tokens" (by decide),
          endsIn_append (by decide)]
        decide
      · rw [hu, exchangeUrl_eq b "/2/access_tokens" (by decide),
          endsIn_append (by decide)]
        decide
    refine ⟨.str (if i.id == 1 then "t1" else "t2"), ?_, ?_⟩
    · simp only [server, hm, he]
      exact ⟨_, _, rfl, by decide, rfl, by split <;> rfl⟩
    · simp only [installations, List.mem_cons, List.not_mem_nil, or_false] at hi
      obtain rfl | rfl := hi <;> decide
  repositories asked req b n hn hm hu hp := by
    have he : endsIn req.url Installation.path = false := by
      rw [hu, endsIn_append (by decide)]
      decide
    have hpage : pageOf req = n := by
      simp only [pageOf, hp, Page.params, Option.bind_some]
      rfl
    simp only [server, hm, he, hpage]
    refine ⟨_, _, _, rfl, by decide, rfl, ?_⟩
    rw [List.map_map]
    rfl

end Sample

namespace Resolve

/-- The second installation can see the target, and yet none is found. -/
theorem later_installation_missed :
    Obliging Sample.server Sample.installations Sample.own Sample.sees ∧
      (∀ i ∈ Sample.installations, i.id ≠ 0) ∧
      (∃ i ∈ Sample.installations, Sample.appQuery.target ∈ Sample.own i.id) ∧
      ∃ n r, ((System.initial Sample.appClient [.resolve Sample.appQuery]).play Sample.server
          n).result? = some (.ok (.resolution r)) ∧ r.installationId = 0 :=
  ⟨Sample.obliging, by decide, by decide, 5, _, rfl, rfl⟩

theorem resolve_of_first_two_installations :
    Obliging Sample.server Sample.installations Sample.own Sample.sees ∧
      (∀ i ∈ Sample.installations, i.id ≠ 0) ∧
      (Sample.appClient.identity.bearer? (.str Sample.appQuery.appToken)).isSome = true ∧
      ∃ n r,
        let sys := (System.initial Sample.appClient [.resolve Sample.appQuery]).play Sample.server n
        sys.result? = some (.ok (.resolution r)) ∧ r.host = Sample.appQuery.host ∧
          OfFirst Sample.server Sample.appQuery Sample.own (sys.sent.map (·.2)) r
            Sample.installations := by
  have hz : ∀ i ∈ Sample.installations, i.id ≠ 0 := by decide
  have hb : (Sample.appClient.identity.bearer? (.str Sample.appQuery.appToken)).isSome = true := by
    decide
  exact ⟨Sample.obliging, hz, hb, resolve_of_first Sample.obliging hz hb⟩

end Resolve
end StatusRelay
