import StatusRelay.Installation.RepositoryScan
import StatusRelay.Proofs.GitHub.Page
import StatusRelay.Proofs.Task.Alone

namespace StatusRelay

open Json (Value)

namespace Reply

/-- Whether a reply is a success that shows repositories with these addresses. -/
def Shows (reply : Reply) (urls : List String) : Prop :=
  ∃ status ms vs, reply = .answered ⟨status, .json (.obj ms)⟩ ∧ status < Response.rejectionStatus ∧
    Table.get? ms "repositories" = some (.arr vs) ∧
    vs.map (·.get? "html_url") = urls.map fun url ↦ some (.str url)

/-- The same for addresses of any kind. A page without repositories may leave them out. -/
def ShowsPage (reply : Reply) (urls : List Value) : Prop :=
  ∃ status ms, reply = .answered ⟨status, .json (.obj ms)⟩ ∧ status < Response.rejectionStatus ∧
    match Table.get? ms "repositories" with
    | some v => ∃ vs, v = .arr vs ∧ vs.map (·.get? "html_url") = urls.map some
    | none => urls = []

theorem json_of_lt (req : Request) {status : Int} (h : status < Response.rejectionStatus)
    (v : Value) : (answered ⟨status, .json v⟩).json req = .ok v := by
  have hr : Response.isRejection ⟨status, .json v⟩ = false := by
    simpa [Response.isRejection] using h
  simp only [json, accepted, hr, Bool.false_eq_true, if_false, Response.json]

theorem answered_of_json {req : Request} {reply : Reply} {v : Value}
    (h : reply.json req = .ok v) :
    ∃ status, reply = .answered ⟨status, .json v⟩ ∧ status < Response.rejectionStatus := by
  match reply with
  | .broken kind message => cases h
  | .answered ⟨status, body⟩ =>
    cases hr : Response.isRejection ⟨status, body⟩ with
    | true => simp [json, accepted, hr] at h
    | false =>
      cases body with
      | unread fault text => simp [json, accepted, hr, Response.json] at h
      | json v' =>
        obtain rfl : v' = v := by simpa [json, accepted, hr, Response.json] using h
        exact ⟨status, rfl, by simpa [Response.isRejection] using hr⟩

end Reply

namespace RepositoryScan

theorem addresses_eq_ok {vs urls : List Value} (h : vs.map (·.get? "html_url") = urls.map some) :
    addresses vs = .ok urls := by
  induction vs generalizing urls with
  | nil =>
    obtain rfl : urls = [] := by simpa using h.symm
    rfl
  | cons v vs ih =>
    cases urls with
    | nil => cases h
    | cons url urls =>
      rw [List.map_cons, List.map_cons, List.cons.injEq] at h
      obtain ⟨hv, hvs⟩ := h
      have ha : address v = .ok url := by
        cases v with
        | obj ms =>
          simp only [Value.get?] at hv
          simp only [address, hv]
        | _ => cases hv
      simp only [addresses, ha, ih hvs]
      rfl

theorem batch_of_showsPage {reply : Reply} {urls : List Value} (h : reply.ShowsPage urls)
    (req : Request) : batch req reply = .ok urls := by
  obtain ⟨status, ms, rfl, hs, hurls⟩ := h
  have hj := Reply.json_of_lt req hs (.obj ms)
  have he : (entries (.obj ms) >>= addresses) = .ok urls := by
    cases hget : Table.get? ms "repositories" with
    | none =>
      simp only [hget] at hurls
      have hnone : entries (.obj ms) = .ok [] := by simp only [entries, hget]
      rw [hnone, hurls]
      rfl
    | some v =>
      simp only [hget] at hurls
      obtain ⟨vs, rfl, hvs⟩ := hurls
      have hsome : entries (.obj ms) = .ok vs := by simp only [entries, hget, elements]
      rw [hsome]
      exact addresses_eq_ok hvs
  rw [batch, hj]
  exact he

theorem batch_of_shows {reply : Reply} {urls : List String} (h : reply.Shows urls)
    (req : Request) : batch req reply = .ok (urls.map .str) := by
  obtain ⟨status, ms, vs, hreply, hs, hget, hvs⟩ := h
  apply batch_of_showsPage
  refine ⟨status, ms, hreply, hs, ?_⟩
  rw [hget]
  exact ⟨vs, rfl, by rw [hvs, List.map_map]; rfl⟩

variable {w : Server} {s : Scope} {pages : Nat → List Value} {req : Nat → Request} {k : Nat}
  {asked : List Request}

/-- A scan that has asked for a page goes on to the first short page and keeps all on the way. -/
theorem plays_from (hreq : ∀ n, request s.client n = .ok (req n))
    (hpage : ∀ n, 1 ≤ n → n ≤ k →
      batch (req n) (w.reply (asked ++ (List.range' 1 n).map req) (req n)) = .ok (pages n))
    (hfull : ∀ n, 1 ≤ n → n < k → Page.size ≤ (pages n).length)
    (hshort : (pages k).length < Page.size) (d : Nat) : ∀ (n : Nat) (found : List Value),
    1 ≤ n → n + d = k →
    Plays w (fun _ ↦ resume) (asked ++ (List.range' 1 (n - 1)).map req)
      (.send s (.ok (req n)) ⟨n, found⟩)
      ⟨s, .ok (found ++ (List.range' n (d + 1)).flatMap pages),
        asked ++ (List.range' 1 k).map req⟩ := by
  have hasked (n : Nat) (hn : 1 ≤ n) : asked ++ (List.range' 1 (n - 1)).map req ++ [req n] =
      asked ++ (List.range' 1 n).map req := by
    obtain ⟨m, rfl⟩ : ∃ m, n = m + 1 := ⟨n - 1, by omega⟩
    rw [Nat.add_sub_cancel, List.range'_1_concat, List.map_append, List.append_assoc,
      Nat.add_comm 1 m]
    rfl
  -- On the number of pages between this one and the first short one.
  induction d with
  | zero =>
    intro n found hn hk
    obtain rfl : n = k := by omega
    refine .request ?_
    have hb := hpage n hn (Nat.le_refl n)
    rw [hasked n hn]
    simp only [resume, hb, Turn.ofExcept_ok, hshort, if_true, Turn.done_eq, Nat.zero_add,
      List.range'_one, List.flatMap_singleton]
    exact .log (.finish _)
  | succ d ih =>
    intro n found hn hk
    refine .request ?_
    have hb := hpage n hn (by omega)
    have hlen : ¬ (pages n).length < Page.size := Nat.not_lt.2 (hfull n hn (by omega))
    rw [hasked n hn]
    simp only [resume, hb, Turn.ofExcept_ok, hlen, if_false, hreq]
    have hnext := ih (n + 1) (found ++ pages n) (by omega) (by omega)
    simpa only [List.range'_succ (n := d + 1), List.flatMap_cons, List.append_assoc,
      Nat.add_sub_cancel] using hnext

def pageRequest (i : Identity) (n : Nat) : Request :=
  ⟨"GET", i.apiUrl ++ path, i.token, none, some (Page.params n)⟩

theorem request_eq (ht : s.client.identity.token.truthy = true) (n : Nat) :
    request s.client n = .ok (pageRequest s.client.identity n) := by
  have hs : path = "/" ++ "installation/repositories" := by decide
  have hu : s.client.identity.url path = s.client.identity.apiUrl ++ path := by
    rw [hs, Identity.url_slash]
  rw [request, Client.get, Client.request_of_truthy ht, hu, pageRequest]

/-- From its start the scan goes up to the first short page. -/
theorem plays_pages (asked : List Request) (ht : s.client.identity.token.truthy = true)
    (hk : 1 ≤ k) (hpage : ∀ n, 1 ≤ n → n ≤ k → batch (pageRequest s.client.identity n)
      (w.reply (asked ++ (List.range' 1 n).map (pageRequest s.client.identity))
        (pageRequest s.client.identity n)) = .ok (pages n))
    (hfull : ∀ n, 1 ≤ n → n < k → Page.size ≤ (pages n).length)
    (hshort : (pages k).length < Page.size) :
    Plays w (fun _ ↦ resume) asked (start s) ⟨s, .ok ((List.range' 1 k).flatMap pages),
      asked ++ (List.range' 1 k).map (pageRequest s.client.identity)⟩ := by
  have hp := plays_from (request_eq ht) hpage hfull hshort (k - 1) 1 [] (Nat.le_refl 1) (by omega)
  have hcount : k - 1 + 1 = k := by omega
  rw [hcount, Nat.sub_self, List.range'_zero, List.map_nil, List.append_nil] at hp
  rw [start, request_eq ht]
  exact hp

/-- Where a fixed list is shown in pages the scan finds the list. -/
theorem plays_slices (asked : List Request) (ht : s.client.identity.token.truthy = true)
    (urls : List Value) (hpage : ∀ n, 1 ≤ n → batch (pageRequest s.client.identity n)
      (w.reply (asked ++ (List.range' 1 n).map (pageRequest s.client.identity))
        (pageRequest s.client.identity n)) = .ok (Page.slice Page.size n urls)) :
    Plays w (fun _ ↦ resume) asked (start s) ⟨s, .ok urls, asked ++
      (List.range' 1 (Page.lastShort Page.size urls.length)).map
        (pageRequest s.client.identity)⟩ := by
  have hsize : 0 < Page.size := by decide
  have hfull (n : Nat) (hn : 1 ≤ n) (hk : n < Page.lastShort Page.size urls.length) :
      Page.size ≤ (Page.slice Page.size n urls).length :=
    Nat.le_of_eq (Page.length_slice_of_lt hsize hn hk).symm
  have hp := plays_pages (k := Page.lastShort Page.size urls.length) asked ht
    (Nat.le_add_left 1 _) (fun n hn _ ↦ hpage n hn) hfull (Page.length_slice_lastShort hsize)
  rwa [Page.flatMap_slice_lastShort hsize] at hp

/-- Against a server that shows a fixed list in pages the scan finds the list. -/
theorem plays_start (ht : s.client.identity.token.truthy = true) (urls : List String)
    (hpage : ∀ asked n, 1 ≤ n → (w.reply asked (pageRequest s.client.identity n)).Shows
      (Page.slice Page.size n urls)) (asked : List Request) :
    Plays w (fun _ ↦ resume) asked (start s) ⟨s, .ok (urls.map .str), asked ++
      (List.range' 1 (Page.lastShort Page.size urls.length)).map
        (pageRequest s.client.identity)⟩ := by
  have hbatch (n : Nat) (hn : 1 ≤ n) := batch_of_shows
    (hpage (asked ++ (List.range' 1 n).map (pageRequest s.client.identity)) n hn)
    (pageRequest s.client.identity n)
  have hslice (n : Nat) : (Page.slice Page.size n urls).map Value.str =
      Page.slice Page.size n (urls.map .str) := by
    rw [Page.slice, Page.slice, List.map_take, List.map_drop]
  simp only [hslice] at hbatch
  have hp := plays_slices asked ht (urls.map .str) hbatch
  rwa [List.length_map] at hp

end RepositoryScan

namespace System

open RepositoryScan (pageRequest)

variable {client : Client}

/-- Alone with a server, whoever has a token gets every repository once and in order. Pages are asked
for one by one up to the first short one, and all that they show is put together; a fixed list that
is shown in pages is thus found as it is, also when its last page is a full one. -/
theorem every_repository_listed (ht : client.identity.token.truthy = true) (w : Server) :
    let asked (k : Nat) := (List.range' 1 k).map (pageRequest client.identity)
    let answer (n : Nat) := w.reply (asked n) (pageRequest client.identity n)
    (∀ (pages : Nat → List Value) (k : Nat), 1 ≤ k →
      (∀ n, 1 ≤ n → n ≤ k → (answer n).ShowsPage (pages n)) →
      (∀ n, 1 ≤ n → n < k → Page.size ≤ (pages n).length) → (pages k).length < Page.size →
      EndsAlone w client .listRepositories (.ok (.urls ((List.range' 1 k).flatMap pages)))
        (asked k)) ∧
    ∀ urls : List Value, (∀ n, 1 ≤ n → (answer n).ShowsPage (Page.slice Page.size n urls)) →
      EndsAlone w client .listRepositories (.ok (.urls urls))
        (asked (urls.length / Page.size + 1)) := by
  intro asked answer
  refine ⟨?_, ?_⟩
  · intro pages k hk hpage hfull hshort
    have hbatch (n : Nat) (hn : 1 ≤ n) (hle : n ≤ k) :=
      RepositoryScan.batch_of_showsPage (hpage n hn hle) (pageRequest client.identity n)
    have hp := RepositoryScan.plays_pages (s := ⟨client, RunContext.initial.child⟩) [] ht hk hbatch
      hfull hshort
    exact endsAlone_of_plays (Plays.map (fun _ _ _ _ _ ↦ rfl) hp)
  · intro urls hpage
    have hbatch (n : Nat) (hn : 1 ≤ n) :=
      RepositoryScan.batch_of_showsPage (hpage n hn) (pageRequest client.identity n)
    have hp := RepositoryScan.plays_slices (s := ⟨client, RunContext.initial.child⟩) [] ht urls
      hbatch
    exact endsAlone_of_plays (Plays.map (fun _ _ _ _ _ ↦ rfl) hp)

end System

namespace Sample

def pageServer (pages : Nat → List Value) : Server where
  clock _ := ⟨⟨2024, 5, 1⟩, 12, 0, 0, 0, 0⟩
  reply asked _ := .answered ⟨200, .json (.obj [("repositories",
    .arr ((pages asked.length).map fun url ↦ .obj [("html_url", url)]))])⟩

def repository : Value := .str "https://github.com/org/other"

def longPage (n : Nat) : List Value := if n = 1 then List.replicate 101 repository else [repository]

theorem pageServer_showsPage (pages : Nat → List Value) {asked : List Request} {n : Nat}
    (h : asked.length = n) (req : Request) :
    ((pageServer pages).reply asked req).ShowsPage (pages n) := by
  subst h
  refine ⟨200, _, rfl, by decide, _, rfl, ?_⟩
  rw [List.map_map]
  rfl

end Sample

namespace System

open RepositoryScan (pageRequest)

/-- After two pages that are exactly full a third one is asked for, which is empty. -/
theorem every_repository_listed_full_pages :
    let client := Client.create "https://api.github.com" (.str "t1")
    let asked (k : Nat) := (List.range' 1 k).map (pageRequest client.identity)
    let all := List.replicate 200 Sample.repository
    client.identity.token.truthy = true ∧
      EndsAlone (Sample.pageServer Sample.longPage) client .listRepositories
        (.ok (.urls (List.replicate 102 Sample.repository))) (asked 2) ∧
      EndsAlone (Sample.pageServer (Page.slice Page.size · all)) client .listRepositories
        (.ok (.urls all)) (asked 3) := by
  intro client asked all
  have ht : client.identity.token.truthy = true := rfl
  have hlength (n : Nat) : (asked n).length = n := by
    rw [List.length_map, List.length_range']
  obtain ⟨hpages, -⟩ := every_repository_listed ht (Sample.pageServer Sample.longPage)
  obtain ⟨-, hslices⟩ := every_repository_listed ht
    (Sample.pageServer (Page.slice Page.size · all))
  refine ⟨ht, ?_, ?_⟩
  · have hfull (n : Nat) (hn : 1 ≤ n) (hk : n < 2) :
        Page.size ≤ (Sample.longPage n).length := by
      obtain rfl : n = 1 := by omega
      decide
    exact hpages Sample.longPage 2 (by decide)
      (fun n _ _ ↦ Sample.pageServer_showsPage _ (hlength n) _) hfull (by decide)
  · have hthree : all.length / Page.size + 1 = 3 := by
      rw [List.length_replicate]
      rfl
    have hall := hslices all fun n _ ↦ Sample.pageServer_showsPage _ (hlength n) _
    rwa [hthree] at hall

end System
end StatusRelay
