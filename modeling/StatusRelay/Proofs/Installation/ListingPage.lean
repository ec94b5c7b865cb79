import StatusRelay.Proofs.CheckRun.Site
import StatusRelay.Proofs.Installation.Exchanges
import StatusRelay.Proofs.Installation.ListingBody

namespace StatusRelay

open Json (Value)

namespace Page

/-- How many entries a page has of which nobody said how many it is to have. -/
def defaultSize : Nat := 30

def param? (req : Request) (key : String) : Option Nat :=
  ((req.params.bind (Table.get? · key)).bind Value.whole?).map Int.toNat

def shown {α : Type} (req : Request) (l : List α) : List α :=
  slice ((param? req "per_page").getD defaultSize) ((param? req "page").getD 1) l

theorem shown_bare {α : Type} (method url : String) (credential : Value) (l : List α) :
    shown (.bare method url credential) l = l.take defaultSize := by
  have hsize : param? (.bare method url credential) "per_page" = none := rfl
  have hpage : param? (.bare method url credential) "page" = none := rfl
  rw [shown, hsize, hpage, Option.getD_none, Option.getD_none, slice, Nat.sub_self, Nat.mul_zero,
    List.drop_zero]

end Page

def Server.PagesInstallations (w : Server) (base : String) (all : List Installation) : Prop :=
  ∀ asked req, req.method = "GET" → req.url = base ++ Installation.path →
    ∃ status body, w.reply asked req = .answered ⟨status, body⟩ ∧
      status < Response.rejectionStatus ∧ body.Lists (Page.shown req all)

variable {w : Server} {client : Client} {appToken host : String} {all : List Installation}

theorem Server.PagesInstallations.read
    (hw : w.PagesInstallations (Installation.base client host) all) (asked : List Request)
    (credential : Value) : (Installation.Listing.mk (Installation.listingUrl client host)).read
        (w.reply asked (.bare "GET" (Installation.listingUrl client host) credential)) =
      .ok (all.take Page.defaultSize) := by
  obtain ⟨status, body, hreply, hs, hlists⟩ :=
    hw asked (.bare "GET" (Installation.listingUrl client host) credential) rfl rfl
  rw [Page.shown_bare] at hlists
  rw [hreply, Installation.read_of_lt hs]
  exact (Installation.ofBody_eq_ok _).2 hlists

namespace System

open Resolve (exchangeUrls posted)

variable {sys : System}

theorem exists_of_incoming_nextMove {t : TaskId} {req : Request} {reply : Reply}
    (h : .back t req reply ∈ sys.incoming (sys.nextMove w)) :
    ∃ asked, reply = w.reply asked req := by
  cases hp : sys.tasks[0]?.bind Task.pending? with
  | none => simp [nextMove, hp, incoming] at h
  | some req' =>
    simp only [nextMove, hp, incoming, Option.bind_eq_bind, List.mem_singleton,
      Packet.back.injEq] at h
    obtain ⟨-, rfl, rfl⟩ := h
    exact ⟨_, rfl⟩

/-- What a system plays is a run of it, in which all replies are the server's. -/
theorem exists_run_of_play (w : Server) (n : Nat) (sys : System) :
    ∃ moves, sys.run moves = some (sys.play w n) ∧
      ∀ t req reply, .back t req reply ∈ sys.traffic moves →
        ∃ asked, reply = w.reply asked req := by
  -- On the number of moves. Where no move is left, the run that has come so far is the whole.
  induction n generalizing sys with
  | zero => exact ⟨[], rfl, fun _ _ _ h ↦ by cases h⟩
  | succ n ih =>
    cases hs : sys.step (sys.nextMove w) with
    | none =>
      rw [play_of_step_eq_none hs]
      exact ⟨[], rfl, fun _ _ _ h ↦ by cases h⟩
    | some mid =>
      obtain ⟨moves, hrun, hback⟩ := ih mid
      refine ⟨sys.nextMove w :: moves, ?_, ?_⟩
      · simp only [play, hs]
        rw [run, List.foldlM_cons, hs]
        exact hrun
      · intro t req reply h
        simp only [traffic_cons hs, List.mem_append] at h
        obtain (hin | hout) | hrest := h
        · exact exists_of_incoming_nextMove hin
        · obtain ⟨x, -, hx⟩ := List.mem_map.1 hout
          cases hx
        · exact hback t req reply hrest

theorem endsAlone_listing (hw : w.PagesInstallations (Installation.base client host) all) :
    EndsAlone w client (.listInstallations appToken host)
      (.ok (.installations (all.take Page.defaultSize)))
      [.bare "GET" (Installation.listingUrl client host) (.str appToken)] := by
  have hplays : Plays w (fun _ l _ reply s ↦ Installation.Listing.resume l reply s) []
      (Installation.Listing.start appToken host ⟨client, RunContext.initial.child⟩)
      ⟨⟨client, RunContext.initial.child⟩, .ok (all.take Page.defaultSize),
        [.bare "GET" (Installation.listingUrl client host) (.str appToken)]⟩ := by
    refine .request ?_
    simp only [Installation.Listing.resume, hw.read]
    exact .finish _
  exact endsAlone_of_plays (Plays.map (fun _ _ _ _ _ ↦ rfl) hplays)

theorem listed_of_play (hw : w.PagesInstallations (Installation.base client host) all)
    {query : ResolveQuery} (hq : query.host = host) {past : List Packet} {is : List Installation}
    (hback : ∀ t req reply, .back t req reply ∈ past → ∃ asked, reply = w.reply asked req)
    (hl : Resolve.Listed query client past is) : is = all.take Page.defaultSize := by
  subst hq
  obtain ⟨reply, hreply, hread⟩ := hl
  obtain ⟨asked, rfl⟩ := hback _ _ _ hreply
  exact Except.ok.inj (hread.symm.trans (hw.read asked (.str query.appToken)))

theorem posted_of_play (hw : w.PagesInstallations (Installation.base client host) all)
    (target namespaceName : String) (n : Nat) :
    let sys := (initial client [.resolve ⟨appToken, host, target, namespaceName⟩]).play w n
    let page := all.take Page.defaultSize
    posted (sys.sent.map (·.2)) <+: exchangeUrls client host page ∧
      ∀ res, sys.result? = some (.ok (.resolution res)) → res.found = none →
        posted (sys.sent.map (·.2)) = exchangeUrls client host page := by
  intro sys page
  obtain ⟨moves, hrun, hback⟩ := exists_run_of_play w n
    (initial client [.resolve ⟨appToken, host, target, namespaceName⟩])
  obtain ⟨hmade, hall⟩ := posted_isPrefix hrun
  refine ⟨?_, ?_⟩
  · obtain hnone | ⟨is, hl, hprefix⟩ := hmade
    · have hempty : posted (sys.sent.map (·.2)) = [] := hnone
      rw [hempty]
      exact List.nil_prefix
    · obtain rfl := listed_of_play hw rfl hback hl
      exact hprefix
  · intro res hres hn
    obtain ⟨is, hl, heq⟩ := hall res hres hn
    obtain rfl := listed_of_play hw rfl hback hl
    exact heq

/-- From a server that shows the installations in pages only the first page is ever got, with as
many as the server puts on it by itself. That is all of them just if there are no more. A query
exchanges none of the others, and if it ends without a match it has exchanged just these. -/
theorem first_page_listed (client : Client) (appToken host : String)
    (hw : w.PagesInstallations (Installation.base client host) all) :
    let op := Operation.listInstallations appToken host
    let page := all.take Page.defaultSize
    EndsAlone w client op (.ok (.installations page))
        [.bare "GET" (Installation.listingUrl client host) (.str appToken)] ∧
      ((∃ is asked, EndsAlone w client op (.ok (.installations is)) asked ∧
          is.map (·.id) = all.map (·.id)) ↔ all.length ≤ Page.defaultSize) ∧
      ∀ target namespaceName n,
        let query := Operation.resolve ⟨appToken, host, target, namespaceName⟩
        let sys := (initial client [query]).play w n
        let made := posted (sys.sent.map (·.2))
        made <+: exchangeUrls client host page ∧
          ∀ res, sys.result? = some (.ok (.resolution res)) → res.found = none →
            made = exchangeUrls client host page := by
  intro op page
  have hends : EndsAlone w client op (.ok (.installations page))
      [.bare "GET" (Installation.listingUrl client host) (.str appToken)] := endsAlone_listing hw
  refine ⟨hends, ⟨?_, ?_⟩, posted_of_play hw⟩
  · rintro ⟨is, asked, his, hids⟩
    obtain ⟨heq, -⟩ := hends.eq his
    cases heq
    have hlength : (page.map (·.id)).length = (all.map (·.id)).length := congrArg List.length hids
    rw [List.length_map, List.length_map, List.length_take] at hlength
    omega
  · intro hle
    have hpage : page = all := List.take_of_length_le hle
    exact ⟨page, _, hends, by rw [hpage]⟩

end System

namespace Sample

def element (i : Installation) : Value :=
  .obj [("id", .int i.id), ("account", .obj [("login", .str i.account)])]

def installationServer (all : List Installation) : Server where
  clock _ := morning
  reply _ req := .answered ⟨200, .json (.arr ((Page.shown req all).map element))⟩

def numbered (n : Nat) : List Installation := (List.range n).map fun k ↦ ⟨k + 1, "org"⟩

theorem isShownBy_element (i : Installation) : i.IsShownBy (element i) :=
  ⟨_, .int i.id, rfl, rfl, rfl, rfl⟩

theorem pagesInstallations (base : String) (all : List Installation) :
    (installationServer all).PagesInstallations base all := by
  intro asked req _ _
  refine ⟨200, _, rfl, by decide, _, rfl, ?_⟩
  rw [List.forall₂_map_left_iff]
  exact List.forall₂_same.2 fun i _ ↦ isShownBy_element i

end Sample

namespace System

/-- The page is full, but there is no other. -/
theorem first_page_listed_thirty :
    let all := Sample.numbered 30
    let w := Sample.installationServer all
    w.PagesInstallations (Installation.base Sample.appClient "") all ∧
      ∃ is asked,
        EndsAlone w Sample.appClient (.listInstallations "app.jwt" "") (.ok (.installations is))
          asked ∧ is.map (·.id) = all.map (·.id) := by
  intro all w
  have hw : w.PagesInstallations (Installation.base Sample.appClient "") all :=
    Sample.pagesInstallations _ all
  obtain ⟨-, hall, -⟩ := first_page_listed Sample.appClient "app.jwt" "" hw
  exact ⟨hw, hall.2 (by decide)⟩

theorem last_of_thirty_one_missed :
    let all := Sample.numbered 31
    let w := Sample.installationServer all
    w.PagesInstallations (Installation.base Sample.appClient "") all ∧
      ∀ is asked,
        EndsAlone w Sample.appClient (.listInstallations "app.jwt" "") (.ok (.installations is))
          asked → is.map (·.id) ≠ all.map (·.id) := by
  intro all w
  have hw : w.PagesInstallations (Installation.base Sample.appClient "") all :=
    Sample.pagesInstallations _ all
  refine ⟨hw, ?_⟩
  intro is asked his
  obtain ⟨heq, -⟩ := (endsAlone_listing hw).eq his
  cases heq
  decide

end System
end StatusRelay
