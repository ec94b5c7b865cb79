import StatusRelay.Proofs.CheckRun.Listed
import StatusRelay.Proofs.CheckRun.Pages
import StatusRelay.Proofs.Installation.FirstVisit
import StatusRelay.Proofs.Payload.Fieldwise

namespace StatusRelay

open Json (Value)
open Payload (Checked)

namespace CheckRun

/-- Whether a value shows a check run. Without an external name the member may be null or absent. -/
def IsShownBy (r : CheckRun) (v : Value) : Prop :=
  ∃ ms, v = .obj ms ∧ Table.get? ms "id" = some (.int r.id) ∧
    match r.externalId with
    | some name => Table.get? ms "external_id" = some (.str name)
    | none => Table.get? ms "external_id" = none ∨ Table.get? ms "external_id" = some .null

theorem decode_of_isShownBy {r : CheckRun} {v : Value} (h : r.IsShownBy v) : decode v = .ok r := by
  obtain ⟨id, externalId⟩ := r
  obtain ⟨ms, rfl, hid, hname⟩ := h
  simp only [decode, Checked.map_eq_ok, Checked.both_eq_ok]
  refine ⟨(id, externalId), ⟨(Checked.member_eq_ok hid).2 rfl, ?_⟩, rfl⟩
  cases externalId with
  | some name => exact (Checked.member_eq_ok hname).2 rfl
  | none =>
    obtain hname | hname := hname
    · exact (Checked.member_eq_ok_of_absent hname).2 rfl
    · exact (Checked.member_eq_ok hname).2 rfl

end CheckRun

def Reply.ShowsRuns (reply : Reply) (l : CheckRun.Listing) : Prop :=
  ∃ status ms vs, reply = .answered ⟨status, .json (.obj ms)⟩ ∧ status < Response.rejectionStatus ∧
    Table.get? ms "total_count" = some (.int l.total) ∧
    Table.get? ms "check_runs" = some (.arr vs) ∧
    List.Forall₂ CheckRun.IsShownBy l.runs vs

/-- A server that shows a listing of check runs in pages, and the count of all on each of them. -/
def Server.Lists (w : Server) (q : CheckRun.Query) (i : Identity) (runs : List CheckRun) : Prop :=
  ∀ asked n, 1 ≤ n → (w.reply asked (q.pageRequest i n)).ShowsRuns (CheckRun.Listing.page n runs)

namespace CheckRun

theorem Scan.batch_of_showsRuns {reply : Reply} {l : Listing} (h : reply.ShowsRuns l)
    (req : Request) : batch req reply = .ok l := by
  obtain ⟨status, ms, vs, rfl, hs, htotal, hruns, hvs⟩ := h
  have hall : List.Forall₂ (fun v r ↦ CheckRun.decode v = .ok r) vs l.runs :=
    (hvs.imp fun _ _ h ↦ decode_of_isShownBy h).flip
  have hlist : Checked.list CheckRun.decode (.arr vs) = .ok l.runs :=
    Checked.list_eq_ok.2 ⟨vs, rfl, hall⟩
  have hd : Listing.decode (.obj ms) = .ok l := by
    simp only [Listing.decode, Checked.map_eq_ok, Checked.both_eq_ok]
    exact ⟨(l.total, l.runs), ⟨(Checked.member_eq_ok htotal).2 rfl,
      (Checked.member_eq_ok hruns).2 hlist⟩, rfl⟩
  exact Reply.batch_of_reads ⟨status, _, rfl, hs, hd⟩ req

/-- The number of pages that are asked for: one at least, and else as many as it takes. -/
def pageCount (runs : List CheckRun) : Nat := max 1 ((runs.length + (Page.size - 1)) / Page.size)

theorem pageCount_le_iff {runs : List CheckRun} {n : Nat} (hn : 1 ≤ n) :
    pageCount runs ≤ n ↔ runs.length ≤ Page.size * n := pagesFor_le_iff hn

variable {w : Server} {s : Scope} {q : Query} {g : Goal} {runs : List CheckRun}

theorem upTo_page (runs : List CheckRun) (n : Nat) :
    upTo (Listing.page · runs) n = runs.take (Page.size * n) := Page.flatMap_slice Page.size n runs

theorem upTo_page_pageCount (runs : List CheckRun) :
    upTo (Listing.page · runs) (pageCount runs) = runs := by
  have hpos : 1 ≤ pageCount runs := Nat.le_max_left _ _
  have hle := (pageCount_le_iff hpos).1 (Nat.le_refl (pageCount runs))
  rw [upTo_page, List.take_of_length_le hle]

/-- A list in pages ends where it has been seen whole. -/
theorem ends_page (runs : List CheckRun) : Ends (Listing.page · runs) (pageCount runs) where
  pos := Nat.le_max_left _ _
  full n hn hk := by
    have hmore := mt (pageCount_le_iff hn).2 (Nat.not_le.2 hk)
    have hlen : (Listing.page n runs).runs.length = _ := Page.length_slice Page.size
    have hs : Page.size = 100 := rfl
    rw [hs] at hmore
    rw [hlen, hs]
    omega
  announced n hn hk := by
    have hmore := mt (pageCount_le_iff hn).2 (Nat.not_le.2 hk)
    have htotal : (Listing.page n runs).total = (runs.length : Int) := rfl
    rw [upTo_page, List.length_take, htotal]
    omega
  last := by
    rw [upTo_page_pageCount]
    exact .inr (Int.le_refl _)

def pageRequests (q : Query) (i : Identity) (runs : List CheckRun) : List Request :=
  (List.range' 1 (pageCount runs)).map (q.pageRequest i)

theorem Scan.plays_start (ht : s.client.identity.token.truthy = true)
    (hw : w.Lists q s.client.identity runs) :
    Plays w (fun _ ↦ resume) [] (start q s)
      ⟨s, .ok ⟨runs.length, runs⟩, pageRequests q s.client.identity runs⟩ := by
  have hp := Scan.plays_pages ht (ends_page runs) fun n hn _ ↦ batch_of_showsRuns (hw _ n hn) _
  rw [upTo_page_pageCount] at hp
  exact hp

def firstNamed? (run : String) (runs : List CheckRun) : Option Int :=
  (runs.find? (·.externalId == some run)).map CheckRun.id

namespace Lookup

theorem find?_listed (run : String) (runs : List CheckRun) :
    find? run ⟨runs.length, runs⟩ = firstNamed? run runs := by
  cases runs with
  | nil => rfl
  | cons r runs =>
    have hne : ((((r :: runs).length : Nat) : Int) == 0) = false := by simp; omega
    simp only [find?, hne, Bool.false_eq_true, if_false, firstNamed?]

theorem plays_start (ht : s.client.identity.token.truthy = true)
    (hw : w.Lists q s.client.identity runs) (run : String) :
    Plays w (fun _ ↦ resume) [] (start run q s)
      ⟨s, .ok (firstNamed? run runs), pageRequests q s.client.identity runs⟩ := by
  rw [← find?_listed]
  exact plays_of_scan run (Scan.plays_start ht hw)

end Lookup
end CheckRun

open CheckRun (Goal Ensure Creation firstNamed? pageRequests)

namespace System

variable {w : Server} {client : Client} {g : Goal} {runs : List CheckRun}

/-- A task that wants a check run ends as it does from inside, where the client is as before but for
the lock. -/
theorem endsAlone_ensure {r : Except Failure Int} {asked : List Request}
    (hn : client.runs.load g.run = none) (ho : (client.runs.lock g.run).isOpen = true)
    (h : ∀ s : Scope, s.client.identity = client.identity → s.client.runs.load g.run = none →
      ∃ s', Plays w CheckRun.Ensure.resume [] (CheckRun.Ensure.inside (w.clock []) g s)
        ⟨s', r, asked⟩) :
    EndsAlone w client (.ensureCheckRun g) (r.map .checkRun) asked := by
  obtain ⟨s', hp⟩ := h
    ((⟨client, RunContext.initial.child⟩ : Scope).attach.mapLock g.run (·.grant 0)) rfl hn
  refine endsAlone_of_plays (s := s') (Plays.map (fun _ _ _ _ _ ↦ rfl) ?_)
  rw [CheckRun.Ensure.start_eq_inside hn ho]
  exact hp

/-- Whatever the client did before, against a server that lists check runs in pages: a listing asks
for each page once, in order, and gives all runs as they are; a search gives the first run that has
the external name; and a task that wants the run, with nothing in the cache and nobody else at it,
ends with that run, or asks for a new one just if no run has the name. -/
theorem paged_lookup_exact (ht : client.identity.token.truthy = true)
    (hw : w.Lists g.query client.identity runs)
    (hc : ∀ asked, ∃ stamp, (w.clock asked).stamp? = some stamp) :
    let pages := pageRequests g.query client.identity runs
    EndsAlone w client (.listCheckRuns g.query) (.ok (.checkRuns ⟨runs.length, runs⟩)) pages ∧
      EndsAlone w client (.findCheckRun g) (.ok (.foundCheckRun (firstNamed? g.run runs))) pages ∧
      (client.runs.load g.run = none → (client.runs.lock g.run).isOpen = true →
        (∀ id, firstNamed? g.run runs = some id →
          EndsAlone w client (.ensureCheckRun g) (.ok (.checkRun id)) pages) ∧
        ((∀ r ∈ runs, r.externalId ≠ some g.run) → ∃ startedAt made,
          (w.clock pages).stamp? = some startedAt ∧
          Creation.request g.write client.identity startedAt = made ∧
          EndsAlone w client (.ensureCheckRun g)
            ((Ensure.kept g.run (Creation.created g.write made
              (w.reply (pages ++ [made]) made))).map .checkRun) (pages ++ [made]))) := by
  intro pages
  refine ⟨?_, ?_, ?_⟩
  · exact endsAlone_of_plays (Plays.map (fun _ _ _ _ _ ↦ rfl)
      (CheckRun.Scan.plays_start (s := ⟨client, RunContext.initial.child⟩) ht hw))
  · exact endsAlone_of_plays (Plays.map (fun _ _ _ _ _ ↦ rfl)
      (CheckRun.Lookup.plays_start (s := (⟨client, RunContext.initial.child⟩ : Scope).attach)
        ht hw g.run))
  · intro hn ho
    refine ⟨?_, ?_⟩
    · intro id hf
      refine endsAlone_ensure (r := .ok id) hn ho ?_
      intro s hi hn'
      rw [← hi] at ht hw
      have hp : pageRequests g.query s.client.identity runs = pages := by rw [hi]
      have hl := CheckRun.Lookup.plays_start ht hw g.run
      rw [hf, hp] at hl
      obtain ⟨s', -, hfound⟩ := Ensure.plays_found hn' hl
      exact ⟨s', hfound⟩
    · intro hno
      have hf : firstNamed? g.run runs = none := by
        rw [← CheckRun.Lookup.find?_listed]
        exact CheckRun.Lookup.find?_eq_none_iff.2 hno
      obtain ⟨startedAt, hstamp⟩ := hc pages
      refine ⟨startedAt, _, hstamp, rfl, endsAlone_ensure hn ho ?_⟩
      intro s hi hn'
      rw [← hi] at ht hw
      have hp : pageRequests g.query s.client.identity runs = pages := by rw [hi]
      have hl := CheckRun.Lookup.plays_start ht hw g.run
      rw [hf, hp] at hl
      obtain ⟨s', -, hcreated⟩ := Ensure.plays_created hn' ht (by rw [hi]) hstamp hl
      exact ⟨s', hcreated⟩

end System

namespace Sample

def manyRuns : List CheckRun := List.replicate 100 ⟨1, none⟩ ++ [⟨2, some "run-1"⟩]

def runServer : Server where
  clock _ := noon
  reply _ req := .answered (CheckRun.Listing.answer (pageOf req) manyRuns)

end Sample

namespace CheckRun

theorem isShownBy_entry (r : CheckRun) : r.IsShownBy r.entry := by
  obtain ⟨id, externalId⟩ := r
  cases externalId with
  | none => exact ⟨_, rfl, rfl, .inr rfl⟩
  | some name => exact ⟨_, rfl, rfl, rfl⟩

theorem showsRuns_answer (n : Nat) (runs : List CheckRun) :
    (Reply.answered (Listing.answer n runs)).ShowsRuns (Listing.page n runs) := by
  refine ⟨_, _, _, rfl, by decide, rfl, rfl, ?_⟩
  rw [List.forall₂_map_right_iff, List.forall₂_same]
  exact fun r _ ↦ isShownBy_entry r

end CheckRun

namespace Sample

theorem runServer_lists (q : CheckRun.Query) (i : Identity) : runServer.Lists q i manyRuns := by
  intro asked n hn
  have hpage : pageOf (q.pageRequest i n) = n := rfl
  simp only [runServer, hpage]
  exact CheckRun.showsRuns_answer n manyRuns

end Sample

namespace System

/-- The check run is found on the second page, and none is made. -/
theorem paged_lookup_exact_second_page :
    let pages := pageRequests (Goal.query ⟨Sample.write, 7⟩) Sample.client.identity Sample.manyRuns
    Sample.client.identity.token.truthy = true ∧ pages.length = 2 ∧
      EndsAlone Sample.runServer Sample.client (.findCheckRun ⟨Sample.write, 7⟩)
        (.ok (.foundCheckRun (some 2))) pages ∧
      EndsAlone Sample.runServer Sample.client (.ensureCheckRun ⟨Sample.write, 7⟩)
        (.ok (.checkRun 2)) pages := by
  intro pages
  have ht : Sample.client.identity.token.truthy = true := rfl
  have hstamp : Sample.noon.stamp?.isSome = true := by decide
  have hfirst : firstNamed? "run-1" Sample.manyRuns = some 2 := by decide
  obtain ⟨-, hfind, hensure⟩ := paged_lookup_exact (g := ⟨Sample.write, 7⟩) ht
    (Sample.runServer_lists _ _) fun _ ↦ Option.isSome_iff_exists.1 hstamp
  obtain ⟨hfound, -⟩ := hensure rfl rfl
  exact ⟨ht, by decide, hfirst ▸ hfind, hfound 2 hfirst⟩

end System
end StatusRelay
