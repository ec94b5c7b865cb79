import Mathlib.Data.List.Basic
import StatusRelay.Proofs.Installation.RepositoryPages
import StatusRelay.Proofs.Task.FailedEnsure

namespace StatusRelay

open Json (Value)

namespace Reply

def Reads (reply : Reply) (l : CheckRun.Listing) : Prop :=
  ∃ status v, reply = .answered ⟨status, .json v⟩ ∧ status < 300 ∧ CheckRun.Listing.decode v = .ok l

theorem batch_of_reads {reply : Reply} {l : CheckRun.Listing} (h : reply.Reads l) (req : Request) :
    CheckRun.Scan.batch req reply = .ok l := by
  obtain ⟨status, v, rfl, hs, hv⟩ := h
  rw [CheckRun.Scan.batch, json_of_lt req hs]
  simp only [CheckRun.Listing.ofBody, hv]

theorem reads_of_batch {reply : Reply} {l : CheckRun.Listing} {req : Request}
    (h : CheckRun.Scan.batch req reply = .ok l) : reply.Reads l := by
  unfold CheckRun.Scan.batch at h
  split at h
  · rename_i v hjson
    obtain ⟨status, rfl, hs⟩ := answered_of_json hjson
    unfold CheckRun.Listing.ofBody at h
    split at h
    · rename_i l' hv
      obtain rfl := Except.ok.inj h
      exact ⟨status, v, rfl, hs, hv⟩
    · cases h
  · cases h

/-- Whether a reply is a success that gives the number of a new check run. -/
def Creates (reply : Reply) (id : Int) : Prop :=
  ∃ status ms, reply = .answered ⟨status, .json (.obj ms)⟩ ∧ status < 300 ∧
    Table.get? ms "id" = some (.int id)

theorem created_of_creates {reply : Reply} {id : Int} (h : reply.Creates id) (w : StatusWrite)
    (req : Request) : CheckRun.Creation.created w req reply = .ok (.int id) := by
  obtain ⟨status, ms, rfl, hs, hid⟩ := h
  rw [CheckRun.Creation.created, json_of_lt req hs]
  simp only [CheckRun.Creation.idOf, hid]

theorem creates_of_created {w : StatusWrite} {req : Request} {reply : Reply} {id : Int}
    (h : CheckRun.Creation.created w req reply = .ok (.int id)) : reply.Creates id := by
  unfold CheckRun.Creation.created at h
  split at h
  · rename_i v hjson
    obtain ⟨status, rfl, hs⟩ := answered_of_json hjson
    unfold CheckRun.Creation.idOf at h
    split at h
    · rename_i ms
      split at h
      · cases h
      · rename_i id' _ hid
        obtain rfl := Except.ok.inj h
        exact ⟨status, ms, rfl, hs, hid⟩
      · cases h
    · cases h
  · cases h

end Reply

namespace CheckRun

def upTo (pages : Nat → Listing) (n : Nat) : List CheckRun :=
  (List.range' 1 n).flatMap fun m ↦ (pages m).runs

def pagesFor (entries : Nat) : Nat := max 1 ((entries + (Page.size - 1)) / Page.size)

theorem pagesFor_le_iff {entries n : Nat} (hn : 1 ≤ n) :
    pagesFor entries ≤ n ↔ entries ≤ Page.size * n := by
  have hs : Page.size = 100 := rfl
  rw [pagesFor, hs]
  omega

structure Ends (pages : Nat → Listing) (k : Nat) : Prop where
  pos : 1 ≤ k
  full : ∀ n, 1 ≤ n → n < k → 100 ≤ (pages n).runs.length
  announced : ∀ n, 1 ≤ n → n < k → ((upTo pages n).length : Int) < (pages n).total
  last : (pages k).runs.length < 100 ∨ (pages k).total ≤ (upTo pages k).length

namespace Query

def pageRequests (q : Query) (i : Identity) (k : Nat) : List Request :=
  (List.range' 1 k).map (q.pageRequest i)

theorem pageRequests_succ (q : Query) (i : Identity) (m : Nat) :
    q.pageRequests i (m + 1) = q.pageRequests i m ++ [q.pageRequest i (m + 1)] := by
  rw [pageRequests, List.range'_1_concat, List.map_append, Nat.add_comm 1 m]
  rfl

end Query

theorem upTo_succ (pages : Nat → Listing) (m : Nat) :
    upTo pages (m + 1) = upTo pages m ++ (pages (m + 1)).runs := by
  rw [upTo, List.range'_1_concat, List.flatMap_append, List.flatMap_singleton, Nat.add_comm 1 m]
  rfl

theorem upTo_congr {pages pages' : Nat → Listing} {n : Nat}
    (h : ∀ m, 1 ≤ m → m ≤ n → pages m = pages' m) : upTo pages n = upTo pages' n := by
  refine List.flatMap_congr fun m hm ↦ ?_
  obtain ⟨hpos, hlt⟩ := List.mem_range'_1.1 hm
  rw [h m hpos (by omega)]

variable {w : Server} {s : Scope} {q : Query} {g : Goal} {pages : Nat → Listing} {k : Nat}

namespace Scan

theorem isLast_iff {b : Listing} {all : List CheckRun} :
    isLast b all = true ↔ b.runs.length < 100 ∨ b.total ≤ all.length := by
  rw [isLast, Bool.or_eq_true, decide_eq_true_eq, decide_eq_true_eq]
  rfl

theorem isLast_of_lt (he : Ends pages k) {n : Nat} (hn : 1 ≤ n) (hk : n < k) :
    isLast (pages n) (upTo pages n) = false := by
  rw [← Bool.not_eq_true, isLast_iff, not_or, Nat.not_lt, Int.not_le]
  exact ⟨he.full n hn hk, he.announced n hn hk⟩

variable (ht : s.client.identity.token.truthy = true) (he : Ends pages k)
  (hpage : ∀ n, 1 ≤ n → n ≤ k → batch (q.pageRequest s.client.identity n)
    (w.reply (q.pageRequests s.client.identity n) (q.pageRequest s.client.identity n)) =
      .ok (pages n))

include ht he hpage

theorem plays_from (d : Nat) : ∀ m, m + 1 + d = k →
    Plays w (fun _ ↦ resume) (q.pageRequests s.client.identity m)
      (.send s (.ok (q.pageRequest s.client.identity (m + 1))) ⟨q, m + 1, upTo pages m⟩)
      ⟨s, .ok ⟨(pages k).total, upTo pages k⟩, q.pageRequests s.client.identity k⟩ := by
  -- On the number of pages that come after this one.
  induction d with
  | zero =>
    rintro m rfl
    have hlast := isLast_iff.2 he.last
    refine .request ?_
    rw [← Query.pageRequests_succ]
    simp only [resume, hpage (m + 1) he.pos (Nat.le_refl _), Turn.ofExcept_ok, ← upTo_succ]
    rw [Nat.add_zero] at hlast
    rw [hlast, if_pos rfl]
    exact .finish _
  | succ d ih =>
    intro m hk
    have hn : 1 ≤ m + 1 := Nat.le_add_left 1 m
    have hmore := isLast_of_lt he hn (by omega)
    refine .request ?_
    rw [← Query.pageRequests_succ]
    simp only [resume, hpage (m + 1) hn (by omega), Turn.ofExcept_ok, ← upTo_succ, hmore,
      Bool.false_eq_true, if_false, Query.request_eq ht]
    exact ih (m + 1) (by omega)

theorem plays_pages : Plays w (fun _ ↦ resume) [] (start q s)
    ⟨s, .ok ⟨(pages k).total, upTo pages k⟩, q.pageRequests s.client.identity k⟩ := by
  have hcount : 0 + 1 + (k - 1) = k := by
    have hk := he.pos
    omega
  rw [start, Query.request_eq ht]
  exact plays_from ht he hpage (k - 1) 0 hcount

end Scan

/-- What a look for a run finds among the check runs that were listed, given the count that the last
page announced. -/
inductive Finds (run : String) (total : Int) (listed : List CheckRun) : Option Int → Prop
  | first {before after : List CheckRun} {r : CheckRun} (ht : total ≠ 0)
      (hl : listed = before ++ r :: after) (hr : r.externalId = some run)
      (hb : ∀ r' ∈ before, r'.externalId ≠ some run) : Finds run total listed (some r.id)
  | uncounted (ht : total = 0) : Finds run total listed none
  | unnamed (hl : ∀ r ∈ listed, r.externalId ≠ some run) : Finds run total listed none

theorem Finds.find?_eq {run : String} {total : Int} {listed : List CheckRun} {found : Option Int}
    (h : Finds run total listed found) : Lookup.find? run ⟨total, listed⟩ = found := by
  cases h with
  | @first before after r ht hl hr hb =>
    have hbefore : before.find? (·.externalId == some run) = none :=
      List.find?_eq_none.2 fun r' hr' h ↦ hb r' hr' (beq_iff_eq.1 h)
    have hfirst : (r.externalId == some run) = true := beq_iff_eq.2 hr
    have hcounted : ¬ (total == 0) = true := fun h ↦ ht (beq_iff_eq.1 h)
    simp only [Lookup.find?, if_neg hcounted, hl, List.find?_append, hbefore, Option.none_or,
      List.find?_cons, hfirst, Option.map_some]
  | uncounted ht => simp only [Lookup.find?, ht, beq_self_eq_true, if_true]
  | unnamed hl =>
    have hnone : listed.find? (·.externalId == some run) = none :=
      List.find?_eq_none.2 fun r hr h ↦ hl r hr (beq_iff_eq.1 h)
    simp only [Lookup.find?, hnone, Option.map_none, ite_self]

namespace Lookup

theorem finds_of_find? {run : String} {l : Listing} {found : Option Int}
    (h : find? run l = found) : Finds run l.total l.runs found := by
  subst h
  unfold find?
  split
  · rename_i ht
    exact .uncounted (beq_iff_eq.1 ht)
  · rename_i ht
    cases hf : l.runs.find? (·.externalId == some run) with
    | none =>
      refine .unnamed fun r hr h ↦ ?_
      exact List.find?_eq_none.1 hf r hr (beq_iff_eq.2 h)
    | some r =>
      obtain ⟨hr, before, after, hl, hb⟩ := List.find?_eq_some_iff_append.1 hf
      refine .first (mt beq_iff_eq.2 ht) hl (beq_iff_eq.1 hr) fun r' hr' h ↦ ?_
      simpa [h] using hb r' hr'

theorem plays_of_scan {l : Listing} {asked : List Request} (run : String)
    (h : Plays w (fun _ ↦ Scan.resume) [] (Scan.start q s) ⟨s, .ok l, asked⟩) :
    Plays w (fun _ ↦ resume) [] (start run q s) ⟨s, .ok (find? run l), asked⟩ := by
  refine h.andThen (fun _ _ _ _ _ ↦ rfl) ?_
  cases hf : find? run l with
  | none =>
    simp only [settle, hf]
    exact .finish _
  | some id =>
    simp only [settle, hf]
    exact .log (.finish _)

end Lookup

namespace Creation

def request (w : StatusWrite) (i : Identity) (startedAt : String) : Request :=
  ⟨"POST", i.apiUrl ++ path w.event, i.token, some (payload w startedAt), none⟩

theorem url_path (e : Event) (i : Identity) : i.url (path e) = i.apiUrl ++ path e := by
  simp only [path, String.append_assoc, Identity.url_repos]

theorem send_eq {c : Client} (ht : c.identity.token.truthy = true) (w : StatusWrite)
    (startedAt : String) :
    c.send "POST" (path w.event) (payload w startedAt) = .ok (request w c.identity startedAt) := by
  rw [Client.send, Client.request_of_truthy ht, url_path, request]

end Creation

namespace Ensure

theorem start_eq_inside {caller : Caller} (hn : s.client.runs.load g.run = none)
    (ho : (s.client.runs.lock g.run).isOpen = true) :
    start caller g s = inside caller.now g (s.attach.mapLock g.run (·.grant caller.task)) := by
  have hn' : s.attach.client.runs.load g.run = none := hn
  have ho' : (s.attach.client.runs.lock g.run).isOpen = true := ho
  simp only [start, hn', ho', if_true, enter]

def kept (run : String) : Except Failure Value → Except Failure Int
  | .ok (.int id) => .ok id
  | .ok v => .error (.corruptId v run)
  | .error f => .error f

theorem next_conclude (g : Goal) (s : Scope) (r : Except Failure Value) :
    (conclude g s r).next = .done (kept g.run r) := by
  cases r with
  | error f => rfl
  | ok v => cases v <;> rfl

theorem identity_conclude (g : Goal) (s : Scope) (r : Except Failure Value) :
    (conclude g s r).scope.client.identity = s.client.identity := by
  cases r with
  | error f => rfl
  | ok v => cases v <;> rfl

theorem plays_conclude (r : Except Failure Value) (asked : List Request) :
    ∃ s', s'.client.identity = s.client.identity ∧
      Plays w resume asked (conclude g s r) ⟨s', kept g.run r, asked⟩ :=
  ⟨_, identity_conclude g s r, .done (next_conclude g s r)⟩

variable {asked : List Request} (hn : s.client.runs.load g.run = none)

include hn

theorem plays_inside {found : Option Int} {e : Ending Int}
    (hl : Plays w (fun _ ↦ Lookup.resume) [] (Lookup.start g.run g.query s) ⟨s, .ok found, asked⟩)
    (h : Plays w resume asked (afterLookup (w.clock asked) g s (.ok found)) e) :
    Plays w resume [] (inside (w.clock []) g s) e := by
  have hi : inside (w.clock []) g s =
      (Lookup.start g.run g.query s).followedBy (.looking g) (afterLookup (w.clock []) g) := by
    simp only [inside, hn]
  rw [hi]
  exact Plays.followedByAt (fun now ↦ afterLookup now g) (fun _ _ _ _ _ ↦ rfl) hl h

theorem plays_found {id : Int} (hl : Plays w (fun _ ↦ Lookup.resume) []
      (Lookup.start g.run g.query s) ⟨s, .ok (some id), asked⟩) :
    ∃ s', s'.client.identity = s.client.identity ∧
      Plays w resume [] (inside (w.clock []) g s) ⟨s', .ok id, asked⟩ := by
  obtain ⟨s', hi, hp⟩ := @plays_conclude w s g (.ok (.int id)) asked
  exact ⟨s', hi, plays_inside hn hl hp⟩

/-- Whatever the answer to it, the request for a new check run is the last. -/
theorem plays_created (ht : s.client.identity.token.truthy = true) {startedAt : String}
    {made : Request} (hm : Creation.request g.write s.client.identity startedAt = made)
    (hc : (w.clock asked).stamp? = some startedAt) (hl : Plays w (fun _ ↦ Lookup.resume) []
      (Lookup.start g.run g.query s) ⟨s, .ok none, asked⟩) :
    ∃ s', s'.client.identity = s.client.identity ∧
      Plays w resume [] (inside (w.clock []) g s)
        ⟨s', kept g.run (Creation.created g.write made (w.reply (asked ++ [made]) made)),
          asked ++ [made]⟩ := by
  have hsend : afterLookup (w.clock asked) g s (.ok none) =
      ⟨s, [], .send made (.creating g ⟨g.write⟩)⟩ := by
    simp only [afterLookup, Creation.start, hc, Creation.send_eq ht, Turn.send_ok,
      Turn.followedBy_send, hm]
  have hanswer : ∃ s', s'.client.identity = s.client.identity ∧
      Plays w resume (asked ++ [made]) ((creating g ⟨g.write⟩).resume (w.clock (asked ++ [made]))
        made (w.reply (asked ++ [made]) made) s)
        ⟨s', kept g.run (Creation.created g.write made (w.reply (asked ++ [made]) made)),
          asked ++ [made]⟩ := by
    simp only [resume, Creation.resume]
    cases Creation.created g.write made (w.reply (asked ++ [made]) made) with
    | error f => exact @plays_conclude w s g (.error f) (asked ++ [made])
    | ok v =>
      obtain ⟨s', hi, hp⟩ := @plays_conclude w s g (.ok v) (asked ++ [made])
      exact ⟨s', hi, hp.congr rfl rfl⟩
  obtain ⟨s', hi, hp⟩ := hanswer
  refine ⟨s', hi, plays_inside hn hl ?_⟩
  rw [hsend]
  exact .send rfl hp

end Ensure
end CheckRun
end StatusRelay
