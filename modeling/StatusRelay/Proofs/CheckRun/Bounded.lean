import StatusRelay.Proofs.CheckRun.Listed
import StatusRelay.Proofs.CheckRun.Pages

namespace StatusRelay
namespace CheckRun

variable {pages : Nat → Listing} {n k bound : Nat}

/-- Whether a listing goes on after a page: it is full, and announces more than was shown so far. -/
structure GoesOn (pages : Nat → Listing) (n : Nat) : Prop where
  full : Page.size ≤ (pages n).runs.length
  announced : ((upTo pages n).length : Int) < (pages n).total

theorem not_goesOn_iff :
    ¬ GoesOn pages n ↔ (pages n).runs.length < 100 ∨ (pages n).total ≤ (upTo pages n).length := by
  refine ⟨fun h ↦ ?_, fun h hgo ↦ ?_⟩
  · by_contra hlast
    rw [not_or, Nat.not_lt, Int.not_le] at hlast
    exact h ⟨hlast.1, hlast.2⟩
  · obtain hshort | hall := h
    · exact Nat.not_le.2 hshort hgo.full
    · exact Int.not_le.2 hgo.announced hall

theorem Scan.isLast_iff_not_goesOn :
    Scan.isLast (pages n) (upTo pages n) = true ↔ ¬ GoesOn pages n :=
  Scan.isLast_iff.trans not_goesOn_iff.symm

theorem GoesOn.congr {pages' : Nat → Listing} (h : GoesOn pages n)
    (hp : ∀ m, 1 ≤ m → m ≤ n → pages m = pages' m) (hn : 1 ≤ n) : GoesOn pages' n := by
  obtain ⟨hfull, hannounced⟩ := h
  rw [hp n hn (Nat.le_refl n)] at hfull hannounced
  rw [upTo_congr hp] at hannounced
  exact ⟨hfull, hannounced⟩

theorem Ends.goesOn (he : Ends pages k) (hn : 1 ≤ n) (hk : n < k) : GoesOn pages n :=
  ⟨he.full n hn hk, he.announced n hn hk⟩

theorem Ends.eq {k' : Nat} (h : Ends pages k) (h' : Ends pages k') : k = k' := by
  obtain hlt | heq | hlt := Nat.lt_trichotomy k k'
  · exact absurd (h'.goesOn h.pos hlt) (not_goesOn_iff.2 h.last)
  · exact heq
  · exact absurd (h.goesOn h'.pos hlt) (not_goesOn_iff.2 h'.last)

theorem ends_of_goesOn (h : ∀ m, 1 ≤ m → m ≤ n → GoesOn pages m) (hn : ¬ GoesOn pages (n + 1)) :
    Ends pages (n + 1) where
  pos := Nat.le_add_left 1 n
  full m hm hk := (h m hm (Nat.le_of_lt_succ hk)).full
  announced m hm hk := (h m hm (Nat.le_of_lt_succ hk)).announced
  last := not_goesOn_iff.1 hn

theorem ends_or_goesOn (pages : Nat → Listing) (n : Nat) :
    (∃ k, k ≤ n ∧ Ends pages k) ∨ ∀ m, 1 ≤ m → m ≤ n → GoesOn pages m := by
  induction n with
  | zero => exact .inr fun m hm hn ↦ absurd (Nat.le_trans hm hn) (by decide)
  | succ n ih =>
    obtain ⟨k, hk, he⟩ | hall := ih
    · exact .inl ⟨k, Nat.le_succ_of_le hk, he⟩
    by_cases hgo : GoesOn pages (n + 1)
    · refine .inr fun m hm hn ↦ ?_
      obtain hlt | rfl := Nat.lt_or_eq_of_le hn
      · exact hall m hm (Nat.le_of_lt_succ hlt)
      · exact hgo
    · exact .inl ⟨n + 1, Nat.le_refl _, ends_of_goesOn hall hgo⟩

/-- As long as the listing goes on, there are at least as many entries as full pages have. -/
theorem length_upTo_ge (h : ∀ m, 1 ≤ m → m ≤ n → GoesOn pages m) :
    Page.size * n ≤ (upTo pages n).length := by
  induction n with
  | zero => exact Nat.zero_le _
  | succ n ih =>
    have hbefore := ih fun m hm hn ↦ h m hm (Nat.le_succ_of_le hn)
    have hfull := (h (n + 1) (Nat.le_add_left 1 n) (Nat.le_refl _)).full
    rw [upTo_succ, List.length_append, Nat.mul_succ]
    exact Nat.add_le_add hbefore hfull

/-- If no count is above a bound, the listing is over when it has as many entries as that. -/
theorem exists_ends (h : ∀ n, 1 ≤ n → n ≤ pagesFor bound → (pages n).total ≤ bound) :
    ∃ k, k ≤ pagesFor bound ∧ Ends pages k := by
  have hpos : 1 ≤ pagesFor bound := Nat.le_max_left _ _
  obtain hends | hall := ends_or_goesOn pages (pagesFor bound)
  · exact hends
  · have hentries := length_upTo_ge hall
    have hannounced := (hall _ hpos (Nat.le_refl _)).announced
    have htotal := h _ hpos (Nat.le_refl _)
    have hbound := (pagesFor_le_iff hpos).1 (Nat.le_refl (pagesFor bound))
    omega

namespace Scan

variable {w : Server} {q : Query} {s : Scope}

theorem plays_noToken (ht : s.client.identity.token.truthy = false) :
    Plays w (fun _ ↦ resume) [] (start q s) ⟨s, .error .noToken, []⟩ := by
  have hr : q.request s.client 1 = .error .noToken := by
    rw [Query.request, Client.get, Client.request_of_not_truthy ht]
  rw [start, hr]
  exact .finish _

end Scan
end CheckRun

open CheckRun (Ends Goal upTo pagesFor)

namespace System

variable {w : Server} {client : Client} {q : CheckRun.Query} {pages : Nat → CheckRun.Listing}
  {bound : Nat}

/-- Whatever pages a server shows, short or overfull, repeated or overlapping, and however the
counts change that they announce, as long as none of these is above a bound: the listing ends within
the pages that so many entries take. It has asked for the pages from the first one on, each once and
in order, and gives all that they show, with the count that the last one announced. Without a token
it ends before it asks for anything. -/
theorem listing_ends
    (hpages : ∀ n, 1 ≤ n → n ≤ pagesFor bound →
      (w.reply (q.pageRequests client.identity n) (q.pageRequest client.identity n)).Reads
        (pages n))
    (hbound : ∀ n, 1 ≤ n → n ≤ pagesFor bound → (pages n).total ≤ bound) :
    (client.identity.token.truthy = true → ∃ k, 1 ≤ k ∧ k ≤ pagesFor bound ∧ Ends pages k ∧
      EndsAlone w client (.listCheckRuns q) (.ok (.checkRuns ⟨(pages k).total, upTo pages k⟩))
        (q.pageRequests client.identity k)) ∧
      (client.identity.token.truthy = false →
        EndsAlone w client (.listCheckRuns q) (.error .noToken) []) := by
  refine ⟨fun ht ↦ ?_, fun ht ↦ ?_⟩
  · obtain ⟨k, hk, he⟩ := CheckRun.exists_ends hbound
    have hread : ∀ n, 1 ≤ n → n ≤ k →
        CheckRun.Scan.batch (q.pageRequest client.identity n)
          (w.reply (q.pageRequests client.identity n) (q.pageRequest client.identity n)) =
            .ok (pages n) :=
      fun n hn hle ↦ Reply.batch_of_reads (hpages n hn (Nat.le_trans hle hk)) _
    have hplays := CheckRun.Scan.plays_pages (s := ⟨client, RunContext.initial.child⟩) ht he hread
    exact ⟨k, he.pos, hk, he, endsAlone_of_plays (Plays.map (fun _ _ _ _ _ ↦ rfl) hplays)⟩
  · have hplays := @CheckRun.Scan.plays_noToken w q ⟨client, RunContext.initial.child⟩ ht
    exact endsAlone_of_plays (Plays.map (fun _ _ _ _ _ ↦ rfl) hplays)

end System

namespace Sample

def unsteadyPages : Nat → CheckRun.Listing
  | 1 => ⟨250, List.replicate 101 ⟨1, none⟩⟩
  | _ => ⟨201, List.replicate 100 ⟨1, none⟩⟩

def unsteadyServer : Server where
  clock _ := noon
  reply asked _ := .answered ⟨200, .json (unsteadyPages asked.length).shown⟩

theorem unsteadyServer_reads (q : CheckRun.Query) (i : Identity) (n : Nat) :
    (unsteadyServer.reply (q.pageRequests i n) (q.pageRequest i n)).Reads (unsteadyPages n) := by
  have hn : (q.pageRequests i n).length = n := by
    rw [CheckRun.Query.pageRequests, List.length_map, List.length_range']
  have hreply : unsteadyServer.reply (q.pageRequests i n) (q.pageRequest i n) =
      .answered ⟨200, .json (unsteadyPages n).shown⟩ := by
    simp only [unsteadyServer, hn]
  exact ⟨200, _, hreply, by decide, CheckRun.Listing.decode_shown _⟩

theorem unsteadyPages_total_le (n : Nat) : (unsteadyPages n).total ≤ (250 : Nat) := by
  unfold unsteadyPages
  split <;> decide

theorem upTo_unsteadyPages : upTo unsteadyPages 2 = List.replicate 201 ⟨1, none⟩ := by
  rw [CheckRun.upTo_succ, CheckRun.upTo_succ]
  exact List.replicate_append_replicate

theorem unsteadyPages_ends : Ends unsteadyPages 2 where
  pos := by decide
  full n hn hk := by
    obtain rfl : n = 1 := by omega
    simp [unsteadyPages]
  announced n hn hk := by
    obtain rfl : n = 1 := by omega
    simp [unsteadyPages, upTo]
  last := by
    rw [upTo_unsteadyPages, List.length_replicate]
    exact .inr (Int.le_refl _)

end Sample

namespace System

/-- Three pages would be allowed, and the second is the last. -/
theorem listing_ends_unsteady :
    let q : CheckRun.Query := Goal.query ⟨Sample.write, 7⟩
    let i := Sample.client.identity
    i.token.truthy = true ∧ pagesFor 250 = 3 ∧
      (∀ n, 1 ≤ n → n ≤ pagesFor 250 → (Sample.unsteadyServer.reply (q.pageRequests i n)
        (q.pageRequest i n)).Reads (Sample.unsteadyPages n)) ∧
      (∀ n, 1 ≤ n → n ≤ pagesFor 250 → (Sample.unsteadyPages n).total ≤ (250 : Nat)) ∧
      EndsAlone Sample.unsteadyServer Sample.client (.listCheckRuns q)
        (.ok (.checkRuns ⟨201, List.replicate 201 ⟨1, none⟩⟩)) (q.pageRequests i 2) := by
  intro q i
  have hpages := fun (n : Nat) (_ : 1 ≤ n) (_ : n ≤ pagesFor 250) ↦
    Sample.unsteadyServer_reads q i n
  have hbound := fun (n : Nat) (_ : 1 ≤ n) (_ : n ≤ pagesFor 250) ↦
    Sample.unsteadyPages_total_le n
  obtain ⟨hends, -⟩ := listing_ends hpages hbound
  obtain ⟨k, -, -, he, hlisted⟩ := hends rfl
  obtain rfl : k = 2 := he.eq Sample.unsteadyPages_ends
  rw [Sample.upTo_unsteadyPages] at hlisted
  exact ⟨rfl, by decide, hpages, hbound, hlisted⟩

end System
end StatusRelay
