import StatusRelay.CheckRun.Lookup
import StatusRelay.Proofs.GitHub.Page

namespace StatusRelay

open Json (Value)
open Payload (Checked)

namespace Payload.Checked

variable {α : Type} {check : Value → Checked α} {show' : α → Value}

theorem elements_map (h : ∀ a, check (show' a) = .ok a) (l : List α) :
    ∀ start, elements check start (l.map show') = .ok l := by
  induction l with
  | nil => intro start; rfl
  | cons a l ih =>
    intro start
    simp only [List.map_cons, elements, h, ih, under, both, map]

end Payload.Checked

namespace CheckRun

def entry (r : CheckRun) : Value :=
  .obj [("id", .int r.id), ("external_id", .ofOption (r.externalId.map .str))]

@[simp] theorem decode_entry (r : CheckRun) : decode r.entry = .ok r := by
  obtain ⟨id, _ | name⟩ := r <;> rfl

namespace Listing

def shown (l : Listing) : Value :=
  .obj [("total_count", .int l.total), ("check_runs", .arr (l.runs.map entry))]

theorem decode_shown (l : Listing) : decode l.shown = .ok l := by
  have hruns := Checked.elements_map decode_entry l.runs 0
  simp only [decode, shown, Checked.member, Table.get?_cons, if_true,
    String.reduceEq, if_false, Payload.Scalar.whole, Checked.ofExcept, Checked.list, hruns,
    Checked.under, Checked.both, Checked.map]

@[simp] theorem ofBody_shown (l : Listing) : ofBody l.shown = .ok l := by
  rw [ofBody, decode_shown]

def page (n : Nat) (runs : List CheckRun) : Listing := ⟨runs.length, Page.slice Page.size n runs⟩

def answer (n : Nat) (runs : List CheckRun) : Response := ⟨200, .json (page n runs).shown⟩

end Listing

namespace Scan

variable {runs : List CheckRun} {n : Nat}

theorem batch_answer (req : Request) (n : Nat) (runs : List CheckRun) :
    batch req (.answered (Listing.answer n runs)) = .ok (Listing.page n runs) := by
  have hj : (Reply.answered (Listing.answer n runs)).json req =
      .ok (Listing.page n runs).shown := rfl
  rw [batch, hj]
  exact Listing.ofBody_shown _

/-- A page is the last just if there is nothing behind it. -/
theorem isLast_page (h : 1 ≤ n) :
    isLast (Listing.page n runs) (runs.take (Page.size * n)) =
      decide (runs.length ≤ Page.size * n) := by
  have hs : Page.size = 100 := rfl
  have hlen : (Listing.page n runs).runs.length = min 100 (runs.length - 100 * (n - 1)) :=
    Page.length_slice 100
  have htotal : (Listing.page n runs).total = (runs.length : Int) := rfl
  rw [isLast, hlen, htotal, List.length_take, hs, ← Bool.decide_or]
  refine decide_eq_decide.2 ?_
  omega

end Scan

namespace Lookup

variable {run : String} {runs : List CheckRun}

/-- In a listing that counts its runs, nothing is found just if no run has the name. -/
theorem find?_eq_none_iff :
    find? run ⟨runs.length, runs⟩ = none ↔ ∀ r ∈ runs, r.externalId ≠ some run := by
  simp only [find?, beq_iff_eq, Int.natCast_eq_zero]
  split
  · rename_i h
    rw [List.length_eq_zero_iff.1 h]
    simp
  · simp

end Lookup
end CheckRun
end StatusRelay
