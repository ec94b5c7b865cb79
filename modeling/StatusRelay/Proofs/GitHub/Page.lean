import StatusRelay.GitHub.Client

namespace StatusRelay.Page

variable {α : Type} {size n k : Nat} {l : List α}

def slice (size page : Nat) (l : List α) : List α := (l.drop (size * (page - 1))).take size

theorem take_append_slice (size : Nat) (h : 1 ≤ n) (l : List α) :
    l.take (size * (n - 1)) ++ slice size n l = l.take (size * n) := by
  obtain ⟨m, rfl⟩ : ∃ m, n = m + 1 := ⟨n - 1, by omega⟩
  have hm : size * (m + 1) = size * m + size := Nat.mul_succ size m
  rw [slice, Nat.add_sub_cancel, hm, List.take_add]

theorem length_slice (size : Nat) :
    (slice size n l).length = min size (l.length - size * (n - 1)) := by
  rw [slice, List.length_take, List.length_drop]

def lastShort (size length : Nat) : Nat := length / size + 1

theorem length_slice_of_lt (hs : 0 < size) (hn : 1 ≤ n) (hk : n < lastShort size l.length) :
    (slice size n l).length = size := by
  obtain ⟨m, rfl⟩ : ∃ m, n = m + 1 := ⟨n - 1, by omega⟩
  have hle : m + 1 ≤ l.length / size := Nat.lt_succ_iff.1 hk
  have hmul : (m + 1) * size ≤ l.length := (Nat.le_div_iff_mul_le hs).1 hle
  rw [Nat.succ_mul, Nat.mul_comm] at hmul
  rw [length_slice, Nat.add_sub_cancel]
  omega

theorem length_slice_lastShort (hs : 0 < size) :
    (slice size (lastShort size l.length) l).length < size := by
  have hlt : l.length < size * (l.length / size) + size := Nat.lt_mul_div_succ l.length hs
  rw [length_slice, lastShort, Nat.add_sub_cancel]
  omega

theorem flatMap_slice (size k : Nat) (l : List α) :
    (List.range' 1 k).flatMap (slice size · l) = l.take (size * k) := by
  induction k with
  | zero => simp
  | succ k ih =>
    rw [List.range'_concat, List.flatMap_append, ih, List.flatMap_singleton, Nat.one_mul,
      Nat.add_comm 1 k]
    exact take_append_slice size (Nat.le_add_left 1 k) l

/-- The pages up to the first short one are the whole list. -/
theorem flatMap_slice_lastShort (hs : 0 < size) (l : List α) :
    (List.range' 1 (lastShort size l.length)).flatMap (slice size · l) = l := by
  have hlt : l.length < size * lastShort size l.length := Nat.lt_mul_div_succ l.length hs
  rw [flatMap_slice, List.take_of_length_le (Nat.le_of_lt hlt)]

end StatusRelay.Page
