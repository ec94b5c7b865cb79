import Mathlib.Data.List.Basic
import StatusRelay.Crypto.Base64

namespace StatusRelay.Base64

def sextets : Bytes → List Nat
  | [] => []
  | [x] => [x.toNat / 4, x.toNat % 4 * 16]
  | [x, y] => [x.toNat / 4, x.toNat % 4 * 16 + y.toNat / 16, y.toNat % 16 * 4]
  | x :: y :: z :: rest =>
    x.toNat / 4 :: (x.toNat % 4 * 16 + y.toNat / 16) :: (y.toNat % 16 * 4 + z.toNat / 64) ::
      z.toNat % 64 :: sextets rest

theorem lt_of_mem_sextets {bs : Bytes} {n : Nat} (h : n ∈ sextets bs) : n < 64 := by
  fun_induction sextets bs with
  | case1 => cases h
  | case2 x =>
    have hx := x.toNat_lt
    simp only [List.mem_cons, List.not_mem_nil, or_false] at h
    omega
  | case3 x y =>
    have hx := x.toNat_lt
    have hy := y.toNat_lt
    simp only [List.mem_cons, List.not_mem_nil, or_false] at h
    omega
  | case4 x y z rest ih =>
    have hx := x.toNat_lt
    have hy := y.toNat_lt
    have hz := z.toNat_lt
    simp only [List.mem_cons] at h
    rcases h with h | h | h | h | h
    · omega
    · omega
    · omega
    · omega
    · exact ih h

theorem bytes?_sextets (bs : Bytes) : bytes? (sextets bs) = some bs := by
  fun_induction sextets bs with
  | case1 => rfl
  | case2 x =>
    have hx : x.toNat / 4 * 4 + x.toNat % 4 * 16 / 16 = x.toNat := by omega
    have hlow : x.toNat % 4 * 16 % 16 = 0 := by omega
    simp only [bytes?, hx, hlow, beq_self_eq_true, if_true, UInt8.ofNat_toNat]
  | case3 x y =>
    have hy := y.toNat_lt
    have hx : x.toNat / 4 * 4 + (x.toNat % 4 * 16 + y.toNat / 16) / 16 = x.toNat := by omega
    have hy' : (x.toNat % 4 * 16 + y.toNat / 16) % 16 * 16 + y.toNat % 16 * 4 / 4 = y.toNat := by
      omega
    have hlow : y.toNat % 16 * 4 % 4 = 0 := by omega
    simp only [bytes?, hx, hy', hlow, beq_self_eq_true, if_true, UInt8.ofNat_toNat]
  | case4 x y z rest ih =>
    have hy := y.toNat_lt
    have hz := z.toNat_lt
    have hx : x.toNat / 4 * 4 + (x.toNat % 4 * 16 + y.toNat / 16) / 16 = x.toNat := by omega
    have hy' : (x.toNat % 4 * 16 + y.toNat / 16) % 16 * 16 + (y.toNat % 16 * 4 + z.toNat / 64) / 4 =
      y.toNat := by omega
    have hz' : (y.toNat % 16 * 4 + z.toNat / 64) % 4 * 64 + z.toNat % 64 = z.toNat := by omega
    simp only [bytes?, ih, hx, hy', hz', Option.map_some, UInt8.ofNat_toNat]

variable {a : Alphabet}

theorem encode_eq_map (bs : Bytes) : encode a bs = (sextets bs).map (digit a) := by
  fun_induction sextets bs with
  | case1 => rfl
  | case2 x => rfl
  | case3 x y => rfl
  | case4 x y z rest ih => rw [encode, ih]; rfl

def Alphabet.Faithful (a : Alphabet) : Prop := ∀ n < 64, value? a (digit a n) = some n

theorem faithful_url : url.Faithful := by
  unfold Alphabet.Faithful
  decide

theorem faithful_standard : standard.Faithful := by
  unfold Alphabet.Faithful
  decide

theorem mapM_value?_digit (ha : a.Faithful) {ns : List Nat} (h : ∀ n ∈ ns, n < 64) :
    (ns.map (digit a)).mapM (value? a) = some ns := by
  induction ns with
  | nil => rfl
  | cons n ns ih =>
    obtain ⟨hn, hns⟩ := List.forall_mem_cons.1 h
    rw [List.map_cons, List.mapM_cons, ha n hn, ih hns]
    rfl

theorem decode?_encode (ha : a.Faithful) (bs : Bytes) : decode? a (encode a bs) = some bs := by
  rw [decode?, encode_eq_map, mapM_value?_digit ha fun _ ↦ lt_of_mem_sextets, Option.bind_some,
    bytes?_sextets]

theorem point_not_mem_encode (bs : Bytes) : '.' ∉ encode url bs := by
  have hpoint : ∀ n < 64, digit url n ≠ '.' := by decide
  rw [encode_eq_map]
  intro hmem
  obtain ⟨n, hn, heq⟩ := List.mem_map.1 hmem
  exact hpoint n (lt_of_mem_sextets hn) heq

end StatusRelay.Base64
