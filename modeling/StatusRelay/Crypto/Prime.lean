
namespace StatusRelay.Prime

def powMod (b e m : Nat) : Nat :=
  if e = 0 then 1 % m
  else
    let h := powMod (b * b % m) (e / 2) m
    if e % 2 = 1 then b * h % m else h
termination_by e

def oddPart (n : Nat) : Nat × Nat :=
  if _h : 0 < n ∧ n % 2 = 0 then
    let (d, s) := oddPart (n / 2)
    (d, s + 1)
  else (n, 0)
termination_by n

def reachesMinusOne (n : Nat) : Nat → Nat → Bool
  | 0, _ => false
  | k + 1, x => x == n - 1 || reachesMinusOne n k (x * x % n)

def passesBase (n base : Nat) : Bool :=
  let (d, s) := oddPart (n - 1)
  let x := powMod base d n
  x == 1 || reachesMinusOne n s x

/-- The quadratic character of `a` modulo an odd `n`, extended to all odd numbers. -/
def jacobi (a n : Nat) : Int :=
  if a = 0 then if n = 1 then 1 else 0
  else if a % 2 = 0 then
    if n % 8 = 3 ∨ n % 8 = 5 then -jacobi (a / 2) n else jacobi (a / 2) n
  else if a % 4 = 3 ∧ n % 4 = 3 then -jacobi (n % a) a
  else jacobi (n % a) a
termination_by a
decreasing_by all_goals first | omega | exact Nat.mod_lt _ (by omega)

def discriminant (i : Nat) : Int :=
  let size : Int := 2 * i + 5
  if i % 2 = 0 then size else -size

/-- The first discriminant that is no square modulo `n`. For a square `n` there is none. -/
def discriminant? (n : Nat) : Option Int :=
  ((List.range 100).map discriminant).find? fun d ↦ jacobi (d % n).toNat n == -1

def half (n x : Nat) : Nat :=
  let y := x % n
  if y % 2 = 0 then y / 2 else (y + n) / 2

/-- The `k`-th members of the two Lucas sequences with parameters 1 and `q`, and `q ^ k`, all
modulo `n`; `d` is the discriminant `1 - 4 * q`. -/
def lucas (n d q k : Nat) : Nat × Nat × Nat :=
  if k = 0 then (0, 2 % n, 1 % n)
  else
    let (u, v, w) := lucas n d q (k / 2)
    let u2 := u * v % n
    let v2 := (v * v + 2 * (n - w)) % n
    let w2 := w * w % n
    if k % 2 = 0 then (u2, v2, w2) else (half n (u2 + v2), half n (d * u2 + v2), w2 * q % n)
termination_by k

def passesLucas (n : Nat) : Bool :=
  match discriminant? n with
  | none => false
  | some d => (lucas n (d % n).toNat ((1 - d) / 4 % n).toNat (n + 1)).1 == 0

def smallPrimes : List Nat := [2, 3, 5, 7, 11, 13, 17, 19, 23, 29, 31, 37]

/-- A number without small divisors is taken for a prime if it passes a power test to base 2 and a
Lucas test. No composite number is known that passes both. -/
def isProbablePrime (n : Nat) : Bool :=
  smallPrimes.contains n ||
    (1 < n && smallPrimes.all (n % · != 0) && passesBase n 2 && passesLucas n)

end StatusRelay.Prime
