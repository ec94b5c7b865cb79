import Mathlib.Order.Monotone.Basic
import Mathlib.Data.Nat.Init
import StatusRelay.Time.Moment

namespace StatusRelay

namespace Date

variable {year month n : Nat}

/-- Days before the year that follows whole cycles of 400, 100, 4 and 1 years. -/
theorem daysBeforeYear_cycles {a b c d : Nat} (hb : b ≤ 3) (hc : c ≤ 24) (hd : d ≤ 3) :
    daysBeforeYear (400 * a + 100 * b + 4 * c + d + 1) =
      146097 * a + 36524 * b + 1461 * c + 365 * d := by
  have h4 : (400 * a + 100 * b + 4 * c + d) / 4 = 100 * a + 25 * b + c := by omega
  have h100 : (400 * a + 100 * b + 4 * c + d) / 100 = 4 * a + b := by omega
  have h400 : (400 * a + 100 * b + 4 * c + d) / 400 = a := by omega
  rw [daysBeforeYear, Nat.add_sub_cancel, h4, h100, h400]
  omega

def daysInYear (year : Nat) : Nat := if isLeap year then 366 else 365

theorem isLeap_iff : isLeap year = true ↔ 4 ∣ year ∧ (¬ 100 ∣ year ∨ 400 ∣ year) := by
  simp [isLeap, Nat.dvd_iff_mod_eq_zero]

theorem daysBeforeYear_succ (h : 1 ≤ year) :
    daysBeforeYear (year + 1) = daysBeforeYear year + daysInYear year := by
  obtain ⟨y, rfl⟩ := Nat.exists_eq_add_of_le' h
  have h100 : 100 ∣ y + 1 → 4 ∣ y + 1 := Nat.dvd_trans (by decide)
  have h400 : 400 ∣ y + 1 → 100 ∣ y + 1 := Nat.dvd_trans (by decide)
  simp only [daysBeforeYear, daysInYear, isLeap_iff, Nat.add_sub_cancel, Nat.succ_div]
  by_cases h4 : 4 ∣ y + 1
  · by_cases h1 : 100 ∣ y + 1
    · by_cases h0 : 400 ∣ y + 1
      · simp only [h4, h1, h0, if_true, not_true, false_or, and_self]
        omega
      · simp only [h4, h1, h0, if_true, if_false, not_true, false_or, and_false]
        omega
    · have h0 : ¬ 400 ∣ y + 1 := mt h400 h1
      simp only [h4, h1, h0, if_true, if_false, not_false_iff, or_false, and_self]
      omega
  · have h1 : ¬ 100 ∣ y + 1 := mt h100 h4
    have h0 : ¬ 400 ∣ y + 1 := mt h400 h1
    simp only [h4, h1, h0, if_false, false_and]
    omega

theorem daysBeforeYear_mono {year' : Nat} (h : year ≤ year') :
    daysBeforeYear year ≤ daysBeforeYear year' := by
  apply monotone_nat_of_le_succ _ h
  intro y
  cases y with
  | zero => decide
  | succ y =>
    rw [daysBeforeYear_succ (Nat.succ_pos y)]
    exact Nat.le_add_right _ _

theorem daysBeforeMonth_succ (h : 1 ≤ month) :
    daysBeforeMonth year (month + 1) = daysBeforeMonth year month + daysInMonth year month := by
  obtain ⟨m, rfl⟩ := Nat.exists_eq_add_of_le' h
  rfl

theorem daysBeforeMonth_thirteen : daysBeforeMonth year 13 = daysInYear year := by
  simp only [daysBeforeMonth, daysInMonth, daysInYear]
  split <;> rfl

theorem yearOf_spec (n : Nat) :
    1 ≤ yearOf n ∧ daysBeforeYear (yearOf n) ≤ n ∧
      n < daysBeforeYear (yearOf n) + daysInYear (yearOf n) := by
  unfold yearOf
  extract_lets n400 c100 n100 n4 c1
  have h400 : n400 < 146097 := Nat.mod_lt _ (by decide)
  have hn : n = 146097 * (n / 146097) + n400 := (Nat.div_add_mod n 146097).symm
  -- Each quotient becomes a variable in its turn, so that the rest is linear.
  generalize n / 146097 = a at *
  clear_value n400
  have hc100 : c100 ≤ 3 := Nat.min_le_right _ _
  have hn100 : n400 = 36524 * c100 + n100 ∧ (n100 < 36524 ∨ c100 = 3 ∧ n100 = 36524) := by omega
  clear_value n100 c100
  have hc4 : n100 / 1461 ≤ 24 := by omega
  have hn4 : n100 = 1461 * (n100 / 1461) + n4 := (Nat.div_add_mod n100 1461).symm
  have hn4' : n4 < 1461 := Nat.mod_lt _ (by decide)
  generalize n100 / 1461 = c4 at *
  clear_value n4
  have hc1 : c1 ≤ 3 := Nat.min_le_right _ _
  have hn1 : 365 * c1 ≤ n4 ∧ (n4 < 365 * c1 + 365 ∨ c1 = 3 ∧ n4 = 1460) := by omega
  clear_value c1
  rw [daysBeforeYear_cycles hc100 hc4 hc1, daysInYear]
  refine ⟨Nat.le_add_left 1 _, by omega, ?_⟩
  split
  · omega
  · rename_i hleap
    rw [isLeap_iff] at hleap
    omega

/-- A day is counted off through the months from `month` on, of which `left` may be passed by. -/
theorem monthAndDay_spec {left rest m d : Nat} (h : monthAndDay year left month rest = (m, d))
    (hmonth : 1 ≤ month)
    (hrest : daysBeforeMonth year month + rest < daysBeforeMonth year (month + left + 1)) :
    month ≤ m ∧ m ≤ month + left ∧ 1 ≤ d ∧ d ≤ daysInMonth year m ∧
      daysBeforeMonth year m + d = daysBeforeMonth year month + rest + 1 := by
  induction left generalizing month rest with
  | zero =>
    obtain ⟨rfl, rfl⟩ := Prod.mk.inj h
    rw [Nat.add_zero, daysBeforeMonth_succ hmonth] at hrest
    omega
  | succ left ih =>
    rw [monthAndDay] at h
    split at h
    · obtain ⟨rfl, rfl⟩ := Prod.mk.inj h
      omega
    · have hsucc : daysBeforeMonth year (month + 1) = _ := daysBeforeMonth_succ hmonth
      have hlast : month + 1 + left + 1 = month + (left + 1) + 1 := by omega
      obtain ⟨hm, hm', hd, hd', heq⟩ := ih h (Nat.le_add_left 1 month) (by rw [hlast]; omega)
      omega

/-- A day number is that of the date found for it. -/
theorem ofDayNumber_spec (n : Nat) :
    (ofDayNumber n).dayNumber = n ∧ (n < 3652059 → (ofDayNumber n).Valid) := by
  obtain ⟨hyear, hle, hlt⟩ := yearOf_spec n
  rcases hsplit : monthAndDay (yearOf n) 11 1 (n - daysBeforeYear (yearOf n)) with ⟨m, d⟩
  have hdate : ofDayNumber n = ⟨yearOf n, m, d⟩ := by simp only [ofDayNumber, hsplit]
  have hfirst : daysBeforeMonth (yearOf n) 1 = 0 := rfl
  have hlast : daysBeforeMonth (yearOf n) (1 + 11 + 1) = daysInYear (yearOf n) :=
    daysBeforeMonth_thirteen
  obtain ⟨hm, hm', hd, hd', heq⟩ := monthAndDay_spec hsplit (Nat.le_refl 1) (by omega)
  rw [hdate]
  refine ⟨?_, fun hn ↦ ⟨hyear, ?_, hm, hm', hd, hd'⟩⟩
  · simp only [dayNumber]
    omega
  · by_contra hlate
    have hmono : daysBeforeYear 10000 ≤ daysBeforeYear (yearOf n) :=
      daysBeforeYear_mono (Nat.lt_of_not_le hlate)
    have hlast : daysBeforeYear 10000 = 3652059 := rfl
    omega

end Date

namespace Moment

variable {s : Int} {micro : Nat} {offset : Int} {m : Moment}

theorem exists_ofLocalSeconds? (h₀ : 0 ≤ s) (h : s < localLimit) :
    ∃ m, ofLocalSeconds? s micro offset = some m := ⟨_, if_pos ⟨h₀, h⟩⟩

theorem ofLocalSeconds?_spec (h : ofLocalSeconds? s micro offset = some m) :
    (m.localSeconds : Int) = s ∧ m.micro = micro ∧ m.offset = offset ∧
      (micro ≤ 999999 → offset.natAbs < 86400 → m.Valid) := by
  rw [ofLocalSeconds?] at h
  split at h
  · rename_i hs
    cases h
    have hday : s.toNat / 86400 < 3652059 := by
      have hlimit : localLimit = 3652059 * 86400 := rfl
      omega
    obtain ⟨hnumber, hvalid⟩ := Date.ofDayNumber_spec (s.toNat / 86400)
    refine ⟨?_, rfl, rfl, fun hmicro hoffset ↦ ⟨hvalid hday, ?_, ?_, ?_, hmicro, hoffset⟩⟩
    · simp only [localSeconds, hnumber]
      omega
    all_goals
      dsimp only
      omega
  · cases h

end Moment
end StatusRelay
