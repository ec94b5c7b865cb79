import StatusRelay.Text.Digit

namespace StatusRelay.Text

variable {c d : Char} {ds es cs cs' : List Char}

theorem isAsciiDigit_iff : isAsciiDigit c = true ↔ 0x30 ≤ c.toNat ∧ c.toNat ≤ 0x39 := by
  simp only [isAsciiDigit, Bool.and_eq_true, decide_eq_true_eq, Char.le_def,
    UInt32.le_iff_toNat_le]
  exact Iff.rfl

theorem isDecimalDigit_of_ascii (h : isAsciiDigit c = true) : isDecimalDigit c = true := by
  obtain ⟨hlow, hhigh⟩ := isAsciiDigit_iff.1 h
  simp only [isDecimalDigit, List.any_eq_true, Bool.and_eq_true, decide_eq_true_eq]
  exact ⟨0x30, by decide, hlow, Nat.lt_succ_of_le hhigh⟩

theorem length_toDigits_pow (k : Nat) : (Nat.toDigits 10 (Nat.pow 10 k)).length = k + 1 := by
  induction k with
  | zero => rfl
  | succ k ih =>
    have hsucc : Nat.pow 10 (k + 1) = Nat.pow 10 k * 10 := rfl
    have hpos : 0 < Nat.pow 10 k := Nat.pow_pos (by decide)
    have hbase : 10 ≤ Nat.pow 10 (k + 1) := by omega
    have hdiv : Nat.pow 10 (k + 1) / 10 = Nat.pow 10 k :=
      Nat.mul_div_cancel (Nat.pow 10 k) (by decide)
    rw [Nat.toDigits_of_base_le (by decide) hbase, hdiv, List.length_append, ih,
      List.length_singleton]

theorem digit_lt_iff (hc : isAsciiDigit c = true) :
    c < d ↔ c.toNat - '0'.toNat < d.toNat - '0'.toNat := by
  have hlt : c < d ↔ c.toNat < d.toNat := by
    rw [Char.lt_def, UInt32.lt_iff_toNat_lt]
    exact Iff.rfl
  have hzero : '0'.toNat = 0x30 := rfl
  have hlow := (isAsciiDigit_iff.1 hc).1
  rw [hlt]
  omega

theorem digit_inj (hc : isAsciiDigit c = true) (hd : isAsciiDigit d = true)
    (h : c.toNat - '0'.toNat = d.toNat - '0'.toNat) : c = d := by
  have hzero : '0'.toNat = 0x30 := rfl
  have hlow := (isAsciiDigit_iff.1 hc).1
  have hlow' := (isAsciiDigit_iff.1 hd).1
  apply Char.toNat_inj.1
  omega

theorem ofDigitChars_cons_eq (c : Char) (ds : List Char) :
    Nat.ofDigitChars 10 (c :: ds) 0 =
      Nat.pow 10 ds.length * (c.toNat - '0'.toNat) + Nat.ofDigitChars 10 ds 0 := by
  rw [Nat.ofDigitChars_cons, Nat.ofDigitChars_eq_ofDigitChars_zero, Nat.mul_zero, Nat.zero_add,
    Nat.pow_eq]

theorem ofDigitChars_lt (h : ∀ c ∈ ds, isAsciiDigit c = true) :
    Nat.ofDigitChars 10 ds 0 < Nat.pow 10 ds.length := by
  induction ds with
  | nil => decide
  | cons c ds ih =>
    obtain ⟨hc, hds⟩ := List.forall_mem_cons.1 h
    have hdigit : c.toNat - '0'.toNat ≤ 9 := Nat.sub_le_of_le_add (isAsciiDigit_iff.1 hc).2
    have hmul := Nat.mul_le_mul_left (Nat.pow 10 ds.length) hdigit
    have hrest := ih hds
    have hsucc : Nat.pow 10 (ds.length + 1) = Nat.pow 10 ds.length * 10 := rfl
    rw [ofDigitChars_cons_eq, List.length_cons, hsucc]
    omega

theorem ofDigitChars_append_div (h : ∀ c ∈ es, isAsciiDigit c = true) :
    Nat.ofDigitChars 10 (ds ++ es) 0 / Nat.pow 10 es.length = Nat.ofDigitChars 10 ds 0 := by
  have hes := ofDigitChars_lt h
  rw [Nat.ofDigitChars_append, Nat.ofDigitChars_eq_ofDigitChars_zero, Nat.pow_eq]
  rw [Nat.pow_eq] at hes
  rw [Nat.mul_add_div (Nat.pow_pos (by decide)), Nat.div_eq_of_lt hes, Nat.add_zero]

/-- The upper part of a number decides, and only else the lower part. -/
theorem leading_lt_or_iff {p x y u v : Nat} (hu : u < p) (hv : v < p) (q : Prop) :
    (p * x + u < p * y + v ∨ p * x + u = p * y + v ∧ q) ↔
      x < y ∨ x = y ∧ (u < v ∨ u = v ∧ q) := by
  rcases Nat.lt_trichotomy x y with h | rfl | h
  · have hmul := Nat.mul_le_mul_left p (Nat.succ_le_of_lt h)
    rw [Nat.mul_succ] at hmul
    exact iff_of_true (.inl (by omega)) (.inl h)
  · simp
  · have hmul := Nat.mul_le_mul_left p (Nat.succ_le_of_lt h)
    rw [Nat.mul_succ] at hmul
    exact iff_of_false (by omega) (by omega)

/-- Texts that begin with as many digits are ordered by the numbers of these, and only else by what
comes after them. -/
theorem append_lt_append_iff (hlen : ds.length = es.length)
    (hds : ∀ c ∈ ds, isAsciiDigit c = true) (hes : ∀ c ∈ es, isAsciiDigit c = true) :
    ds ++ cs < es ++ cs' ↔ Nat.ofDigitChars 10 ds 0 < Nat.ofDigitChars 10 es 0 ∨
      Nat.ofDigitChars 10 ds 0 = Nat.ofDigitChars 10 es 0 ∧ cs < cs' := by
  induction ds generalizing es with
  | nil =>
    obtain rfl : es = [] := List.length_eq_zero_iff.1 hlen.symm
    simp
  | cons c ds ih =>
    obtain _ | ⟨d, es⟩ := es
    · cases hlen
    obtain ⟨hc, hds⟩ := List.forall_mem_cons.1 hds
    obtain ⟨hd, hes⟩ := List.forall_mem_cons.1 hes
    have hlen : ds.length = es.length := Nat.succ.inj hlen
    have hlow := ofDigitChars_lt hds
    have hlow' := ofDigitChars_lt hes
    rw [← hlen] at hlow'
    have hsame : c = d ↔ c.toNat - '0'.toNat = d.toNat - '0'.toNat :=
      ⟨fun h ↦ h ▸ rfl, digit_inj hc hd⟩
    rw [List.cons_append, List.cons_append, List.cons_lt_cons_iff, ih hlen hds hes,
      digit_lt_iff hc, hsame, ofDigitChars_cons_eq, ofDigitChars_cons_eq, ← hlen,
      leading_lt_or_iff hlow hlow']

theorem digits_lt_iff (hlen : ds.length = es.length) (hds : ∀ c ∈ ds, isAsciiDigit c = true)
    (hes : ∀ c ∈ es, isAsciiDigit c = true) :
    ds < es ↔ Nat.ofDigitChars 10 ds 0 < Nat.ofDigitChars 10 es 0 := by
  have hiff := @append_lt_append_iff ds es [] [] hlen hds hes
  simpa using hiff

theorem ofDigitChars_inj (hlen : ds.length = es.length) (hds : ∀ c ∈ ds, isAsciiDigit c = true)
    (hes : ∀ c ∈ es, isAsciiDigit c = true)
    (h : Nat.ofDigitChars 10 ds 0 = Nat.ofDigitChars 10 es 0) : ds = es := by
  have hlt : ¬ ds < es := by
    rw [digits_lt_iff hlen hds hes, h]
    exact Nat.lt_irrefl _
  have hgt : ¬ es < ds := by
    rw [digits_lt_iff hlen.symm hes hds, h]
    exact Nat.lt_irrefl _
  exact List.le_antisymm (List.not_lt.1 hgt) (List.not_lt.1 hlt)

end StatusRelay.Text
