import StatusRelay.Proofs.Time.Spelling

namespace StatusRelay.Moment

open Rfc3339

/-- A moment that a timestamp can denote: in range, on a clock that differs from universal time by
whole minutes. -/
structure Timed (m : Moment) : Prop where
  valid : m.Valid
  offset_mod : m.offset.natAbs % 60 = 0

theorem timed_zero : zero.Timed := ⟨by decide, by decide⟩

def spelling (m : Moment) : Spelling where
  date := m.date
  mark := 'T'
  hour := m.hour
  minute := m.minute
  second := m.second
  fraction := if m.micro = 0 then [] else padded 6 m.micro
  zone := .shifted (if m.offset < 0 then '-' else '+') (m.offset.natAbs / 3600)
    (m.offset.natAbs / 60 % 60)

variable {m : Moment}

theorem real_spelling (h : m.Timed) : m.spelling.Real := by
  obtain ⟨⟨hdate, hhour, hminute, hsecond, -, ho⟩, -⟩ := h
  refine ⟨hdate, .inl rfl, hhour, hminute, hsecond, ?_, ?_, ?_, ?_⟩
  · intro c hc
    simp only [spelling] at hc
    split at hc
    · cases hc
    · exact isAsciiDigit_of_mem_padded hc
  · by_cases hneg : m.offset < 0 <;> simp [hneg]
  · omega
  · omega

theorem micro_spelling (h : m.Valid) : m.spelling.micro = m.micro := by
  obtain ⟨-, -, -, -, hmicro, -⟩ := h
  by_cases hm : m.micro = 0
  · simp only [Spelling.micro, spelling, hm, if_true]
    rfl
  · have hlen : (padded 6 m.micro).length = 6 :=
      length_padded (by decide) (show m.micro < 1000000 by omega)
    simp only [Spelling.micro, spelling, hm, if_false, ofDigitChars_padded, hlen]
    exact Nat.mul_div_cancel _ (by decide)

theorem offset_spelling (h : m.Timed) : m.spelling.zone.offset = m.offset := by
  have hmod := h.offset_mod
  by_cases hneg : m.offset < 0
  · simp only [spelling, Zone.offset, hneg, if_true]
    omega
  · have hsign : ('+' = '-') = False := by decide
    simp only [spelling, Zone.offset, hneg, if_false, hsign]
    omega

theorem moment_spelling (h : m.Timed) : m.spelling.moment = m := by
  rw [Spelling.moment, micro_spelling h.valid, offset_spelling h]
  rfl

theorem text_spelling (h : m.Timed) : m.spelling.text = m.isoText := by
  have hfraction : m.spelling.fractionText =
      if m.micro == 0 then [] else '.' :: padded 6 m.micro := by
    by_cases hm : m.micro = 0
    · simp [Spelling.fractionText, spelling, hm]
    · have hne : padded 6 m.micro ≠ [] := by
        simp [padded, FloatLayout.padLeft, Nat.toDigits_ne_nil]
      simp [Spelling.fractionText, spelling, hm, hne]
  have hzone : m.spelling.zone.text = offsetText m.offset := by
    simp only [spelling, Zone.text, offsetText, h.offset_mod, beq_self_eq_true, if_true,
      List.append_nil]
  rw [Spelling.text, hfraction, hzone]
  simp [isoText, dayText, clockText, spelling]

theorem timed_of_moment? {s : Rfc3339.Shape} (h : s.moment? = some m) : m.Timed := by
  simp only [Shape.moment?, Option.bind_eq_bind, Option.bind_eq_some_iff,
    Option.ite_none_right_eq_some, Option.some.injEq] at h
  obtain ⟨_, -, _, -, _, -, _, -, _, -, _, -, _, -, offset, ho, hv, rfl⟩ := h
  refine ⟨hv, ?_⟩
  cases hz : s.zone with
  | none =>
    rw [hz] at ho
    cases ho
    rfl
  | some zone =>
    obtain ⟨sign, hours, minutes⟩ := zone
    simp only [hz, offset?, Option.bind_eq_bind, Option.bind_eq_some_iff,
      Option.ite_none_right_eq_some, Option.some.injEq] at ho
    obtain ⟨h, -, mi, -, -, rfl⟩ := ho
    dsimp only
    split <;> omega

end StatusRelay.Moment
