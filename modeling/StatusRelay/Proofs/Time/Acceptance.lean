import Mathlib.Data.List.TakeWhile
import StatusRelay.Proofs.Time.Spelling

namespace StatusRelay.Rfc3339

open Text (isAsciiDigit isDecimalDigit ofDigitChars_lt ofDigitChars_inj)
open Moment (padded)

section Digits

variable {ds : List Char} {n : Nat}

theorem number?_eq_some (h : number? ds = some n) :
    (∀ c ∈ ds, isAsciiDigit c = true) ∧ n = Nat.ofDigitChars 10 ds 0 := by
  unfold number? at h
  split at h
  · rename_i hall
    exact ⟨List.all_eq_true.1 hall, (Option.some.inj h).symm⟩
  · cases h

/-- Digits are the written form of their number. -/
theorem padded_ofDigitChars (hpos : 0 < ds.length) (h : ∀ c ∈ ds, isAsciiDigit c = true) :
    padded ds.length (Nat.ofDigitChars 10 ds 0) = ds := by
  have hlen := length_padded hpos (ofDigitChars_lt h)
  apply ofDigitChars_inj hlen
  · intro c hc
    exact isAsciiDigit_of_mem_padded hc
  · exact h
  · exact ofDigitChars_padded

theorem padded_inj {width a b : Nat} (h : padded width a = padded width b) : a = b := by
  have hnumber := congrArg (Nat.ofDigitChars 10 · 0) h
  simpa only [ofDigitChars_padded] using hnumber

end Digits

section Pieces

variable {cs ds rest : List Char} {n k : Nat}

theorem takeDigits_eq_some (h : takeDigits n cs = some (ds, rest)) :
    cs = ds ++ rest ∧ ds.length = n := by
  simp only [takeDigits, Option.ite_none_right_eq_some, Bool.and_eq_true, beq_iff_eq,
    Option.some.injEq, Prod.mk.injEq] at h
  obtain ⟨⟨hlen, -⟩, rfl, rfl⟩ := h
  exact ⟨(List.take_append_drop n cs).symm, hlen⟩

/-- Digits that are read as a number are its written form. -/
theorem takeDigits_eq_padded (hn : 0 < n) (h : takeDigits n cs = some (ds, rest))
    (hk : number? ds = some k) : cs = padded n k ++ rest ∧ k < Nat.pow 10 n := by
  obtain ⟨rfl, rfl⟩ := takeDigits_eq_some h
  obtain ⟨hascii, rfl⟩ := number?_eq_some hk
  exact ⟨by rw [padded_ofDigitChars hn hascii], ofDigitChars_lt hascii⟩

theorem expect_eq_some {p : Char → Bool} (h : expect p cs = some rest) :
    ∃ c, p c = true ∧ cs = c :: rest := by
  cases cs with
  | nil => cases h
  | cons c cs =>
    simp only [expect, Option.ite_none_right_eq_some, Option.some.injEq] at h
    obtain ⟨hc, rfl⟩ := h
    exact ⟨c, hc, rfl⟩

theorem takeFraction_eq (h : takeFraction cs = (ds, rest)) :
    cs = (if ds = [] then [] else '.' :: ds) ++ rest ∧ ∀ c ∈ ds, isDecimalDigit c = true := by
  unfold takeFraction at h
  split at h
  · rename_i after
    simp only [List.span_eq_takeWhile_dropWhile, List.isEmpty_iff] at h
    split at h
    · cases h
      exact ⟨rfl, by simp⟩
    · rename_i hne
      cases h
      refine ⟨?_, ?_⟩
      · rw [if_neg hne, List.cons_append, List.takeWhile_append_dropWhile]
      · intro c hc
        exact List.mem_takeWhile_imp hc
  · cases h
    exact ⟨rfl, by simp⟩

/-- What is read of a zone is that of a zone whose offset is below a day. -/
theorem takeZone_eq_some {zone : Option (Char × List Char × List Char)} {offset : Int}
    (h : takeZone cs = some (zone, rest)) (ho : offset? zone = some offset) :
    ∃ z : Zone, z.Readable ∧ cs = z.text ++ rest := by
  unfold takeZone at h
  split at h
  · cases h
    exact ⟨.universal 'Z', .inl rfl, rfl⟩
  · cases h
    exact ⟨.universal 'z', .inr rfl, rfl⟩
  · rename_i sign after _ _
    simp only [Option.ite_none_right_eq_some, Bool.or_eq_true, beq_iff_eq, Option.bind_eq_bind,
      Option.bind_eq_some_iff, Option.some.injEq, Prod.mk.injEq, Prod.exists] at h
    obtain ⟨hsign, hs, after₁, hh, after₂, hcolon, ms, after₃, hm, rfl, rfl⟩ := h
    simp only [offset?, Option.bind_eq_bind, Option.bind_eq_some_iff,
      Option.ite_none_right_eq_some] at ho
    obtain ⟨hours, hhours, minutes, hminutes, hday, -⟩ := ho
    obtain ⟨rfl, -⟩ := takeDigits_eq_padded (by decide) hh hhours
    obtain ⟨c, hc, rfl⟩ := expect_eq_some hcolon
    obtain ⟨rfl, hlt⟩ := takeDigits_eq_padded (by decide) hm hminutes
    obtain rfl := beq_iff_eq.1 hc
    have hminutes₂ : minutes ≤ 99 := Nat.le_of_lt_succ hlt
    refine ⟨.shifted sign hours minutes, ⟨hsign, hminutes₂, ?_⟩, ?_⟩
    · omega
    · simp [Zone.text]
  · cases h

end Pieces

/-- A zone that is read like a real one is real. -/
theorem Zone.real_of_pieces {z z' : Zone} (h : z.Fits) (h' : z'.Real)
    (hp : z.pieces = z'.pieces) : z.Real := by
  cases z with
  | universal mark => exact h
  | shifted sign hours minutes =>
    obtain ⟨mark⟩ | ⟨sign', hours', minutes'⟩ := z'
    · cases hp
    · simp only [pieces, Option.some.injEq, Prod.mk.injEq] at hp
      obtain ⟨rfl, hh, hm⟩ := hp
      obtain ⟨hsign, hh23, hm59⟩ := h'
      obtain rfl := padded_inj hh
      obtain rfl := padded_inj hm
      exact ⟨hsign, hh23, hm59⟩

namespace Spelling

/-- A timestamp of the standard. A minute may end with a leap second. -/
structure Standard (s : Spelling) : Prop where
  date : s.date.Valid
  mark : s.mark = 'T' ∨ s.mark = 't'
  hour : s.hour ≤ 23
  minute : s.minute ≤ 59
  second : s.second ≤ 60
  fraction : ∀ c ∈ s.fraction, isAsciiDigit c = true
  zone : s.zone.Real

variable {s s' : Spelling} {cs tail : List Char}

theorem Standard.fits (h : s.Standard) : s.Fits where
  year := h.date.2.1
  month := Nat.le_trans h.date.2.2.2.1 (by decide)
  day := Nat.le_of_lt_succ h.date.day_lt
  mark := h.mark
  hour := Nat.le_trans h.hour (by decide)
  minute := Nat.le_trans h.minute (by decide)
  second := Nat.le_trans h.second (by decide)
  fraction c hc := Text.isDecimalDigit_of_ascii (h.fraction c hc)
  zone := h.zone.readable.fits

theorem Standard.newline_not_mem (h : s.Standard) : '\n' ∉ s.text := by
  have hpadded (width n : Nat) : '\n' ∉ padded width n := by
    intro hmem
    have hdigit := isAsciiDigit_of_mem_padded hmem
    revert hdigit
    decide
  have hmark : '\n' ≠ s.mark := by
    rcases h.mark with hm | hm <;> rw [hm] <;> decide
  have hfraction : '\n' ∉ s.fractionText := by
    have hdigits : '\n' ∉ s.fraction := fun hmem ↦ absurd (h.fraction _ hmem) (by decide)
    unfold fractionText
    split
    · exact List.not_mem_nil
    · simpa using hdigits
  have hzone : '\n' ∉ s.zone.text := by
    have hz := h.zone
    cases hs : s.zone with
    | universal mark =>
      rw [hs] at hz
      rcases hz with rfl | rfl <;> decide
    | shifted sign hours minutes =>
      rw [hs] at hz
      obtain ⟨rfl | rfl, -⟩ := hz <;> simp [Zone.text, hpadded]
  simp [text, hpadded, hmark, hfraction, hzone]

/-- Of the texts that are read those are timestamps of the standard which have no line feed at the
end, no digits of other scripts and no more than 59 minutes in their zone. -/
theorem standard_iff (h : s.Readable) (ht : atEnd tail = true) :
    (∃ s' : Spelling, s'.Standard ∧ s.text ++ tail = s'.text) ↔
      tail = [] ∧ (∀ c ∈ s.fraction, isAsciiDigit c = true) ∧ s.zone.Real := by
  constructor
  · rintro ⟨s', hs', htext⟩
    -- Both spellings are found to have one shape.
    have hread := shape?_text h.fits ht
    rw [htext, ← List.append_nil s'.text, shape?_text hs'.fits rfl, Option.some.injEq] at hread
    have hfraction : s'.fraction = s.fraction := congrArg Shape.fraction hread
    have hzone : s'.zone.pieces = s.zone.pieces := congrArg Shape.zone hread
    refine ⟨?_, ?_, ?_⟩
    · simp only [atEnd, Bool.or_eq_true, beq_iff_eq] at ht
      rcases ht with rfl | rfl
      · rfl
      · apply absurd _ hs'.newline_not_mem
        rw [← htext]
        exact List.mem_append_right _ List.mem_cons_self
    · rw [← hfraction]
      exact hs'.fraction
    · exact Zone.real_of_pieces h.zone.fits hs'.zone hzone.symm
  · rintro ⟨rfl, hfraction, hzone⟩
    refine ⟨s, ?_, List.append_nil _⟩
    exact ⟨h.date, h.mark, h.hour, h.minute, Nat.le_succ_of_le h.second, hfraction, hzone⟩

/-- Whatever has the shape of a timestamp and numbers in range is a spelling that can be read. -/
theorem exists_of_moment? {sh : Shape} {m : Moment} (hs : shape? cs = some sh)
    (hm : sh.moment? = some m) :
    ∃ s : Spelling, ∃ tail, s.Readable ∧ atEnd tail = true ∧ cs = s.text ++ tail := by
  simp only [shape?, Option.bind_eq_bind, Option.bind_eq_some_iff, Option.ite_none_right_eq_some,
    Option.some.injEq, Prod.exists] at hs
  obtain ⟨ys, _, hy, _, hdash, mos, _, hmo, _, hdash', ds, _, hd, _, hT, hs, _, hh, _, hcolon, mis,
    _, hmi, _, hcolon', ss, afterSecond, hsec, hrest⟩ := hs
  obtain ⟨zone, tail, hz, hend, rfl⟩ := hrest
  rcases hf : takeFraction afterSecond with ⟨fraction, afterFraction⟩
  simp only [hf] at hz hm
  simp only [Shape.moment?, Option.bind_eq_bind, Option.bind_eq_some_iff,
    Option.ite_none_right_eq_some] at hm
  obtain ⟨year, hyear, month, hmonth, day, hday, hour, hhour, minute, hminute, second, hsecond,
    micro, hmicro, offset, hoffset, ⟨hdate, hh23, hmi59, hs59, -⟩, -⟩ := hm
  obtain ⟨rfl, -⟩ := takeDigits_eq_padded (by decide) hy hyear
  obtain ⟨c₁, hc₁, rfl⟩ := expect_eq_some hdash
  obtain ⟨rfl, -⟩ := takeDigits_eq_padded (by decide) hmo hmonth
  obtain ⟨c₂, hc₂, rfl⟩ := expect_eq_some hdash'
  obtain ⟨rfl, -⟩ := takeDigits_eq_padded (by decide) hd hday
  obtain ⟨mark, hmark, rfl⟩ := expect_eq_some hT
  obtain ⟨rfl, -⟩ := takeDigits_eq_padded (by decide) hh hhour
  obtain ⟨c₃, hc₃, rfl⟩ := expect_eq_some hcolon
  obtain ⟨rfl, -⟩ := takeDigits_eq_padded (by decide) hmi hminute
  obtain ⟨c₄, hc₄, rfl⟩ := expect_eq_some hcolon'
  obtain ⟨rfl, -⟩ := takeDigits_eq_padded (by decide) hsec hsecond
  obtain ⟨rfl, hdecimal⟩ := takeFraction_eq hf
  obtain ⟨z, hzone, rfl⟩ := takeZone_eq_some hz hoffset
  obtain rfl := beq_iff_eq.1 hc₁
  obtain rfl := beq_iff_eq.1 hc₂
  obtain rfl := beq_iff_eq.1 hc₃
  obtain rfl := beq_iff_eq.1 hc₄
  refine ⟨⟨⟨year, month, day⟩, mark, hour, minute, second, fraction, z⟩, tail, ?_, hend, ?_⟩
  · refine ⟨hdate, by simpa using hmark, hh23, hmi59, hs59, hdecimal, ?_, hzone⟩
    intro c hc
    exact (number?_eq_some hmicro).1 c (List.mem_append_left _ hc)
  · simp [text, fractionText]

end Spelling
end StatusRelay.Rfc3339
