import Mathlib.Data.List.TakeDrop
import StatusRelay.Proofs.Text.Digits
import StatusRelay.Time.Rfc3339

namespace StatusRelay

open Text (isAsciiDigit isDecimalDigit ofDigitChars_lt ofDigitChars_append_div)

theorem Date.Valid.day_lt {d : Date} (h : d.Valid) : d.day < 100 := by
  obtain ⟨-, -, -, -, -, hd⟩ := h
  have hdays : daysInMonth d.year d.month ≤ 31 := by
    unfold daysInMonth
    split <;> (try split) <;> decide
  omega

namespace Rfc3339

open Moment (padded)

section Padded

variable {width n : Nat}

theorem isAsciiDigit_of_mem_padded {c : Char} (h : c ∈ padded width n) : isAsciiDigit c = true := by
  rw [padded, FloatLayout.padLeft, List.mem_append] at h
  rcases h with h | h
  · rw [List.eq_of_mem_replicate h]
    rfl
  · exact Text.isAsciiDigit_of_mem_toDigits h

theorem length_padded (hw : 0 < width) (h : n < Nat.pow 10 width) :
    (padded width n).length = width := by
  have hlen : (Nat.toDigits 10 n).length ≤ width :=
    (Nat.length_toDigits_le_iff (by decide) hw).2 h
  rw [padded, FloatLayout.padLeft, List.length_append, List.length_replicate]
  omega

theorem ofDigitChars_padded : Nat.ofDigitChars 10 (padded width n) 0 = n := by
  rw [padded, FloatLayout.padLeft, Nat.ofDigitChars_append, Nat.ofDigitChars_replicate_zero,
    Nat.mul_zero, Nat.ofDigitChars_ten_toDigits]

theorem number?_of_digits {ds : List Char} (h : ∀ c ∈ ds, isAsciiDigit c = true) :
    number? ds = some (Nat.ofDigitChars 10 ds 0) := by
  rw [number?, if_pos (List.all_eq_true.2 h)]

theorem number?_padded : number? (padded width n) = some n := by
  rw [number?_of_digits fun _ ↦ isAsciiDigit_of_mem_padded, ofDigitChars_padded]

theorem takeDigits_padded (hw : 0 < width) (h : n < Nat.pow 10 width) (rest : List Char) :
    takeDigits width (padded width n ++ rest) = some (padded width n, rest) := by
  have hlen := length_padded hw h
  have hall : (padded width n).all isDecimalDigit = true :=
    List.all_eq_true.2 fun _ hc ↦ Text.isDecimalDigit_of_ascii (isAsciiDigit_of_mem_padded hc)
  simp only [takeDigits, List.take_left' hlen, List.drop_left' hlen, hlen, hall, beq_self_eq_true,
    Bool.and_self, if_true]

theorem takeDigits_two (h : n < 100) (rest : List Char) :
    takeDigits 2 (padded 2 n ++ rest) = some (padded 2 n, rest) :=
  takeDigits_padded (by decide) h rest

end Padded

inductive Zone where
  | universal (mark : Char)
  | shifted (sign : Char) (hours minutes : Nat)
deriving DecidableEq, Repr

namespace Zone

def Real : Zone → Prop
  | universal mark => mark = 'Z' ∨ mark = 'z'
  | shifted sign hours minutes => (sign = '+' ∨ sign = '-') ∧ hours ≤ 23 ∧ minutes ≤ 59

instance (z : Zone) : Decidable z.Real := by unfold Real; split <;> infer_instance

/-- Like `Real`, but the minutes are any two digits, as long as the whole stays below a day. -/
def Readable : Zone → Prop
  | universal mark => mark = 'Z' ∨ mark = 'z'
  | shifted sign hours minutes =>
    (sign = '+' ∨ sign = '-') ∧ minutes ≤ 99 ∧ hours * 60 + minutes < 1440

instance (z : Zone) : Decidable z.Readable := by unfold Readable; split <;> infer_instance

def Fits : Zone → Prop
  | universal mark => mark = 'Z' ∨ mark = 'z'
  | shifted sign hours minutes => (sign = '+' ∨ sign = '-') ∧ hours ≤ 99 ∧ minutes ≤ 99

def text : Zone → List Char
  | universal mark => [mark]
  | shifted sign hours minutes => sign :: padded 2 hours ++ ':' :: padded 2 minutes

def offset : Zone → Int
  | universal _ => 0
  | shifted sign hours minutes =>
    if sign = '-' then -(hours * 3600 + minutes * 60) else hours * 3600 + minutes * 60

def pieces : Zone → Option (Char × List Char × List Char)
  | universal _ => none
  | shifted sign hours minutes => some (sign, padded 2 hours, padded 2 minutes)

variable {z : Zone}

theorem Real.readable (h : z.Real) : z.Readable := by
  cases z with
  | universal mark => exact h
  | shifted sign hours minutes =>
    obtain ⟨hsign, hh, hm⟩ := h
    refine ⟨hsign, ?_, ?_⟩
    · omega
    · omega

theorem Readable.fits (h : z.Readable) : z.Fits := by
  cases z with
  | universal mark => exact h
  | shifted sign hours minutes =>
    obtain ⟨hsign, hm, hday⟩ := h
    refine ⟨hsign, ?_, hm⟩
    omega

theorem natAbs_offset_lt (h : z.Readable) : z.offset.natAbs < 86400 := by
  cases z with
  | universal mark =>
    rw [offset]
    decide
  | shifted sign hours minutes =>
    obtain ⟨-, -, hday⟩ := h
    rw [offset]
    split <;> omega

theorem takeZone_text (h : z.Fits) (tail : List Char) :
    takeZone (z.text ++ tail) = some (z.pieces, tail) := by
  cases z with
  | universal mark => rcases h with rfl | rfl <;> rfl
  | shifted sign hours minutes =>
    obtain ⟨hsign, hh, hm⟩ := h
    have hhours := takeDigits_two (show hours < 100 by omega)
    have hminutes := takeDigits_two (show minutes < 100 by omega) tail
    rcases hsign with rfl | rfl <;>
      simp [text, pieces, takeZone, hhours, expect, hminutes]

theorem offset?_pieces (h : z.Readable) : offset? z.pieces = some z.offset := by
  cases z with
  | universal mark => rfl
  | shifted sign hours minutes =>
    obtain ⟨-, -, hday⟩ := h
    have hsize : hours * 3600 + minutes * 60 < 86400 := by omega
    rw [pieces, offset?, number?_padded, number?_padded, offset]
    have hcast : ((hours * 3600 + minutes * 60 : Nat) : Int) = hours * 3600 + minutes * 60 := by
      omega
    simp only [Option.bind_eq_bind, Option.bind_some, beq_iff_eq, if_pos hsize, hcast]

/-- A zone cannot be taken for more of a fraction. -/
theorem exists_head (h : z.Fits) :
    ∃ c rest, z.text = c :: rest ∧ isDecimalDigit c = false ∧ c ≠ '.' := by
  cases z with
  | universal mark => rcases h with rfl | rfl <;> exact ⟨_, _, rfl, by decide, by decide⟩
  | shifted sign hours minutes =>
    obtain ⟨rfl | rfl, -⟩ := h <;> exact ⟨_, _, rfl, by decide, by decide⟩

end Zone

structure Spelling where
  date : Date
  /-- Stands between the date and the time. -/
  mark : Char
  hour : Nat
  minute : Nat
  second : Nat
  /-- The digits behind the point; without any there is no point. -/
  fraction : List Char
  zone : Zone
deriving DecidableEq, Repr

namespace Spelling

structure Real (s : Spelling) : Prop where
  date : s.date.Valid
  mark : s.mark = 'T' ∨ s.mark = 't'
  hour : s.hour ≤ 23
  minute : s.minute ≤ 59
  second : s.second ≤ 59
  fraction : ∀ c ∈ s.fraction, isAsciiDigit c = true
  zone : s.zone.Real

/-- Like `Real`, but digits behind the sixth of the fraction may be those of any script, and the
zone is one that can be read. -/
structure Readable (s : Spelling) : Prop where
  date : s.date.Valid
  mark : s.mark = 'T' ∨ s.mark = 't'
  hour : s.hour ≤ 23
  minute : s.minute ≤ 59
  second : s.second ≤ 59
  fraction : ∀ c ∈ s.fraction, isDecimalDigit c = true
  leading : ∀ c ∈ s.fraction.take 6, isAsciiDigit c = true
  zone : s.zone.Readable

structure Fits (s : Spelling) : Prop where
  year : s.date.year ≤ 9999
  month : s.date.month ≤ 99
  day : s.date.day ≤ 99
  mark : s.mark = 'T' ∨ s.mark = 't'
  hour : s.hour ≤ 99
  minute : s.minute ≤ 99
  second : s.second ≤ 99
  fraction : ∀ c ∈ s.fraction, isDecimalDigit c = true
  zone : s.zone.Fits

def fractionText (s : Spelling) : List Char := if s.fraction = [] then [] else '.' :: s.fraction

def text (s : Spelling) : List Char :=
  padded 4 s.date.year ++ '-' :: padded 2 s.date.month ++ '-' :: padded 2 s.date.day ++
    s.mark :: padded 2 s.hour ++ ':' :: padded 2 s.minute ++ ':' :: padded 2 s.second ++
    s.fractionText ++ s.zone.text

def micro (s : Spelling) : Nat :=
  Nat.ofDigitChars 10 s.fraction 0 * Nat.pow 10 6 / Nat.pow 10 s.fraction.length

def moment (s : Spelling) : Moment :=
  ⟨s.date, s.hour, s.minute, s.second, s.micro, s.zone.offset⟩

def cut (s : Spelling) : Spelling := { s with fraction := s.fraction.take 6 }

def shape (s : Spelling) : Shape where
  year := padded 4 s.date.year
  month := padded 2 s.date.month
  day := padded 2 s.date.day
  hour := padded 2 s.hour
  minute := padded 2 s.minute
  second := padded 2 s.second
  fraction := s.fraction
  zone := s.zone.pieces

variable {s : Spelling} {tail : List Char}

theorem Real.readable (h : s.Real) : s.Readable where
  date := h.date
  mark := h.mark
  hour := h.hour
  minute := h.minute
  second := h.second
  fraction c hc := Text.isDecimalDigit_of_ascii (h.fraction c hc)
  leading c hc := h.fraction c (List.mem_of_mem_take hc)
  zone := h.zone.readable

theorem Readable.fits (h : s.Readable) : s.Fits where
  year := h.date.2.1
  month := Nat.le_trans h.date.2.2.2.1 (by decide)
  day := Nat.le_of_lt_succ h.date.day_lt
  mark := h.mark
  hour := Nat.le_trans h.hour (by decide)
  minute := Nat.le_trans h.minute (by decide)
  second := Nat.le_trans h.second (by decide)
  fraction := h.fraction
  zone := h.zone.fits

theorem takeFraction_text (h : s.Fits) (tail : List Char) :
    takeFraction (s.fractionText ++ (s.zone.text ++ tail)) = (s.fraction, s.zone.text ++ tail) := by
  obtain ⟨c, rest, hz, hdigit, hpoint⟩ := Zone.exists_head h.zone
  rw [hz]
  by_cases hf : s.fraction = []
  · simp [takeFraction, fractionText, hf, hpoint]
  · simp [takeFraction, fractionText, hf, List.span_eq_takeWhile_dropWhile,
      List.takeWhile_append_of_pos h.fraction, List.dropWhile_append_of_pos h.fraction, hdigit]

/-- The shape is found whatever the numbers are, and one line feed at the end makes no
difference. -/
theorem shape?_text (h : s.Fits) (ht : atEnd tail = true) :
    shape? (s.text ++ tail) = some s.shape := by
  have hyear (rest : List Char) :
      takeDigits 4 (padded 4 s.date.year ++ rest) = some (padded 4 s.date.year, rest) :=
    takeDigits_padded (by decide) (Nat.lt_succ_of_le h.year) rest
  have hmark : (s.mark = 'T' ∨ s.mark = 't') = True := eq_true h.mark
  have hmonth := takeDigits_two (Nat.lt_succ_of_le h.month)
  have hday := takeDigits_two (Nat.lt_succ_of_le h.day)
  have hhour := takeDigits_two (Nat.lt_succ_of_le h.hour)
  have hminute := takeDigits_two (Nat.lt_succ_of_le h.minute)
  have hsecond := takeDigits_two (Nat.lt_succ_of_le h.second)
  simp [shape?, text, hyear, hmonth, hday, hhour, hminute, hsecond, expect, hmark,
    takeFraction_text h, Zone.takeZone_text h.zone, ht, shape]

theorem number?_microDigits (h : ∀ c ∈ s.fraction, isAsciiDigit c = true) :
    number? (microDigits s.fraction) = some s.micro := by
  have hdigits : ∀ c ∈ microDigits s.fraction, isAsciiDigit c = true := by
    intro c hc
    rcases List.mem_append.1 hc with hc | hc
    · exact h c (List.mem_of_mem_take hc)
    · rw [List.eq_of_mem_replicate hc]
      rfl
  rw [number?_of_digits hdigits, microDigits, Nat.ofDigitChars_append,
    Nat.ofDigitChars_replicate_zero, micro]
  congr 1
  -- A short fraction is filled with zeros, a long one loses what is behind the sixth digit.
  rcases Nat.le_total s.fraction.length 6 with hle | hle
  · rw [List.take_of_length_le hle]
    have hsplit : Nat.pow 10 6 = 10 ^ (6 - s.fraction.length) * 10 ^ s.fraction.length := by
      rw [← Nat.pow_add, Nat.sub_add_cancel hle, Nat.pow_eq]
    rw [hsplit, ← Nat.mul_assoc, Nat.pow_eq, Nat.mul_div_cancel _ (Nat.pow_pos (by decide)),
      Nat.mul_comm]
  · have hlen : (s.fraction.take 6).length = 6 := List.length_take_of_le hle
    have hrest : ∀ c ∈ s.fraction.drop 6, isAsciiDigit c = true := fun c hc ↦
      h c (List.mem_of_mem_drop hc)
    have hdrop := @ofDigitChars_append_div (s.fraction.take 6) _ hrest
    rw [List.take_append_drop, List.length_drop] at hdrop
    have hsplit : Nat.pow 10 s.fraction.length =
        Nat.pow 10 (s.fraction.length - 6) * Nat.pow 10 6 := by
      rw [Nat.pow_eq, Nat.pow_eq, Nat.pow_eq, ← Nat.pow_add, Nat.sub_add_cancel hle]
    rw [hlen, Nat.sub_self, Nat.pow_zero, Nat.one_mul, hsplit,
      Nat.mul_div_mul_right _ _ (by decide), hdrop]

theorem microDigits_cut : microDigits s.cut.fraction = microDigits s.fraction := by
  simp only [microDigits, cut, List.take_take, Nat.min_self]

theorem moment_cut (h : s.Real) : s.cut.moment = s.moment := by
  have hcut : number? (microDigits s.cut.fraction) = some s.cut.micro :=
    number?_microDigits h.readable.leading
  rw [microDigits_cut, number?_microDigits h.fraction] at hcut
  rw [moment, ← Option.some.inj hcut]
  rfl

theorem moment_valid (h : s.Readable) : s.cut.moment.Valid := by
  refine ⟨h.date, h.hour, h.minute, h.second, ?_, Zone.natAbs_offset_lt h.zone⟩
  have hlt := ofDigitChars_lt h.leading
  have hmicro : s.cut.micro < Nat.pow 10 6 :=
    Nat.div_lt_of_lt_mul (Nat.mul_lt_mul_of_pos_right hlt (by decide))
  exact Nat.le_of_lt_succ hmicro

theorem moment?_shape (h : s.Readable) : s.shape.moment? = some s.cut.moment := by
  have hmicro : number? (microDigits s.shape.fraction) = some s.cut.micro := by
    rw [← number?_microDigits h.leading]
    exact congrArg number? microDigits_cut.symm
  have hoffset : offset? s.shape.zone = some s.zone.offset := Zone.offset?_pieces h.zone
  simp only [Shape.moment?, hmicro, hoffset, Option.bind_eq_bind, Option.bind_some]
  simp only [shape, number?_padded, Option.bind_some]
  exact if_pos (moment_valid h)

end Spelling
end Rfc3339
end StatusRelay
