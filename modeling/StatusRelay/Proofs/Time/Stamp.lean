import Mathlib.Data.String.Basic
import StatusRelay.Proofs.ServiceHook.Time
import StatusRelay.Proofs.Time.Calendar

namespace StatusRelay

namespace Date

variable {d d' : Date} {year month month' : Nat}

theorem daysBeforeMonth_mono (h : month ≤ month') :
    daysBeforeMonth year month ≤ daysBeforeMonth year month' := by
  apply monotone_nat_of_le_succ _ h
  intro m
  cases m with
  | zero => exact Nat.le_refl 0
  | succ m => exact Nat.le_add_right _ _

/-- A day of a month comes before the month that follows. -/
theorem Valid.day_le (h : d.Valid) (hm : d.month < month) :
    daysBeforeMonth d.year d.month + d.day ≤ daysBeforeMonth d.year month := by
  obtain ⟨-, -, hmonth, -, -, hday⟩ := h
  have hsucc : daysBeforeMonth d.year (d.month + 1) = _ := daysBeforeMonth_succ hmonth
  have hmono : daysBeforeMonth d.year (d.month + 1) ≤ daysBeforeMonth d.year month :=
    daysBeforeMonth_mono hm
  omega

/-- A day of a year comes before the year that follows. -/
theorem Valid.dayNumber_lt (h : d.Valid) (hy : d.year < year) :
    d.dayNumber < daysBeforeYear year := by
  have hmonth : daysBeforeMonth d.year d.month + d.day ≤ daysBeforeMonth d.year 13 :=
    h.day_le (Nat.lt_succ_of_le h.2.2.2.1)
  have hsucc := daysBeforeYear_succ h.1
  have hmono : daysBeforeYear (d.year + 1) ≤ daysBeforeYear year := daysBeforeYear_mono hy
  have hday : 1 ≤ d.day := h.2.2.2.2.1
  rw [daysBeforeMonth_thirteen] at hmonth
  rw [dayNumber]
  omega

def Earlier (d d' : Date) : Prop :=
  d.year < d'.year ∨ d.year = d'.year ∧ (d.month < d'.month ∨ d.month = d'.month ∧ d.day < d'.day)

theorem Earlier.dayNumber_lt (he : d.Earlier d') (h : d.Valid) :
    d.dayNumber < d'.dayNumber := by
  have hday : 1 ≤ d.day := h.2.2.2.2.1
  rcases he with hy | ⟨hy, hm | ⟨hm, hd⟩⟩
  · have hlt := h.dayNumber_lt hy
    rw [dayNumber.eq_def d']
    omega
  · have hle := h.day_le hm
    rw [dayNumber, dayNumber, ← hy]
    omega
  · rw [dayNumber, dayNumber, ← hy, ← hm]
    omega

theorem earlier_or_eq (d d' : Date) : d.Earlier d' ∨ d = d' ∨ d'.Earlier d := by
  obtain ⟨y, m, k⟩ := d
  obtain ⟨y', m', k'⟩ := d'
  simp only [Earlier, Date.mk.injEq]
  omega

theorem dayNumber_lt_iff (h : d.Valid) (h' : d'.Valid) :
    d.dayNumber < d'.dayNumber ↔ d.Earlier d' := by
  refine ⟨fun hlt ↦ ?_, fun he ↦ he.dayNumber_lt h⟩
  rcases earlier_or_eq d d' with he | rfl | he
  · exact he
  · exact absurd hlt (Nat.lt_irrefl _)
  · exact absurd hlt (Nat.lt_asymm (he.dayNumber_lt h'))

theorem dayNumber_inj (h : d.Valid) (h' : d'.Valid) (he : d.dayNumber = d'.dayNumber) :
    d = d' := by
  rcases earlier_or_eq d d' with hlt | heq | hlt
  · exact absurd he (Nat.ne_of_lt (hlt.dayNumber_lt h))
  · exact heq
  · exact absurd he.symm (Nat.ne_of_lt (hlt.dayNumber_lt h'))

end Date

namespace Rfc3339

open Moment (padded)

variable {cs cs' : List Char}

/-- Numbers of one width are compared first, and then what follows their end mark. -/
theorem padded_lt_iff {width a b : Nat} (hw : 0 < width) (ha : a < Nat.pow 10 width)
    (hb : b < Nat.pow 10 width) (mark : Char) :
    padded width a ++ mark :: cs < padded width b ++ mark :: cs' ↔ a < b ∨ a = b ∧ cs < cs' := by
  have hlen : (padded width a).length = (padded width b).length := by
    rw [length_padded hw ha, length_padded hw hb]
  rw [Text.append_lt_append_iff hlen (fun _ ↦ isAsciiDigit_of_mem_padded)
    (fun _ ↦ isAsciiDigit_of_mem_padded), ofDigitChars_padded, ofDigitChars_padded,
    List.cons_lt_cons_iff]
  simp

theorem two_lt_iff {a b : Nat} (ha : a ≤ 99) (hb : b ≤ 99) (mark : Char) :
    padded 2 a ++ mark :: cs < padded 2 b ++ mark :: cs' ↔ a < b ∨ a = b ∧ cs < cs' :=
  padded_lt_iff (by decide) (Nat.lt_succ_of_le ha) (Nat.lt_succ_of_le hb) mark

end Rfc3339

namespace Moment

open Rfc3339 (padded_lt_iff two_lt_iff)

variable {m m' u u' : Moment}

/-- Fields of moments are compared from the year down to the second. -/
theorem localSeconds_lt_iff (h : m.Valid) (h' : m'.Valid) :
    m.localSeconds < m'.localSeconds ↔
      m.date.Earlier m'.date ∨ m.date = m'.date ∧ (m.hour < m'.hour ∨ m.hour = m'.hour ∧
        (m.minute < m'.minute ∨ m.minute = m'.minute ∧ m.second < m'.second)) := by
  obtain ⟨hd, hh, hm, hs, -⟩ := h
  obtain ⟨hd', hh', hm', hs', -⟩ := h'
  have heq : m.date = m'.date ↔ m.date.dayNumber = m'.date.dayNumber :=
    ⟨congrArg _, Date.dayNumber_inj hd hd'⟩
  rw [← Date.dayNumber_lt_iff hd hd', heq, localSeconds, localSeconds]
  omega

theorem eq_of_localSeconds (h : m.Valid) (h' : m'.Valid) (hlocal : m.localSeconds = m'.localSeconds)
    (hmicro : m.micro = m'.micro) (hoffset : m.offset = m'.offset) : m = m' := by
  obtain ⟨hd, hh, hm, hs, -⟩ := h
  obtain ⟨hd', hh', hm', hs', -⟩ := h'
  rw [localSeconds, localSeconds] at hlocal
  have hdate : m.date = m'.date := Date.dayNumber_inj hd hd' (by omega)
  rw [hdate] at hlocal
  obtain ⟨date, hour, minute, second, micro, offset⟩ := m
  obtain ⟨date', hour', minute', second', micro', offset'⟩ := m'
  rw [Moment.mk.injEq]
  dsimp only at *
  refine ⟨hdate, ?_, ?_, ?_, hmicro, hoffset⟩ <;> omega

/-- The time that a clock of universal time shows at the instant of a moment. -/
structure Universal (u m : Moment) : Prop where
  valid : u.Valid
  offset : u.offset = 0
  instant : u.instant = m.instant

theorem Universal.localSeconds_eq (hu : u.Universal m) (h : m.Valid) :
    (u.localSeconds : Int) = m.seconds ∧ u.micro = m.micro := by
  have hmicro : u.micro ≤ 999999 := hu.valid.2.2.2.2.1
  have hmicro' : m.micro ≤ 999999 := h.2.2.2.2.1
  have hsame := hu.instant
  simp only [Moment.instant] at hsame
  have hseconds : u.seconds = u.localSeconds := by rw [seconds, hu.offset, Int.sub_zero]
  omega

theorem localSeconds_lt_limit (h : u.Valid) : u.localSeconds < localLimit := by
  obtain ⟨hdate, hhour, hminute, hsecond, -⟩ := h
  have hday : u.date.dayNumber < Date.daysBeforeYear 10000 :=
    hdate.dayNumber_lt (Nat.lt_succ_of_le hdate.2.1)
  have hlast : Date.daysBeforeYear 10000 = 3652059 := rfl
  have hlimit : localLimit = 3652059 * 86400 := rfl
  rw [localSeconds]
  omega

theorem Universal.toUtc?_eq (hu : u.Universal m) (h : m.Valid) : m.toUtc? = some u := by
  obtain ⟨hseconds, hmicro⟩ := hu.localSeconds_eq h
  have hlimit := localSeconds_lt_limit hu.valid
  have hutc : ∃ v, ofLocalSeconds? m.seconds m.micro 0 = some v :=
    exists_ofLocalSeconds? (by omega) (by omega)
  obtain ⟨v, hv⟩ := hutc
  obtain ⟨hlocal, hmicro', hoffset, hvalid⟩ := ofLocalSeconds?_spec hv
  have heq : v = u := by
    apply eq_of_localSeconds (hvalid h.2.2.2.2.1 (by decide)) hu.valid
    · omega
    · rw [hmicro', hmicro]
    · rw [hoffset, hu.offset]
  rw [toUtc?, hv, heq]

def stampSpelling (u : Moment) : Rfc3339.Spelling where
  date := u.date
  mark := 'T'
  hour := u.hour
  minute := u.minute
  second := u.second
  fraction := []
  zone := .universal 'Z'

theorem toDigits_eq_padded (h : 1000 ≤ u.date.year) :
    Nat.toDigits 10 u.date.year = padded 4 u.date.year := by
  have hlen : ¬ (Nat.toDigits 10 u.date.year).length ≤ 3 := by
    rw [Nat.length_toDigits_le_iff (by decide) (by decide)]
    omega
  have hfill : 4 - (Nat.toDigits 10 u.date.year).length = 0 := by omega
  rw [padded, FloatLayout.padLeft, hfill, List.replicate_zero, List.nil_append]

theorem text_stampSpelling (h : 1000 ≤ u.date.year) : u.stampSpelling.text = u.stampText := by
  rw [stampText, toDigits_eq_padded h]
  simp [Rfc3339.Spelling.text, Rfc3339.Spelling.fractionText, Rfc3339.Zone.text, stampSpelling,
    dayText, clockText]

theorem real_stampSpelling (h : u.Valid) : u.stampSpelling.Real := by
  obtain ⟨hdate, hhour, hminute, hsecond, -⟩ := h
  exact ⟨hdate, .inl rfl, hhour, hminute, hsecond, by simp [stampSpelling], .inl rfl⟩

theorem timeOfText_stampText (h : u.Valid) (hoffset : u.offset = 0) (hy : 1000 ≤ u.date.year) :
    ServiceHook.timeOfText (String.ofList u.stampText) = .ok u.truncate := by
  have hread := ServiceHook.timeOfText_text (real_stampSpelling h)
  rw [text_stampSpelling hy] at hread
  have hmoment : u.stampSpelling.moment = u.truncate := by
    rw [truncate, hoffset]
    simp only [Rfc3339.Spelling.moment, Rfc3339.Spelling.micro, stampSpelling]
    rfl
  rw [hread, hmoment]

/-- Stamps with years of four digits are ordered as the times that they show. -/
theorem stampText_lt_iff (h : u.Valid) (h' : u'.Valid) (hy : 1000 ≤ u.date.year)
    (hy' : 1000 ≤ u'.date.year) :
    u.stampText < u'.stampText ↔ u.localSeconds < u'.localSeconds := by
  have hfields := localSeconds_lt_iff h h'
  have hday := h.1.day_lt
  have hday' := h'.1.day_lt
  obtain ⟨⟨-, hyear, -, hmonth, -⟩, hhour, hminute, hsecond, -⟩ := h
  obtain ⟨⟨-, hyear', -, hmonth', -⟩, hhour', hminute', hsecond', -⟩ := h'
  simp only [stampText, toDigits_eq_padded hy, toDigits_eq_padded hy', dayText, clockText,
    List.append_assoc, List.cons_append]
  rw [padded_lt_iff (by decide) (Nat.lt_succ_of_le hyear) (Nat.lt_succ_of_le hyear'), two_lt_iff,
    two_lt_iff, two_lt_iff, two_lt_iff, two_lt_iff]
  · have hdate : u.date = u'.date ↔ u.date.year = u'.date.year ∧ u.date.month = u'.date.month ∧
        u.date.day = u'.date.day := by
      rw [← Date.mk.injEq]
    rw [hfields, hdate, Date.Earlier]
    simp only [List.lt_irrefl, and_false, or_false]
    omega
  all_goals omega

theorem stamp?_eq (hu : u.Universal m) (h : m.Valid) :
    m.stamp? = some (String.ofList u.stampText) := by
  rw [stamp?, hu.toUtc?_eq h, Option.map_some]

theorem instant_truncate (hu : u.Universal m) (h : m.Valid) :
    m.truncate.instant = u.localSeconds * 1000000 := by
  obtain ⟨hseconds, -⟩ := hu.localSeconds_eq h
  have htruncate : m.truncate.seconds = m.seconds := rfl
  have hmicro : m.truncate.micro = 0 := rfl
  rw [Moment.instant, htruncate, hmicro, ← hseconds]
  omega

/-- In years of four digits the stamp of a moment denotes what a clock of universal time shows at
its instant, without the fraction of the second; and of two such moments the one whose second is
earlier has the stamp that is earlier as a text. -/
theorem stamps_faithful_and_ordered :
    (∀ m u : Moment, m.Valid → u.Universal m → 1000 ≤ u.date.year →
      ∃ stamp, m.stamp? = some stamp ∧
        ServiceHook.TimeInput.decode (.json (.str stamp)) = .ok u.truncate) ∧
    ∀ m m' u u' : Moment, m.Valid → u.Universal m → 1000 ≤ u.date.year →
      m'.Valid → u'.Universal m' → 1000 ≤ u'.date.year →
      ∃ stamp stamp', m.stamp? = some stamp ∧ m'.stamp? = some stamp' ∧
        (stamp ≤ stamp' ↔ m.truncate.instant ≤ m'.truncate.instant) := by
  refine ⟨?_, ?_⟩
  · intro m u h hu hy
    exact ⟨_, stamp?_eq hu h, timeOfText_stampText hu.valid hu.offset hy⟩
  · intro m m' u u' h hu hy h' hu' hy'
    refine ⟨_, _, stamp?_eq hu h, stamp?_eq hu' h', ?_⟩
    have hlt := stampText_lt_iff hu'.valid hu.valid hy' hy
    rw [← String.not_lt, String.lt_iff, String.toList_ofList, String.toList_ofList, hlt,
      instant_truncate hu h, instant_truncate hu' h']
    omega

namespace Sample

def leapEnd : Moment := ⟨⟨2024, 2, 29⟩, 23, 59, 59, 999999, -86340⟩

def yearEnd : Moment := ⟨⟨999, 12, 31⟩, 23, 30, 0, 1, -3600⟩

def leapEndUtc : Moment := ⟨⟨2024, 3, 1⟩, 23, 58, 59, 999999, 0⟩

def yearEndUtc : Moment := ⟨⟨1000, 1, 1⟩, 0, 30, 0, 1, 0⟩

theorem universal_leapEndUtc : leapEndUtc.Universal leapEnd := ⟨by decide, rfl, by decide⟩

theorem universal_yearEndUtc : yearEndUtc.Universal yearEnd := ⟨by decide, rfl, by decide⟩

end Sample

theorem stamps_faithful_and_ordered_carried :
    Sample.leapEnd.Valid ∧ Sample.leapEndUtc.Universal Sample.leapEnd ∧ Sample.yearEnd.Valid ∧
      Sample.yearEndUtc.Universal Sample.yearEnd ∧ Sample.yearEndUtc.date.year = 1000 ∧
      Sample.leapEnd.stamp? = some "2024-03-01T23:58:59Z" ∧
      ServiceHook.TimeInput.decode (.json (.str "2024-03-01T23:58:59Z")) =
        .ok ⟨⟨2024, 3, 1⟩, 23, 58, 59, 0, 0⟩ ∧
      ("1000-01-01T00:30:00Z" ≤ "2024-03-01T23:58:59Z" ↔
        Sample.yearEnd.truncate.instant ≤ Sample.leapEnd.truncate.instant) := by
  have hleap : Sample.leapEnd.stamp? = some "2024-03-01T23:58:59Z" := by decide
  have hyear : Sample.yearEnd.stamp? = some "1000-01-01T00:30:00Z" := by decide
  have hvalid : Sample.leapEnd.Valid := by decide
  have hvalid' : Sample.yearEnd.Valid := by decide
  obtain ⟨hread, horder⟩ := stamps_faithful_and_ordered
  obtain ⟨stamp, hstamp, hdecoded⟩ := hread _ _ hvalid Sample.universal_leapEndUtc (by decide)
  obtain rfl := Option.some.inj (hleap.symm.trans hstamp)
  obtain ⟨first, second, hfirst, hsecond, hle⟩ := horder _ _ _ _ hvalid'
    Sample.universal_yearEndUtc (by decide) hvalid Sample.universal_leapEndUtc (by decide)
  obtain rfl := Option.some.inj (hyear.symm.trans hfirst)
  obtain rfl := Option.some.inj (hleap.symm.trans hsecond)
  exact ⟨hvalid, Sample.universal_leapEndUtc, hvalid', Sample.universal_yearEndUtc, rfl, hleap,
    hdecoded, hle⟩

end Moment
end StatusRelay
