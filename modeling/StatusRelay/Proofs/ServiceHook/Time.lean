import StatusRelay.Proofs.Time.Acceptance
import StatusRelay.Proofs.Time.Iso
import StatusRelay.ServiceHook.Time

namespace StatusRelay.ServiceHook

open Rfc3339 (Spelling)

theorem TimeInput.decode_text (text : String) : decode (.json (.str text)) = timeOfText text := rfl

theorem timed_of_timeOfText {text : String} {m : Moment} (h : timeOfText text = .ok m) :
    m.Timed := by
  unfold timeOfText at h
  split at h
  · cases h
    exact Moment.timed_zero
  · split at h
    · cases h
    · split at h
      · cases h
      · rename_i hm
        cases h
        exact Moment.timed_of_moment? hm

theorem timeOfText_of_readable {s : Spelling} (h : s.Readable) (tail : List Char)
    (ht : Rfc3339.atEnd tail = true) :
    timeOfText (String.ofList (s.text ++ tail)) = .ok s.cut.moment := by
  have hshape : Rfc3339.shape? (String.ofList (s.text ++ tail)).toList = some s.shape := by
    rw [String.toList_ofList]
    exact Spelling.shape?_text h.fits ht
  -- No spelling of the unset time has the shape of a timestamp.
  have hset : unsetTexts.contains (String.ofList (s.text ++ tail)) = false := by
    have hunset : ∀ t ∈ unsetTexts, Rfc3339.shape? t.toList = none := by decide
    rw [List.contains_eq_mem, decide_eq_false_iff_not]
    intro hmem
    rw [hunset _ hmem] at hshape
    cases hshape
  simp only [timeOfText, hset, hshape, Spelling.moment?_shape h, Bool.false_eq_true, if_false]

theorem timeOfText_text {s : Spelling} (h : s.Real) :
    timeOfText (String.ofList s.text) = .ok s.moment := by
  have hread := timeOfText_of_readable h.readable [] rfl
  rwa [List.append_nil, Spelling.moment_cut h] at hread

theorem timeOfText_iso {m : Moment} (h : m.Timed) : timeOfText m.iso = .ok m := by
  have hread := timeOfText_text (Moment.real_spelling h)
  rw [Moment.text_spelling h, Moment.moment_spelling h] at hread
  exact hread

/-- Every timestamp of real fields denotes the moment with these fields, and whatever was decoded is
decoded again from its full form. -/
theorem decodes_timestamps :
    (∀ s : Spelling, s.Real →
      TimeInput.decode (.json (.str (String.ofList s.text))) = .ok s.moment) ∧
    ∀ text m, TimeInput.decode (.json (.str text)) = .ok m →
      TimeInput.decode (.json (.str m.iso)) = .ok m := by
  simp only [TimeInput.decode_text]
  refine ⟨fun s hs ↦ timeOfText_text hs, fun text m h ↦ ?_⟩
  have htimed : m.Timed := timed_of_timeOfText h
  exact timeOfText_iso htimed

namespace Sample

def leapSpelling : Spelling :=
  ⟨⟨2024, 2, 29⟩, 't', 23, 59, 59, List.replicate 8 '9', .shifted '-' 23 59⟩

theorem real_leapSpelling : leapSpelling.Real where
  date := by decide
  mark := .inr rfl
  hour := by decide
  minute := by decide
  second := by decide
  fraction c hc := by
    obtain rfl := List.eq_of_mem_replicate hc
    decide
  zone := by decide

theorem text_leapSpelling :
    String.ofList leapSpelling.text = "2024-02-29t23:59:59.99999999-23:59" := by
  decide +kernel

end Sample

/-- Digits behind the sixth are cut off, and an offset of 99 minutes is printed with 39. -/
theorem decodes_timestamps_leap_day :
    TimeInput.decode (.json (.str "2024-02-29t23:59:59.99999999-23:59")) =
        .ok ⟨⟨2024, 2, 29⟩, 23, 59, 59, 999999, -86340⟩ ∧
      TimeInput.decode (.json (.str "2023-01-02T03:04:05.06+05:99")) =
        .ok ⟨⟨2023, 1, 2⟩, 3, 4, 5, 60000, 23940⟩ ∧
      TimeInput.decode (.json (.str "2023-01-02T03:04:05.060000+06:39")) =
        .ok ⟨⟨2023, 1, 2⟩, 3, 4, 5, 60000, 23940⟩ := by
  have hleap := decodes_timestamps.1 Sample.leapSpelling Sample.real_leapSpelling
  rw [Sample.text_leapSpelling] at hleap
  have hodd : TimeInput.decode (.json (.str "2023-01-02T03:04:05.06+05:99")) =
      .ok ⟨⟨2023, 1, 2⟩, 3, 4, 5, 60000, 23940⟩ := by decide
  have hiso := decodes_timestamps.2 _ _ hodd
  have htext : Moment.iso ⟨⟨2023, 1, 2⟩, 3, 4, 5, 60000, 23940⟩ =
      "2023-01-02T03:04:05.060000+06:39" := by decide
  rw [htext] at hiso
  exact ⟨hleap, hodd, hiso⟩

def IsTimestamp (text : String) : Prop := ∃ s : Spelling, s.Standard ∧ text.toList = s.text

theorem timeOfText_eq_ok_iff {text : String} (hset : text ∉ unsetTexts) (m : Moment) :
    timeOfText text = .ok m ↔ ∃ (s : Spelling) (tail : List Char), s.Readable ∧
      Rfc3339.atEnd tail = true ∧ text.toList = s.text ++ tail ∧ m = s.cut.moment := by
  constructor
  · intro h
    simp only [timeOfText, List.contains_eq_mem, hset, decide_false, Bool.false_eq_true,
      if_false] at h
    split at h
    · cases h
    · rename_i shape hshape
      split at h
      · cases h
      · rename_i m' hm
        obtain rfl := Except.ok.inj h
        obtain ⟨s, tail, hs, ht, htext⟩ := Spelling.exists_of_moment? hshape hm
        refine ⟨s, tail, hs, ht, htext, ?_⟩
        rw [htext, Spelling.shape?_text hs.fits ht, Option.some.injEq] at hshape
        rw [← hshape, Spelling.moment?_shape hs, Option.some.injEq] at hm
        exact hm.symm
  · rintro ⟨s, tail, hs, ht, htext, rfl⟩
    rw [← String.ofList_toList (s := text), htext]
    exact timeOfText_of_readable hs _ ht

theorem fault_of_timeOfText {text : String} {fault : TimeFault}
    (h : timeOfText text = .error fault) : fault = .notRfc3339 text ∨ fault = .outOfRange := by
  unfold timeOfText at h
  split at h
  · cases h
  · split at h
    · exact .inl (Except.error.inj h).symm
    · split at h
      · exact .inr (Except.error.inj h).symm
      · cases h

/-- Apart from the texts for an unset time, what is decoded are the spellings that can be read, with
or without a line feed at the end; all other texts are at fault. A text that is decoded is a
timestamp of the standard just if it has no line feed at the end, no digits of other scripts and no
more than 59 minutes in its zone. -/
theorem timestamps_accepted {text : String} (hset : text ∉ unsetTexts) :
    (∀ m, TimeInput.decode (.json (.str text)) = .ok m ↔
      ∃ (s : Spelling) (tail : List Char), s.Readable ∧ (tail = [] ∨ tail = ['\n']) ∧
        text.toList = s.text ++ tail ∧ m = s.cut.moment) ∧
    (∀ fault, TimeInput.decode (.json (.str text)) = .error fault →
      fault = .notRfc3339 text ∨ fault = .outOfRange) ∧
    ∀ (s : Spelling) (tail : List Char), s.Readable → (tail = [] ∨ tail = ['\n']) →
      text.toList = s.text ++ tail →
        (IsTimestamp text ↔
          tail = [] ∧ (∀ c ∈ s.fraction, Text.isAsciiDigit c = true) ∧ s.zone.Real) := by
  have hend (tail : List Char) : Rfc3339.atEnd tail = true ↔ tail = [] ∨ tail = ['\n'] := by
    simp [Rfc3339.atEnd]
  simp only [TimeInput.decode_text, ← hend]
  refine ⟨timeOfText_eq_ok_iff hset, fun fault h ↦ fault_of_timeOfText h, ?_⟩
  intro s tail hs ht htext
  rw [IsTimestamp, htext]
  exact Spelling.standard_iff hs ht

namespace Sample

/-- A spelling with a digit of another script behind the sixth of its fraction, and with 99 minutes
in its zone. -/
def foreignSpelling : Spelling :=
  ⟨⟨2024, 5, 1⟩, 'T', 12, 0, 0, "1234567٣".toList, .shifted '+' 5 99⟩

theorem readable_foreignSpelling : foreignSpelling.Readable where
  date := by decide
  mark := .inl rfl
  hour := by decide
  minute := by decide
  second := by decide
  fraction := List.all_eq_true.1 (by decide)
  leading := List.all_eq_true.1 (by decide)
  zone := by decide

end Sample

theorem timestamps_accepted_foreign :
    "2024-05-01T12:00:00.1234567٣+05:99\n" ∉ unsetTexts ∧
      TimeInput.decode (.json (.str "2024-05-01T12:00:00.1234567٣+05:99\n")) =
          .ok ⟨⟨2024, 5, 1⟩, 12, 0, 0, 123456, 23940⟩ ∧
        ¬ IsTimestamp "2024-05-01T12:00:00.1234567٣+05:99\n" := by
  have hset : "2024-05-01T12:00:00.1234567٣+05:99\n" ∉ unsetTexts := by decide
  have htext : "2024-05-01T12:00:00.1234567٣+05:99\n".toList =
      Sample.foreignSpelling.text ++ ['\n'] := by decide +kernel
  have hmoment : (⟨⟨2024, 5, 1⟩, 12, 0, 0, 123456, 23940⟩ : Moment) =
      Sample.foreignSpelling.cut.moment := by decide +kernel
  obtain ⟨hdecoded, -, hstandard⟩ := timestamps_accepted hset
  refine ⟨hset, ?_, ?_⟩
  · exact (hdecoded _).2 ⟨_, _, Sample.readable_foreignSpelling, .inr rfl, htext, hmoment⟩
  · intro h
    obtain ⟨htail, -⟩ := (hstandard _ _ Sample.readable_foreignSpelling (.inr rfl) htext).1 h
    cases htail

/-- A line feed behind a timestamp is let through. -/
theorem line_feed_accepted :
    ¬ ∀ text m, text ∉ unsetTexts → TimeInput.decode (.json (.str text)) = .ok m →
      IsTimestamp text := by
  intro h
  have hread : TimeInput.decode (.json (.str "2024-05-01T12:00:00Z\n")) =
      .ok ⟨⟨2024, 5, 1⟩, 12, 0, 0, 0, 0⟩ := by decide
  obtain ⟨s, hs, htext⟩ := h _ _ (by decide) hread
  apply hs.newline_not_mem
  rw [← htext]
  decide

end StatusRelay.ServiceHook
