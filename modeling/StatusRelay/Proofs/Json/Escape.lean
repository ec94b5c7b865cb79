import Mathlib.Logic.Basic
import StatusRelay.Json.Reader
import StatusRelay.Json.Writer

namespace StatusRelay

namespace Text

/-- Beyond its first place a hexadecimal numeral grows at its end. -/
theorem hex_succ {width n : Nat} (hw : 0 < width) :
    hex (width + 1) n = hex width (n / 16) ++ [(n % 16).digitChar] := by
  rcases Nat.lt_or_ge n 16 with hn | hn
  · have hzero : n / 16 = 0 := by omega
    have hrest : n % 16 = n := by omega
    rw [hex, hex, hzero, hrest, Nat.toDigits_of_lt_base hn, Nat.toDigits_of_lt_base (by decide)]
    obtain ⟨w, rfl⟩ := Nat.exists_eq_add_of_lt hw
    simp [List.replicate_succ']
  · rw [hex, hex, Nat.toDigits_of_base_le (by decide) hn]
    simp

theorem hex_one {n : Nat} (hn : n < 16) : hex 1 n = [n.digitChar] := by
  rw [hex, Nat.toDigits_of_lt_base hn]
  rfl

def IsAscii (cs : List Char) : Prop := ∀ c ∈ cs, c.toNat < 128

/-- A text of characters that are printed as they are, none of which ends a line. -/
def IsPlain (cs : List Char) : Prop := ∀ c ∈ cs, 0x20 ≤ c.toNat ∧ c.toNat ≤ 0x7E

theorem IsPlain.isAscii {cs : List Char} (h : IsPlain cs) : IsAscii cs :=
  fun c hc ↦ Nat.lt_of_le_of_lt (h c hc).2 (by decide)

theorem IsPlain.of_all {cs : List Char}
    (h : cs.all (fun c ↦ decide (0x20 ≤ c.toNat ∧ c.toNat ≤ 0x7E)) = true) : IsPlain cs :=
  fun c hc ↦ of_decide_eq_true (List.all_eq_true.1 h c hc)

theorem IsPlain.append {cs ds : List Char} (hc : IsPlain cs) (hd : IsPlain ds) :
    IsPlain (cs ++ ds) := List.forall_mem_append.2 ⟨hc, hd⟩

theorem IsPlain.cons {c : Char} {cs : List Char} (hc : 0x20 ≤ c.toNat ∧ c.toNat ≤ 0x7E)
    (hcs : IsPlain cs) : IsPlain (c :: cs) := List.forall_mem_cons.2 ⟨hc, hcs⟩

end Text

namespace Json

open Text (IsPlain)
open Text.Unit16 (isHigh isLow pairChar)

namespace Reader

theorem hexDigit?_digitChar : ∀ n < 16, hexDigit? n.digitChar = some n := by decide

theorem plain_digitChar :
    ∀ n < 16, 0x20 ≤ n.digitChar.toNat ∧ n.digitChar.toNat ≤ 0x7E := by decide

/-- The four digits of a unit give it back. -/
theorem exists_hex {u : Nat} (hu : u < 0x10000) :
    ∃ a b c d, Text.hex 4 u = [a, b, c, d] ∧ unit? a b c d = some u ∧
      IsPlain [a, b, c, d] := by
  have hjoin :
      ((u / 16 / 16 / 16 * 16 + u / 16 / 16 % 16) * 16 + u / 16 % 16) * 16 + u % 16 = u := by
    omega
  have hfirst : u / 16 / 16 / 16 < 16 := by omega
  have hlow (n : Nat) : hexDigit? (n % 16).digitChar = some (n % 16) :=
    hexDigit?_digitChar _ (Nat.mod_lt n (by decide))
  refine ⟨(u / 16 / 16 / 16).digitChar, (u / 16 / 16 % 16).digitChar, (u / 16 % 16).digitChar,
    (u % 16).digitChar, ?_, ?_, ?_⟩
  · rw [Text.hex_succ (by decide), Text.hex_succ (by decide), Text.hex_succ (by decide),
      Text.hex_one hfirst]
    rfl
  · simp only [unit?, hexDigit?_digitChar _ hfirst, hlow, Option.bind_eq_bind, Option.bind_some,
      hjoin]
  · have hplain (n : Nat) :
        0x20 ≤ (n % 16).digitChar.toNat ∧ (n % 16).digitChar.toNat ≤ 0x7E :=
      plain_digitChar _ (Nat.mod_lt n (by decide))
    exact .cons (plain_digitChar _ hfirst) (.cons (hplain _) (.cons (hplain _)
      (.cons (hplain _) fun _ h ↦ nomatch h)))

/-- What follows an escaped unit: if it is another one, its digits are complete. -/
def Unbroken (cs : List Char) : Prop :=
  ∀ a b c d rest, cs = '\\' :: 'u' :: a :: b :: c :: d :: rest → ∃ u, unit? a b c d = some u

theorem stringTail_unit {u : Nat} {rest : List Char} (acc : List Char) (hu : u < 0x10000)
    (hh : isHigh u = false) (hrest : Unbroken rest) :
    stringTail acc (Writer.unitEscape u ++ rest) =
      stringTail (Text.Unit16.char u :: acc) rest := by
  obtain ⟨a, b, c, d, hhex, hunit, -⟩ := exists_hex hu
  rw [Writer.unitEscape, hhex]
  -- The reader looks ahead for the other half of a pair.
  by_cases hnext : ∃ e f g h more, rest = '\\' :: 'u' :: e :: f :: g :: h :: more
  · obtain ⟨e, f, g, h, more, rfl⟩ := hnext
    obtain ⟨low, hlow⟩ := hrest e f g h more rfl
    simp only [List.cons_append, List.nil_append]
    rw [stringTail.eq_3, hunit, hlow]
    simp [hh]
  · simp only [List.cons_append, List.nil_append]
    rw [stringTail.eq_4 acc a b c d rest fun e f g h more heq ↦ hnext ⟨e, f, g, h, more, heq⟩,
      hunit]

theorem stringTail_pair {high low : Nat} (acc rest : List Char) (hh : isHigh high = true)
    (hl : isLow low = true) :
    stringTail acc (Writer.unitEscape high ++ Writer.unitEscape low ++ rest) =
      stringTail (pairChar high low :: acc) rest := by
  have hhigh : high < 0x10000 := by
    simp only [isHigh, Bool.and_eq_true, decide_eq_true_eq] at hh
    omega
  have hlow : low < 0x10000 := by
    simp only [isLow, Bool.and_eq_true, decide_eq_true_eq] at hl
    omega
  obtain ⟨a, b, c, d, hhex, hunit, -⟩ := exists_hex hhigh
  obtain ⟨e, f, g, h, hhex', hunit', -⟩ := exists_hex hlow
  rw [Writer.unitEscape, Writer.unitEscape, hhex, hhex']
  simp only [List.cons_append, List.nil_append]
  rw [stringTail.eq_3, hunit, hunit']
  simp [hh, hl]

theorem stringTail_short {s c : Char} (acc rest : List Char) (h : shortEscape? s = some c) :
    stringTail acc ('\\' :: s :: rest) = stringTail (c :: acc) rest := by
  have hs : s ≠ 'u' := by
    rintro rfl
    cases h
  rw [stringTail.eq_5 acc s rest (fun _ _ _ _ _ _ _ _ _ hu ↦ absurd hu hs)
    (fun _ _ _ _ _ hu ↦ absurd hu hs), h]

theorem stringTail_plain {c : Char} (acc rest : List Char) (hq : c ≠ '"') (hb : c ≠ '\\')
    (hc : 0x20 ≤ c.toNat) : stringTail acc (c :: rest) = stringTail (c :: acc) rest := by
  rw [stringTail.eq_6 acc c rest hq (fun _ _ _ _ _ _ _ _ _ h ↦ absurd h hb)
    (fun _ _ _ _ _ h ↦ absurd h hb) (fun _ _ h ↦ absurd h hb), if_neg (Nat.not_lt.2 hc)]

theorem escape_cases (c : Char) :
    (∃ s, shortEscape? s = some c ∧ Writer.escape c = ['\\', s]) ∨
    (Writer.escape c = [c] ∧ c ≠ '"' ∧ c ≠ '\\' ∧ 0x20 ≤ c.toNat ∧ c.toNat ≤ 0x7E) ∨
    (c.toNat < 0x10000 ∧ Writer.escape c = Writer.unitEscape c.toNat) ∨
    (0x10000 ≤ c.toNat ∧ Writer.escape c =
      Writer.unitEscape (0xD800 + (c.toNat - 0x10000) / 0x400) ++
        Writer.unitEscape (0xDC00 + (c.toNat - 0x10000) % 0x400)) := by
  rcases eq_or_ne c '"' with rfl | hq
  · exact .inl ⟨'"', rfl, rfl⟩
  rcases eq_or_ne c '\\' with rfl | hb
  · exact .inl ⟨'\\', rfl, rfl⟩
  rcases eq_or_ne c '\n' with rfl | hn
  · exact .inl ⟨'n', rfl, rfl⟩
  rcases eq_or_ne c '\r' with rfl | hr
  · exact .inl ⟨'r', rfl, rfl⟩
  rcases eq_or_ne c '\t' with rfl | ht
  · exact .inl ⟨'t', rfl, rfl⟩
  rcases eq_or_ne c '\x08' with rfl | h8
  · exact .inl ⟨'b', rfl, rfl⟩
  rcases eq_or_ne c '\x0C' with rfl | hC
  · exact .inl ⟨'f', rfl, rfl⟩
  right
  simp only [Writer.escape, beq_eq_false_iff_ne.2 hq, beq_eq_false_iff_ne.2 hb,
    beq_eq_false_iff_ne.2 hn, beq_eq_false_iff_ne.2 hr, beq_eq_false_iff_ne.2 ht,
    beq_eq_false_iff_ne.2 h8, beq_eq_false_iff_ne.2 hC, Bool.or_self, Bool.false_eq_true, if_false]
  split
  · rename_i hplain
    rw [Bool.and_eq_true, decide_eq_true_eq, decide_eq_true_eq] at hplain
    exact .inl ⟨rfl, hq, hb, hplain⟩
  · split
    · exact .inr (.inl ⟨‹_›, rfl⟩)
    · exact .inr (.inr ⟨Nat.le_of_not_lt ‹_›, rfl⟩)

theorem toNat_cases (c : Char) :
    c.toNat < 0xD800 ∨ 0xDFFF < c.toNat ∧ c.toNat < 0x110000 := c.valid

theorem isHalf_toNat (c : Char) : isHigh c.toNat = false ∧ isLow c.toNat = false := by
  have hc := toNat_cases c
  simp only [isHigh, isLow, Bool.and_eq_false_iff, decide_eq_false_iff_not]
  omega

theorem char_toNat (c : Char) : Text.Unit16.char c.toNat = c := by
  obtain ⟨hh, hl⟩ := isHalf_toNat c
  simp [Text.Unit16.char, hh, hl]

theorem chars_map_toNat (cs : List Char) : Text.Unit16.chars (cs.map Char.toNat) = cs := by
  induction cs with
  | nil => rfl
  | cons c cs ih =>
    cases cs with
    | nil => rw [List.map_singleton, Text.Unit16.chars, char_toNat]
    | cons d cs =>
      have hpair : (isHigh c.toNat && isLow d.toNat) = false := by
        rw [(isHalf_toNat c).1, Bool.false_and]
      rw [List.map_cons, List.map_cons, Text.Unit16.chars, hpair, if_neg Bool.false_ne_true,
        char_toNat, ← List.map_cons, ih]

/-- A character beyond the first plane is the pair of its units. -/
theorem pair_toNat {c : Char} (hc : 0x10000 ≤ c.toNat) :
    isHigh (0xD800 + (c.toNat - 0x10000) / 0x400) = true ∧
    isLow (0xDC00 + (c.toNat - 0x10000) % 0x400) = true ∧
    pairChar (0xD800 + (c.toNat - 0x10000) / 0x400) (0xDC00 + (c.toNat - 0x10000) % 0x400) = c := by
  have hmax : c.toNat < 0x110000 := by
    have h := toNat_cases c
    omega
  have hsum : 0x10000 + (c.toNat - 0x10000) / 0x400 * 0x400 + (c.toNat - 0x10000) % 0x400 =
      c.toNat := by omega
  refine ⟨?_, ?_, ?_⟩
  · simp only [isHigh, Bool.and_eq_true, decide_eq_true_eq]
    omega
  · simp only [isLow, Bool.and_eq_true, decide_eq_true_eq]
    omega
  · rw [pairChar, Nat.add_sub_cancel_left, Nat.add_sub_cancel_left, hsum, Char.ofNat_toNat]

theorem unbroken_unit {u : Nat} {rest : List Char} (hu : u < 0x10000) :
    Unbroken (Writer.unitEscape u ++ rest) := by
  obtain ⟨a, b, c, d, hhex, hunit, -⟩ := exists_hex hu
  intro a' b' c' d' rest' heq
  rw [Writer.unitEscape, hhex] at heq
  cases heq
  exact ⟨u, hunit⟩

theorem Unbroken.of_ne {c : Char} {rest : List Char} (h : c ≠ '\\') : Unbroken (c :: rest) := by
  intro a b c d rest heq
  exact absurd (List.cons.inj heq).1 h

theorem unbroken_written (cs rest : List Char) :
    Unbroken (cs.flatMap Writer.escape ++ '"' :: rest) := by
  cases cs with
  | nil => exact .of_ne (by decide)
  | cons c cs =>
    rw [List.flatMap_cons, List.append_assoc]
    rcases escape_cases c with ⟨s, hs, he⟩ | ⟨he, -, hb, -⟩ | ⟨hc, he⟩ | ⟨hc, he⟩
    · intro a b c d rest heq
      rw [he] at heq
      obtain rfl : s = 'u' := (List.cons.inj (List.cons.inj heq).2).1
      cases hs
    · rw [he]
      exact .of_ne hb
    · rw [he]
      exact unbroken_unit hc
    · rcases toNat_cases c with hlow | ⟨-, hmax⟩
      · omega
      · rw [he, List.append_assoc]
        apply unbroken_unit
        omega

theorem stringTail_escape (acc : List Char) (c : Char) {rest : List Char} (h : Unbroken rest) :
    stringTail acc (Writer.escape c ++ rest) = stringTail (c :: acc) rest := by
  rcases escape_cases c with ⟨s, hs, he⟩ | ⟨he, hq, hb, hc, -⟩ | ⟨hc, he⟩ | ⟨hc, he⟩
  · rw [he]
    exact stringTail_short acc rest hs
  · rw [he]
    exact stringTail_plain acc rest hq hb hc
  · rw [he, stringTail_unit acc hc (isHalf_toNat c).1 h, char_toNat]
  · obtain ⟨hh, hl, hpair⟩ := pair_toNat hc
    rw [he, stringTail_pair acc rest hh hl, hpair]

theorem stringTail_written (acc cs rest : List Char) :
    stringTail acc (cs.flatMap Writer.escape ++ '"' :: rest) = some (acc.reverse ++ cs, rest) := by
  induction cs generalizing acc with
  | nil => simp [stringTail.eq_2]
  | cons c cs ih =>
    rw [List.flatMap_cons, List.append_assoc, stringTail_escape acc c (unbroken_written cs rest),
      ih, List.reverse_cons, List.append_assoc]
    rfl

theorem isPlain_unitEscape {u : Nat} (hu : u < 0x10000) : IsPlain (Writer.unitEscape u) := by
  obtain ⟨a, b, c, d, hhex, -, hplain⟩ := exists_hex hu
  rw [Writer.unitEscape, hhex]
  exact .cons (by decide) (.cons (by decide) hplain)

theorem isPlain_escape (c : Char) : IsPlain (Writer.escape c) := by
  rcases escape_cases c with ⟨s, hs, he⟩ | ⟨he, -, -, hc⟩ | ⟨hc, he⟩ | ⟨hc, he⟩
  · have hplain : 0x20 ≤ s.toNat ∧ s.toNat ≤ 0x7E := by
      unfold shortEscape? at hs
      split at hs
      all_goals first | decide | cases hs
    rw [he]
    exact .cons (by decide) (.cons hplain fun _ h ↦ nomatch h)
  · rw [he]
    exact .cons hc fun _ h ↦ nomatch h
  · rw [he]
    exact isPlain_unitEscape hc
  · have hmax := toNat_cases c
    rw [he]
    exact .append (isPlain_unitEscape (by omega)) (isPlain_unitEscape (by omega))

theorem isPlain_string (s : String) : IsPlain (Writer.string s) := by
  refine .append (.cons (by decide) ?_) (.cons (by decide) fun _ h ↦ nomatch h)
  intro x hx
  obtain ⟨c, -, hc⟩ := List.mem_flatMap.1 hx
  exact isPlain_escape c x hc

end Reader
end Json
end StatusRelay
