import Mathlib.Data.List.TakeDrop
import StatusRelay.Proofs.Json.Escape
import StatusRelay.Proofs.Text.Digits

namespace StatusRelay.Json

open Text (IsPlain isAsciiDigit isAsciiDigit_of_mem_toDigits)

structure Separators.Sound (sep : Separators) : Prop where
  item : ∃ bs, sep.item.toList = ',' :: bs ∧ ∀ c ∈ bs, Reader.isSpace c = true
  key : ∃ bs, sep.key.toList = ':' :: bs ∧ ∀ c ∈ bs, Reader.isSpace c = true

theorem Separators.sound_compact : compact.Sound :=
  ⟨⟨[], rfl, by simp⟩, ⟨[], rfl, by simp⟩⟩

theorem Separators.sound_spaced : spaced.Sound :=
  ⟨⟨[' '], rfl, by simp [Reader.isSpace]⟩, ⟨[' '], rfl, by simp [Reader.isSpace]⟩⟩

structure Separators.Plain (sep : Separators) : Prop where
  item : IsPlain sep.item.toList
  key : IsPlain sep.key.toList

theorem Separators.plain_compact : compact.Plain := ⟨.of_all rfl, .of_all rfl⟩

theorem Separators.plain_spaced : spaced.Plain := ⟨.of_all rfl, .of_all rfl⟩

/-- A value without floating-point numbers, in whose objects no key comes twice. -/
inductive Value.Exact : Value → Prop
  | null : Exact .null
  | bool (b : Bool) : Exact (.bool b)
  | int (n : Int) : Exact (.int n)
  | str (s : String) : Exact (.str s)
  | arr {vs : List Value} (h : ∀ v ∈ vs, Exact v) : Exact (.arr vs)
  | obj {ms : Members} (hkeys : ms.keys.Nodup) (h : ∀ m ∈ ms, Exact m.2) : Exact (.obj ms)

namespace Writer

variable {longest room : Nat}

theorem itemsFault?_eq_none_iff {vs : List Value} :
    itemsFault? longest room vs = none ↔ ∀ v ∈ vs, fault? longest room v = none := by
  induction vs with
  | nil => exact iff_of_true (itemsFault?.eq_1 _ _) fun _ hv ↦ nomatch hv
  | cons v vs ih => rw [itemsFault?, Option.or_eq_none_iff, ih, List.forall_mem_cons]

theorem membersFault?_eq_none_iff {ms : Members} :
    membersFault? longest room ms = none ↔ ∀ m ∈ ms, fault? longest room m.2 = none := by
  induction ms with
  | nil => exact iff_of_true (membersFault?.eq_1 _ _) fun _ hm ↦ nomatch hm
  | cons m ms ih => rw [membersFault?, Option.or_eq_none_iff, ih, List.forall_mem_cons]

theorem fault?_str {s : String} : fault? longest room (.str s) = none := by
  cases room <;> rfl

theorem fault?_int_eq_none_iff {n : Int} :
    fault? longest room (.int n) = none ↔ (Nat.toDigits 10 n.natAbs).length ≤ longest := by
  simp [fault?]

theorem fault?_pow {k : Nat} (h : longest ≤ k) :
    fault? longest room (.int (Int.pow 10 k)) = some .numberTooLong := by
  have hsize : (Int.pow 10 k).natAbs = Nat.pow 10 k := Int.natAbs_pow 10 k
  rw [fault?, hsize, Text.length_toDigits_pow, if_pos (Nat.lt_succ_of_le h)]

theorem fault?_arr_eq_none_iff {vs : List Value} : fault? longest room (.arr vs) = none ↔
    ∃ below, room = below + 1 ∧ ∀ v ∈ vs, fault? longest below v = none := by
  cases room with
  | zero => simp [fault?]
  | succ room => simp [fault?, itemsFault?_eq_none_iff]

theorem fault?_obj_eq_none_iff {ms : Members} : fault? longest room (.obj ms) = none ↔
    ∃ below, room = below + 1 ∧ ∀ m ∈ ms, fault? longest below m.2 = none := by
  cases room with
  | zero => simp [fault?]
  | succ room => simp [fault?, membersFault?_eq_none_iff]

end Writer

namespace Reader

section Numbers

variable {longest n : Nat} {rest : List Char}

/-- A number other than zero does not start with a zero. -/
theorem exists_toDigits (hn : 0 < n) :
    ∃ d ds, Nat.toDigits 10 n = d :: ds ∧ d ≠ '0' ∧ isAsciiDigit d = true := by
  induction n using Nat.strongRecOn with
  | ind n ih =>
    rcases Nat.lt_or_ge n 10 with hlt | hge
    · have hfirst : ∀ m < 10, 0 < m → m.digitChar ≠ '0' ∧ isAsciiDigit m.digitChar = true := by
        decide
      exact ⟨n.digitChar, [], Nat.toDigits_of_lt_base hlt, hfirst n hlt hn⟩
    · obtain ⟨d, ds, hds, hd⟩ := ih (n / 10) (by omega) (by omega)
      exact ⟨d, _, by rw [Nat.toDigits_of_base_le (by decide) hge, hds]; rfl, hd⟩

/-- What may stand behind a number without being part of it. -/
def Stops (rest : List Char) : Prop :=
  ∀ c ∈ rest.head?, isAsciiDigit c = false ∧ c ≠ '.' ∧ c ≠ 'e' ∧ c ≠ 'E'

theorem digits_append {ds : List Char} (hds : ∀ c ∈ ds, isAsciiDigit c = true)
    (h : Stops rest) : digits (ds ++ rest) = (ds, rest) := by
  have htake : rest.takeWhile isAsciiDigit = [] ∧ rest.dropWhile isAsciiDigit = rest := by
    cases rest with
    | nil => exact ⟨rfl, rfl⟩
    | cons c rest =>
      have hc : isAsciiDigit c = false := (h c rfl).1
      exact ⟨List.takeWhile_cons_of_neg (by simp [hc]), List.dropWhile_cons_of_neg (by simp [hc])⟩
  rw [digits, List.span_eq_takeWhile_dropWhile, List.takeWhile_append_of_pos hds,
    List.dropWhile_append_of_pos hds, htake.1, htake.2, List.append_nil]

theorem wholePart?_toDigits (h : Stops rest) :
    wholePart? (Nat.toDigits 10 n ++ rest) = some (Nat.toDigits 10 n, rest) := by
  rcases Nat.eq_zero_or_pos n with rfl | hn
  · rfl
  · have hdigits := digits_append (fun c hc ↦ isAsciiDigit_of_mem_toDigits (n := n) hc) h
    obtain ⟨d, ds, hds, hd, hdigit⟩ := exists_toDigits hn
    rw [hds, List.cons_append] at hdigits ⊢
    simp only [wholePart?, hdigit, if_true, hdigits]

theorem Stops.fractionPart_eq (h : Stops rest) : fractionPart rest = ([], rest) := by
  apply fractionPart.eq_2
  rintro more rfl
  exact (h '.' rfl).2.1 rfl

theorem Stops.exponentPart?_eq (h : Stops rest) : exponentPart? rest = none := by
  apply exponentPart?.eq_3
  · rintro more rfl
    exact (h 'e' rfl).2.2.1 rfl
  · rintro more rfl
    exact (h 'E' rfl).2.2.2 rfl

theorem unsigned_toDigits (negative : Bool) (hn : (Nat.toDigits 10 n).length ≤ longest)
    (h : Stops rest) :
    unsigned longest negative (Nat.toDigits 10 n ++ rest) =
      .ok (.int (if negative then -(n : Int) else n), rest) := by
  simp only [unsigned, wholePart?_toDigits h, orMalformed, bind, Except.bind, h.fractionPart_eq,
    h.exponentPart?_eq, List.append_nil, Nat.ofDigitChars_ten_toDigits, if_neg (Nat.not_lt.2 hn)]
  rfl

theorem toList_toString_natCast (n : Nat) : (toString (n : Int)).toList = Nat.toDigits 10 n :=
  (congrArg String.toList Nat.repr_eq_ofList_toDigits).trans String.toList_ofList

theorem toList_toString_negSucc (n : Nat) :
    (toString (Int.negSucc n)).toList = '-' :: Nat.toDigits 10 (n + 1) := by
  change ("-" ++ (n + 1).repr).toList = _
  rw [String.toList_append, Nat.repr_eq_ofList_toDigits, String.toList_ofList,
    String.toList_ofList]
  rfl

theorem toDigits_append_ne {c : Char} {more : List Char} (hc : isAsciiDigit c = false) :
    Nat.toDigits 10 n ++ rest ≠ c :: more := by
  intro heq
  cases hds : Nat.toDigits 10 n with
  | nil => exact Nat.toDigits_ne_nil hds
  | cons d ds =>
    rw [hds] at heq
    obtain rfl : d = c := (List.cons.inj heq).1
    have hd : isAsciiDigit d = true :=
      isAsciiDigit_of_mem_toDigits (n := n) (hds ▸ List.mem_cons_self)
    exact Bool.false_ne_true (hc.symm.trans hd)

theorem number_toString {n : Int} (hn : (Nat.toDigits 10 n.natAbs).length ≤ longest)
    (h : Stops rest) : number longest ((toString n).toList ++ rest) = .ok (.int n, rest) := by
  cases n with
  | ofNat n =>
    rw [Int.ofNat_eq_natCast, toList_toString_natCast, number.eq_5 longest _
      (fun _ ↦ toDigits_append_ne rfl) (fun _ ↦ toDigits_append_ne rfl)
      (fun _ ↦ toDigits_append_ne rfl) (fun _ ↦ toDigits_append_ne rfl)]
    exact unsigned_toDigits false hn h
  | negSucc n =>
    rw [toList_toString_negSucc, List.cons_append,
      number.eq_4 longest _ fun _ ↦ toDigits_append_ne rfl]
    exact unsigned_toDigits true hn h

end Numbers

section Values

variable {longest room fuel : Nat} {sep : Separators} {rest : List Char}

theorem skipSpace_append {bs : List Char} (h : ∀ c ∈ bs, isSpace c = true) (cs : List Char) :
    skipSpace (bs ++ cs) = skipSpace cs := List.dropWhile_append_of_pos h

theorem skipSpace_cons {c : Char} (h : isSpace c = false) (cs : List Char) :
    skipSpace (c :: cs) = c :: cs := List.dropWhile_cons_of_neg (by simp [h])

theorem value_congr {cs cs' : List Char} (h : skipSpace cs = skipSpace cs') :
    value longest fuel room cs = value longest fuel room cs' := by
  cases fuel with
  | zero => rfl
  | succ fuel => rw [value.eq_2, value.eq_2, h]

theorem items_congr {cs cs' : List Char} (h : skipSpace cs = skipSpace cs') :
    items longest fuel room cs = items longest fuel room cs' := by
  cases fuel with
  | zero => rfl
  | succ fuel => rw [items.eq_2, items.eq_2, value_congr h]

theorem members_congr {cs cs' : List Char} (h : skipSpace cs = skipSpace cs') :
    members longest fuel room cs = members longest fuel room cs' := by
  cases fuel with
  | zero => rfl
  | succ fuel => rw [members.eq_2, members.eq_2, h]

theorem string_written (s : String) :
    string (s.toList.flatMap Writer.escape ++ '"' :: rest) = .ok (s, rest) := by
  rw [string, stringTail_written]
  simp [orMalformed, Except.map]

/-- A value whose first character belongs to no other kind of value is a number. -/
theorem value_number {c : Char} {cs : List Char} (hc : isSpace c = false)
    (hkind : c ∉ ['"', '[', '\x7b', 'n', 't', 'f']) :
    value longest (fuel + 1) room (c :: cs) = number longest (c :: cs) := by
  rw [value.eq_2, skipSpace_cons hc]
  split
  all_goals try rfl
  all_goals
    rename_i heq
    obtain rfl := (List.cons.inj heq).1
    exact absurd (by decide) hkind

theorem ne_of_isAsciiDigit {c d : Char} (hc : isAsciiDigit c = true)
    (hd : isAsciiDigit d = false) : c ≠ d := by
  rintro rfl
  exact Bool.false_ne_true (hd.symm.trans hc)

/-- A written number starts as no other value and no closing bracket does. -/
theorem exists_toString (n : Int) :
    ∃ c cs, (toString n).toList = c :: cs ∧ isSpace c = false ∧
      c ∉ ['"', '[', '\x7b', 'n', 't', 'f', ']'] := by
  cases n with
  | ofNat n =>
    rw [Int.ofNat_eq_natCast, toList_toString_natCast]
    cases hds : Nat.toDigits 10 n with
    | nil => exact absurd hds Nat.toDigits_ne_nil
    | cons d ds =>
      have hd : isAsciiDigit d = true :=
        isAsciiDigit_of_mem_toDigits (n := n) (hds ▸ List.mem_cons_self)
      have hne (c : Char) (hc : isAsciiDigit c = false) : d ≠ c := ne_of_isAsciiDigit hd hc
      refine ⟨d, ds, rfl, ?_, ?_⟩
      · simp [isSpace, hne ' ' rfl, hne '\t' rfl, hne '\n' rfl, hne '\r' rfl]
      · simp [hne '"' rfl, hne '[' rfl, hne '\x7b' rfl, hne 'n' rfl, hne 't' rfl, hne 'f' rfl,
          hne ']' rfl]
  | negSucc n => exact ⟨'-', _, toList_toString_negSucc n, rfl, by decide⟩

theorem value_toString {n : Int} (hn : (Nat.toDigits 10 n.natAbs).length ≤ longest)
    (h : Stops rest) :
    value longest (fuel + 1) room ((toString n).toList ++ rest) = .ok (.int n, rest) := by
  rw [← number_toString hn h]
  obtain ⟨c, cs, hcs, hc, hkind⟩ := exists_toString n
  rw [hcs, List.cons_append]
  exact value_number hc fun hmem ↦ hkind (List.mem_append_left [']'] hmem)

theorem exists_head (sep : Separators) {v : Value} (h : v.Exact) :
    ∃ c cs, Writer.value sep v = c :: cs ∧ isSpace c = false ∧ c ≠ ']' := by
  cases h with
  | null => exact ⟨'n', _, rfl, rfl, by decide⟩
  | bool b => cases b <;> exact ⟨_, _, rfl, rfl, by decide⟩
  | int n =>
    obtain ⟨c, cs, hcs, hc, hkind⟩ := exists_toString n
    refine ⟨c, cs, hcs, hc, ?_⟩
    rintro rfl
    exact hkind (by decide)
  | str s => exact ⟨'"', _, rfl, rfl, by decide⟩
  | @arr vs h => cases vs <;> exact ⟨'[', _, rfl, rfl, by decide⟩
  | @obj ms hkeys h => cases ms <;> exact ⟨'\x7b', _, rfl, rfl, by decide⟩

/-- The text of a value gives it back, with whatever follows. -/
def ReadsBack (longest room : Nat) (sep : Separators) (v : Value) : Prop :=
  ∀ fuel rest, (Writer.value sep v).length ≤ fuel → Stops rest →
    value longest fuel room (Writer.value sep v ++ rest) = .ok (v, rest)

theorem ReadsBack.of_succ {v : Value} (hv : v.Exact) (h : ∀ fuel rest,
      (Writer.value sep v).length ≤ fuel + 1 → Stops rest →
        value longest (fuel + 1) room (Writer.value sep v ++ rest) = .ok (v, rest)) :
    ReadsBack longest room sep v := by
  intro fuel rest hf hrest
  obtain ⟨c, cs, hcs, -⟩ := exists_head sep hv
  cases fuel with
  | zero => simp [hcs] at hf
  | succ fuel => exact h fuel rest hf hrest

theorem stops_cons {c : Char} (h : c ∈ [',', ']', '\x7d']) (cs : List Char) : Stops (c :: cs) := by
  intro d hd
  obtain rfl : c = d := Option.some.inj hd
  simp only [List.mem_cons, List.not_mem_nil, or_false] at h
  rcases h with rfl | rfl | rfl
  all_goals decide

section Steps

variable {v : Value} {vs : List Value} {ms : Members} {key : String}
  {cs rest' rest'' tail tail' : List Char}

theorem items_last (hv : value longest fuel room cs = .ok (v, tail))
    (ht : skipSpace tail = ']' :: rest) :
    items longest (fuel + 1) room cs = .ok ([v], rest) := by
  rw [items.eq_2, hv]
  simp only [bind, Except.bind, ht]

theorem items_more (hv : value longest fuel room cs = .ok (v, tail))
    (ht : skipSpace tail = ',' :: tail')
    (hvs : items longest fuel room tail' = .ok (vs, rest)) :
    items longest (fuel + 1) room cs = .ok (v :: vs, rest) := by
  rw [items.eq_2, hv]
  simp only [bind, Except.bind, ht, hvs, Except.map]

theorem members_last
    (hkey : skipSpace cs = '"' :: (key.toList.flatMap Writer.escape ++ '"' :: rest'))
    (hcolon : skipSpace rest' = ':' :: rest'') (hv : value longest fuel room rest'' = .ok (v, tail))
    (ht : skipSpace tail = '\x7d' :: rest) :
    members longest (fuel + 1) room cs = .ok ([(key, v)], rest) := by
  rw [members.eq_2, hkey]
  simp only [bind, Except.bind, string_written, colon, hcolon, hv, ht]

theorem members_more
    (hkey : skipSpace cs = '"' :: (key.toList.flatMap Writer.escape ++ '"' :: rest'))
    (hcolon : skipSpace rest' = ':' :: rest'') (hv : value longest fuel room rest'' = .ok (v, tail))
    (ht : skipSpace tail = ',' :: tail') (hms : members longest fuel room tail' = .ok (ms, rest)) :
    members longest (fuel + 1) room cs = .ok ((key, v) :: ms, rest) := by
  rw [members.eq_2, hkey]
  simp only [bind, Except.bind, string_written, colon, hcolon, hv, ht, hms, Except.map]

end Steps

theorem items_written (hsep : sep.Sound) {v : Value} {vs : List Value} (rest : List Char)
    (h : ∀ w ∈ v :: vs, ReadsBack longest room sep w)
    (hf : (Writer.value sep v ++ Writer.items sep vs).length ≤ fuel) :
    items longest fuel room (Writer.value sep v ++ (Writer.items sep vs ++ rest)) =
      .ok (v :: vs, rest) := by
  induction vs generalizing v fuel with
  | nil =>
    rw [Writer.items, List.length_append, List.length_singleton] at hf
    obtain ⟨fuel, rfl⟩ := Nat.exists_eq_add_of_le' (Nat.le_of_add_left_le hf)
    have hback : value longest fuel room (Writer.value sep v ++ (']' :: rest)) =
        .ok (v, ']' :: rest) :=
      h v List.mem_cons_self fuel _ (Nat.le_of_succ_le_succ hf) (stops_cons (by decide) rest)
    exact items_last hback rfl
  | cons w ws ih =>
    obtain ⟨bs, hbs, hblank⟩ := hsep.item
    have htext : Writer.items sep (w :: ws) ++ rest =
        ',' :: (bs ++ (Writer.value sep w ++ (Writer.items sep ws ++ rest))) := by
      simp [Writer.items, hbs]
    rw [Writer.items, hbs] at hf
    simp only [List.length_append, List.length_cons] at hf
    obtain ⟨fuel, rfl⟩ := Nat.exists_eq_add_of_le' (show 1 ≤ fuel by omega)
    rw [htext]
    have hstops : Stops (',' :: (bs ++ (Writer.value sep w ++ (Writer.items sep ws ++ rest)))) :=
      stops_cons (by decide) _
    have hback := h v List.mem_cons_self fuel _ (by omega) hstops
    have hlen : (Writer.value sep w ++ Writer.items sep ws).length ≤ fuel := by
      rw [List.length_append]
      omega
    have hrest := ih (fun u hu ↦ h u (List.mem_cons_of_mem v hu)) hlen
    rw [← items_congr (skipSpace_append hblank _)] at hrest
    exact items_more hback rfl hrest

def memberText (sep : Separators) (m : String × Value) : List Char :=
  Writer.string m.1 ++ (sep.key.toList ++ Writer.value sep m.2)

theorem exists_memberText (hsep : sep.Sound) : ∃ ks, (∀ c ∈ ks, isSpace c = true) ∧
    ∀ m after, memberText sep m ++ after = '"' :: (m.1.toList.flatMap Writer.escape ++
      '"' :: ':' :: (ks ++ (Writer.value sep m.2 ++ after))) := by
  obtain ⟨ks, hks, hblank⟩ := hsep.key
  refine ⟨ks, hblank, fun m after ↦ ?_⟩
  simp [memberText, Writer.string, hks]

theorem members_written (hsep : sep.Sound) {m : String × Value} {ms : Members}
    (rest : List Char) (h : ∀ e ∈ m :: ms, ReadsBack longest room sep e.2)
    (hf : (memberText sep m ++ Writer.members sep ms).length ≤ fuel) :
    members longest fuel room (memberText sep m ++ (Writer.members sep ms ++ rest)) =
      .ok (m :: ms, rest) := by
  obtain ⟨ks, hkblank, hmember⟩ := exists_memberText hsep
  induction ms generalizing m fuel with
  | nil =>
    simp only [Writer.members, memberText, List.length_append, List.length_singleton] at hf
    obtain ⟨fuel, rfl⟩ := Nat.exists_eq_add_of_le' (Nat.le_of_add_left_le hf)
    have hback : value longest fuel room (Writer.value sep m.2 ++ ('\x7d' :: rest)) =
        .ok (m.2, '\x7d' :: rest) :=
      h m List.mem_cons_self fuel _ (by omega) (stops_cons (by decide) rest)
    rw [← value_congr (skipSpace_append hkblank _)] at hback
    exact members_last (congrArg skipSpace (hmember m _)) rfl hback rfl
  | cons e ms ih =>
    obtain ⟨bs, hbs, hblank⟩ := hsep.item
    have htext : Writer.members sep (e :: ms) ++ rest =
        ',' :: (bs ++ (memberText sep e ++ (Writer.members sep ms ++ rest))) := by
      simp [Writer.members, memberText, hbs]
    simp only [Writer.members, memberText, hbs, List.length_append, List.length_cons] at hf
    obtain ⟨fuel, rfl⟩ := Nat.exists_eq_add_of_le' (show 1 ≤ fuel by omega)
    rw [htext]
    have hstops : Stops (',' :: (bs ++ (memberText sep e ++ (Writer.members sep ms ++ rest)))) :=
      stops_cons (by decide) _
    have hback := h m List.mem_cons_self fuel _ (by omega) hstops
    rw [← value_congr (skipSpace_append hkblank _)] at hback
    have hlen : (memberText sep e ++ Writer.members sep ms).length ≤ fuel := by
      simp only [memberText, List.length_append]
      omega
    have hrest := ih (fun d hd ↦ h d (List.mem_cons_of_mem m hd)) hlen
    rw [← members_congr (skipSpace_append hblank _)] at hrest
    exact members_more (congrArg skipSpace (hmember m _)) rfl hback rfl hrest

theorem value_arr {c : Char} {cs : List Char} {vs : List Value} (hblank : isSpace c = false)
    (hc : c ≠ ']') (h : items longest fuel room (c :: cs) = .ok (vs, rest)) :
    value longest (fuel + 1) (room + 1) ('[' :: c :: cs) = .ok (.arr vs, rest) := by
  rw [value.eq_2, skipSpace_cons rfl]
  simp only [below, skipSpace_cons hblank]
  split
  · rename_i heq
    exact absurd (List.cons.inj heq).1 hc
  · rw [h]
    rfl

theorem value_obj {cs : List Char} {ms : Members}
    (h : members longest fuel room ('"' :: cs) = .ok (ms, rest)) :
    value longest (fuel + 1) (room + 1) ('\x7b' :: '"' :: cs) =
      .ok (.obj (Table.ofPairs ms), rest) := by
  have hopen : value longest (fuel + 1) (room + 1) ('\x7b' :: '"' :: cs) =
      (members longest fuel room ('"' :: cs)).map fun p ↦ (.obj (Table.ofPairs p.1), p.2) := rfl
  rw [hopen, h]
  rfl

theorem readsBack (hsep : sep.Sound) {v : Value} (h : v.Exact)
    (hv : Writer.fault? longest room v = none) : ReadsBack longest room sep v := by
  -- On the value. Fuel is counted in characters, and every constructor writes one of its own.
  induction h generalizing room with
  | null => exact .of_succ .null fun _ _ _ _ ↦ rfl
  | bool b =>
    refine .of_succ (.bool b) fun _ _ _ _ ↦ ?_
    cases b <;> rfl
  | int n =>
    exact .of_succ (.int n) fun _ _ _ hrest ↦
      value_toString (Writer.fault?_int_eq_none_iff.1 hv) hrest
  | str s =>
    refine .of_succ (.str s) fun fuel rest _ _ ↦ ?_
    have hopen : value longest (fuel + 1) room (Writer.string s ++ rest) =
        (string (s.toList.flatMap Writer.escape ++ '"' :: rest)).map fun p ↦ (.str p.1, p.2) := by
      simp only [Writer.string, List.cons_append, List.append_assoc]
      rfl
    rw [Writer.value, hopen, string_written]
    rfl
  | @arr vs h ih =>
    obtain ⟨room, rfl, hvs⟩ := Writer.fault?_arr_eq_none_iff.1 hv
    refine .of_succ (.arr h) fun fuel rest hf _ ↦ ?_
    cases vs with
    | nil => rfl
    | cons v vs =>
      simp only [Writer.value, List.cons_append, List.append_assoc] at hf ⊢
      obtain ⟨c, cs, hcs, hblank, hc⟩ := exists_head sep (h v List.mem_cons_self)
      have hitems := items_written hsep rest (fun w hw ↦ ih w hw (hvs w hw))
        (Nat.le_of_succ_le_succ hf)
      rw [hcs] at hitems ⊢
      exact value_arr hblank hc hitems
  | @obj ms hkeys h ih =>
    obtain ⟨room, rfl, hms⟩ := Writer.fault?_obj_eq_none_iff.1 hv
    refine .of_succ (.obj hkeys h) fun fuel rest hf _ ↦ ?_
    cases ms with
    | nil => rfl
    | cons m ms =>
      have htext : Writer.value sep (.obj (m :: ms)) =
          '\x7b' :: (memberText sep m ++ Writer.members sep ms) := by
        simp [Writer.value, memberText]
      rw [htext] at hf ⊢
      have hmembers := members_written hsep rest (fun e he ↦ ih e he (hms e he))
        (Nat.le_of_succ_le_succ hf)
      obtain ⟨ks, -, hmember⟩ := exists_memberText hsep
      rw [List.cons_append, List.append_assoc]
      rw [hmember] at hmembers ⊢
      rw [value_obj hmembers, Table.ofPairs_of_nodup hkeys]

theorem whole_written {limits : Limits} (hsep : sep.Sound) {v : Value} (h : v.Exact)
    (hv : limits.fault? v = none) : whole limits (Writer.value sep v) = .ok v := by
  have hback := readsBack hsep h hv (2 * (Writer.value sep v).length + 1) [] (by omega)
    (fun _ hc ↦ nomatch hc)
  rw [List.append_nil] at hback
  rw [whole, hback]
  rfl

theorem isPlain_items (hsep : sep.Plain) {vs : List Value}
    (h : ∀ v ∈ vs, IsPlain (Writer.value sep v)) : IsPlain (Writer.items sep vs) := by
  induction vs with
  | nil => exact .cons (by decide) fun _ h ↦ nomatch h
  | cons v vs ih =>
    obtain ⟨hv, hvs⟩ := List.forall_mem_cons.1 h
    exact .append (.append hsep.item hv) (ih hvs)

theorem isPlain_members (hsep : sep.Plain) {ms : Members}
    (h : ∀ m ∈ ms, IsPlain (Writer.value sep m.2)) : IsPlain (Writer.members sep ms) := by
  induction ms with
  | nil => exact .cons (by decide) fun _ h ↦ nomatch h
  | cons m ms ih =>
    obtain ⟨hm, hms⟩ := List.forall_mem_cons.1 h
    exact .append (.append (.append (.append hsep.item (isPlain_string m.1)) hsep.key) hm) (ih hms)

theorem isPlain_toDigits (n : Nat) : IsPlain (Nat.toDigits 10 n) := by
  intro c hc
  obtain ⟨hlow, hhigh⟩ := Text.isAsciiDigit_iff.1 (isAsciiDigit_of_mem_toDigits hc)
  exact ⟨Nat.le_trans (by decide) hlow, Nat.le_trans hhigh (by decide)⟩

theorem isPlain_toString (n : Int) : IsPlain (toString n).toList := by
  cases n with
  | ofNat n =>
    rw [Int.ofNat_eq_natCast, toList_toString_natCast]
    exact isPlain_toDigits n
  | negSucc n =>
    rw [toList_toString_negSucc]
    exact .cons (by decide) (isPlain_toDigits (n + 1))

theorem isPlain_value (hsep : sep.Plain) {v : Value} (h : v.Exact) :
    IsPlain (Writer.value sep v) := by
  induction h with
  | null => exact .of_all rfl
  | bool b =>
    cases b with
    | true => exact .of_all rfl
    | false => exact .of_all rfl
  | int n => exact isPlain_toString n
  | str s => exact isPlain_string s
  | @arr vs h ih =>
    cases vs with
    | nil => exact .of_all rfl
    | cons v vs =>
      obtain ⟨hv, hvs⟩ := List.forall_mem_cons.1 ih
      exact .append (.cons (by decide) hv) (isPlain_items hsep hvs)
  | @obj ms hkeys h ih =>
    cases ms with
    | nil => exact .of_all rfl
    | cons m ms =>
      obtain ⟨hm, hms⟩ := List.forall_mem_cons.1 ih
      have hkey : IsPlain ('\x7b' :: Writer.string m.1) := .cons (by decide) (isPlain_string m.1)
      exact .append (.append (.append hkey hsep.key) hm) (isPlain_members hsep hms)

end Values
end Reader

section Texts

variable {limits : Limits} {sep : Separators} {v : Value}

theorem whole_write (hsep : sep.Sound) (h : v.Exact) (hv : limits.fault? v = none) :
    Reader.whole limits (write sep v).toList = .ok v := by
  rw [write, String.toList_ofList]
  exact Reader.whole_written hsep h hv

theorem isPlain_write (hsep : sep.Plain) (h : v.Exact) : IsPlain (write sep v).toList := by
  rw [write, String.toList_ofList]
  exact Reader.isPlain_value hsep h

theorem dump_eq_ok (hv : limits.fault? v = none) : dump limits sep v = .ok (write sep v) := by
  rw [dump, hv]

theorem dump_eq_error {fault : WriteFault} (hv : limits.fault? v = some fault) :
    dump limits sep v = .error fault := by
  rw [dump, hv]

end Texts
end StatusRelay.Json
