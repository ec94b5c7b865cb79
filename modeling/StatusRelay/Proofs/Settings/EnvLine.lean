import Mathlib.Data.List.Infix
import Mathlib.Data.List.DropRight
import StatusRelay.Settings.EnvFile

namespace StatusRelay.EnvFile

open Text (isBlank)

variable {cs rest : List Char}

section Progress

theorem skipInline_suffix (cs : List Char) : skipInline cs <:+ cs := List.dropWhile_suffix _

theorem dropExport_suffix (cs : List Char) : dropExport cs <:+ cs := by
  unfold dropExport
  split
  · split
    · refine (skipInline_suffix _).trans ⟨['e', 'x', 'p', 'o', 'r', 't', _], rfl⟩
    · exact List.suffix_rfl
  · exact List.suffix_rfl

theorem quotedText?_suffix {quote : Char} {acc s : List Char}
    (h : quotedText? quote acc cs = some (s, rest)) : rest <:+ cs := by
  induction acc, cs using quotedText?.induct quote with
  | case1 => cases h
  | case2 acc c cs ih => exact (ih h).trans ⟨['\\', c], rfl⟩
  | case3 acc c cs hne hc =>
    rw [quotedText?.eq_3 _ _ _ _ hne, if_pos hc] at h
    obtain ⟨-, rfl⟩ := Prod.mk.inj (Option.some.inj h)
    exact List.suffix_cons _ _
  | case4 acc c cs hne hc ih =>
    rw [quotedText?.eq_3 _ _ _ _ hne, if_neg hc] at h
    exact (ih h).trans (List.suffix_cons _ _)

/-- Where reading goes on after a success, and where it stopped after a failure. -/
def stop {α : Type} : Except (List Char) (α × List Char) → List Char
  | .ok (_, rest) => rest
  | .error rest => rest

theorem value_suffix (cs : List Char) : stop (value cs) <:+ cs := by
  have hskip := skipInline_suffix cs
  unfold value
  split
  · rename_i tail heq
    rw [heq] at hskip
    split
    · rename_i s rest hq
      exact (quotedText?_suffix hq).trans ((List.suffix_cons _ _).trans hskip)
    · exact hskip
  · rename_i tail heq
    rw [heq] at hskip
    split
    · rename_i s rest hq
      exact (quotedText?_suffix hq).trans ((List.suffix_cons _ _).trans hskip)
    · exact hskip
  · dsimp only [stop]
    rw [List.span_eq_takeWhile_dropWhile]
    exact List.dropWhile_suffix _

/-- A name takes at least one character; a comment is left for the end of the line. -/
theorem key_cases (cs : List Char) : key cs = .error cs ∨
    (∃ tail, cs = '#' :: tail ∧ key cs = .ok (none, cs)) ∨
    ∃ name rest, key cs = .ok (some name, rest) ∧ rest <:+ cs ∧ rest.length < cs.length := by
  unfold key
  split
  · exact .inr (.inl ⟨_, rfl, rfl⟩)
  · rename_i tail
    rw [List.span_eq_takeWhile_dropWhile]
    cases hd : tail.dropWhile (· != '\'') with
    | nil => exact .inl rfl
    | cons c after =>
      have hsuffix : after <:+ tail :=
        (List.suffix_cons c after).trans (hd ▸ List.dropWhile_suffix _)
      dsimp only
      split
      · exact .inl rfl
      · exact .inr (.inr ⟨_, after, rfl, hsuffix.trans (List.suffix_cons _ _),
          Nat.lt_succ_of_le hsuffix.length_le⟩)
  · rw [List.span_eq_takeWhile_dropWhile]
    dsimp only
    split
    · exact .inl rfl
    · rename_i hne
      refine .inr (.inr ⟨_, _, rfl, List.dropWhile_suffix _, ?_⟩)
      have hpos := List.length_pos_iff.2 (mt List.isEmpty_iff.2 hne)
      have hsum := congrArg List.length (List.takeWhile_append_dropWhile (l := cs)
        (p := fun c ↦ c != '=' && c != '#' && !isBlank c))
      rw [List.length_append] at hsum
      omega

theorem skipComment_suffix (cs : List Char) : skipComment cs <:+ cs := by
  unfold skipComment
  split
  · rename_i tail heq
    have hskip := skipInline_suffix cs
    rw [heq] at hskip
    exact (List.dropWhile_suffix _).trans ((List.suffix_cons _ _).trans hskip)
  · exact List.suffix_rfl

theorem lineEnd_cases (cs : List Char) :
    (∃ rest, lineEnd cs = .ok rest ∧ rest <:+ skipComment cs) ∨
      lineEnd cs = .error (skipComment cs) := by
  unfold lineEnd
  have hskip := skipInline_suffix (skipComment cs)
  split
  · exact .inl ⟨[], rfl, List.nil_suffix⟩
  · rename_i c rest heq
    rw [heq] at hskip
    split
    · exact .inl ⟨rest, rfl, (List.suffix_cons c rest).trans hskip⟩
    · exact .inr rfl

theorem bound_suffix (cs : List Char) : stop (bound cs) <:+ cs := by
  have hskip := skipInline_suffix cs
  unfold bound
  split
  · rename_i tail heq
    rw [heq] at hskip
    refine List.IsSuffix.trans ?_ ((List.suffix_cons '=' tail).trans hskip)
    have hvalue := value_suffix tail
    cases hv : value tail with
    | ok p => rwa [hv] at hvalue
    | error e => rwa [hv] at hvalue
  · exact hskip

/-- A binding takes at least one character, and a failure comes back to none before. -/
theorem binding_cases (cs : List Char) :
    (∃ b rest, binding cs = .ok (b, rest) ∧ rest.length < cs.length) ∨
      ∃ rest, binding cs = .error rest ∧ rest.length ≤ cs.length := by
  have hexport := (dropExport_suffix cs).length_le
  obtain hk | ⟨tail, hcs, hk⟩ | ⟨name, rest, hk, hsuffix, hlt⟩ := key_cases (dropExport cs)
  · exact .inr ⟨_, by rw [binding, hk]; rfl, hexport⟩
  · have hcomment : (skipComment ('#' :: tail)).length ≤ tail.length :=
      (List.dropWhile_suffix _).length_le
    have hb : bound ('#' :: tail) = .ok (none, '#' :: tail) := rfl
    rw [hcs, List.length_cons] at hexport
    obtain ⟨rest, hl, hrest⟩ | hl := lineEnd_cases ('#' :: tail)
    · refine .inl ⟨none, rest, ?_, ?_⟩
      · rw [binding, hk, hcs]
        simp only [bind, Except.bind, hb, hl, Option.map_none]
      · have hle := hrest.length_le
        omega
    · refine .inr ⟨skipComment ('#' :: tail), ?_, ?_⟩
      · rw [binding, hk, hcs]
        simp only [bind, Except.bind, hb, hl]
      · omega
  · have hbound := (bound_suffix rest).length_le
    cases hb : bound rest with
    | error e =>
      rw [hb, stop] at hbound
      refine .inr ⟨e, ?_, ?_⟩
      · rw [binding, hk]
        simp only [bind, Except.bind, hb]
      · omega
    | ok p =>
      obtain ⟨v, after⟩ := p
      rw [hb, stop] at hbound
      have hcomment := (skipComment_suffix after).length_le
      obtain ⟨last, hl, hlast⟩ | hl := lineEnd_cases after
      · refine .inl ⟨some (name, v), last, ?_, ?_⟩
        · rw [binding, hk]
          simp only [bind, Except.bind, hb, hl, Option.map_some]
        · have hle := hlast.length_le
          omega
      · refine .inr ⟨skipComment after, ?_, ?_⟩
        · rw [binding, hk]
          simp only [bind, Except.bind, hb, hl]
        · omega

theorem length_dropLine (cs : List Char) : (dropLine cs).length ≤ cs.length - 1 := by
  have hdrop := (List.dropWhile_suffix (l := cs) (!isLineEnd ·)).length_le
  rw [dropLine, List.length_drop]
  omega

theorem bindingsFrom_congr {n m : Nat} (hn : cs.length < n) (hm : cs.length < m) :
    bindingsFrom n cs = bindingsFrom m cs := by
  induction n generalizing m cs with
  | zero => omega
  | succ n ih =>
    obtain ⟨m, rfl⟩ : ∃ m', m = m' + 1 := ⟨m - 1, by omega⟩
    have hblank := (List.dropWhile_suffix (l := cs) isBlank).length_le
    unfold bindingsFrom
    cases hd : cs.dropWhile isBlank with
    | nil => rfl
    | cons c tail =>
      rw [hd] at hblank
      obtain ⟨b, rest, hb, hlt⟩ | ⟨rest, hb, hle⟩ := binding_cases (c :: tail)
      · have hrest : bindingsFrom n rest = bindingsFrom m rest := ih (by omega) (by omega)
        cases b <;> simp only [hb, hrest]
      · have hline := length_dropLine rest
        rw [List.length_cons] at hblank hle
        simp only [hb]
        exact ih (by omega) (by omega)

end Progress

theorem bindings_of_ok {c : Char} {b : Option (List Char × Option (List Char))}
    (hc : isBlank c = false) (h : binding (c :: cs) = .ok (b, rest)) :
    bindings (c :: cs) = b.toList ++ bindings rest := by
  have hd : (c :: cs).dropWhile isBlank = c :: cs := List.dropWhile_cons_of_neg (by simp [hc])
  have hlt : rest.length < (c :: cs).length := by
    obtain ⟨b', rest', hb, hlt⟩ | ⟨rest', hb, -⟩ := binding_cases (c :: cs)
    · rw [h, Except.ok.injEq, Prod.mk.injEq] at hb
      exact hb.2 ▸ hlt
    · rw [h] at hb
      cases hb
  have hrest : bindingsFrom (c :: cs).length rest = bindings rest :=
    bindingsFrom_congr hlt (Nat.lt_succ_self _)
  rw [bindings, bindingsFrom, hd]
  simp only [h]
  cases b <;> simp only [hrest, Option.toList_none, Option.toList_some, List.nil_append,
    List.singleton_append]

structure PlainName (name : List Char) : Prop where
  ne_nil : name ≠ []
  plain : ∀ c ∈ name, c ≠ '=' ∧ c ≠ '#' ∧ c ≠ '\'' ∧ isBlank c = false

def LineOver (cs : List Char) : Prop := ∀ c ∈ cs.head?, isLineEnd c = true

inductive Quotes where
  | none
  | single
  | double
deriving DecidableEq, Repr

def Quotes.around : Quotes → List Char → List Char
  | none, cs => cs
  | single, cs => '\'' :: (cs ++ ['\''])
  | double, cs => '"' :: (cs ++ ['"'])

variable {name v after : List Char}

theorem not_inlineBlank {c : Char} (h : isBlank c = false) : isInlineBlank c = false := by
  rw [isInlineBlank, h, Bool.false_and]

theorem skipInline_of_not_blank {c : Char} (h : isInlineBlank c = false) (cs : List Char) :
    skipInline (c :: cs) = c :: cs := List.dropWhile_cons_of_neg (by simp [h])

theorem PlainName.of_all (hne : name ≠ [])
    (h : name.all (fun c ↦ c != '=' && c != '#' && c != '\'' && !isBlank c) = true) :
    PlainName name := by
  refine ⟨hne, fun c hc ↦ ?_⟩
  simpa [and_assoc] using List.all_eq_true.1 h c hc

theorem PlainName.not_return (h : PlainName name) : '\r' ∉ name :=
  fun hmem ↦ absurd (h.plain _ hmem).2.2.2 (by decide)

theorem PlainName.mem_or_eq (h : PlainName name) {c : Char} (hc : c ∈ name ∨ c = '=') :
    isInlineBlank c = false := by
  obtain hc | rfl := hc
  · exact not_inlineBlank (h.plain c hc).2.2.2
  · decide

/-- No name has the blank that follows `export`. -/
theorem PlainName.dropExport_eq (h : PlainName name) (rest : List Char) :
    dropExport (name ++ '=' :: rest) = name ++ '=' :: rest := by
  unfold dropExport
  split
  · rename_i c tail heq
    have hc : c ∈ name ∨ c = '=' := by
      rcases name with _ | ⟨_, _ | ⟨_, _ | ⟨_, _ | ⟨_, _ | ⟨_, _ | ⟨_, _ | ⟨d, name⟩⟩⟩⟩⟩⟩⟩ <;>
        simp_all
      exact .inr heq.2.2.2.2.2.2.1.symm
    rw [h.mem_or_eq hc]
    rfl
  · rfl

theorem PlainName.key_eq (h : PlainName name) (rest : List Char) :
    key (name ++ '=' :: rest) = .ok (some name, '=' :: rest) := by
  have htake : ∀ c ∈ name, (c != '=' && c != '#' && !isBlank c) = true := by
    intro c hc
    obtain ⟨heq, hcomment, -, hblank⟩ := h.plain c hc
    simp [heq, hcomment, hblank]
  unfold key
  split
  · rename_i tail heq
    obtain _ | ⟨d, name⟩ := name
    · exact absurd rfl h.ne_nil
    · obtain ⟨rfl, -⟩ := List.cons.inj heq
      exact absurd rfl (h.plain '#' List.mem_cons_self).2.1
  · rename_i tail heq
    obtain _ | ⟨d, name⟩ := name
    · exact absurd rfl h.ne_nil
    · obtain ⟨rfl, -⟩ := List.cons.inj heq
      exact absurd rfl (h.plain '\'' List.mem_cons_self).2.2.1
  · rw [List.span_eq_takeWhile_dropWhile, List.takeWhile_append_of_pos htake,
      List.dropWhile_append_of_pos htake]
    have hne : name.isEmpty = false := by simpa using h.ne_nil
    simp [hne]

theorem lineEnd_of_lineOver (h : LineOver after) : lineEnd after = .ok after.tail := by
  cases after with
  | nil => rfl
  | cons c rest =>
    have hc : isLineEnd c = true := h c rfl
    have hskip : skipInline (c :: rest) = c :: rest :=
      skipInline_of_not_blank (by rw [isInlineBlank, hc, Bool.not_true, Bool.and_false]) rest
    have hcomment : skipComment (c :: rest) = c :: rest := by
      unfold skipComment
      split
      · rename_i tail heq
        rw [hskip] at heq
        obtain ⟨rfl, -⟩ := List.cons.inj heq
        cases hc
      · rfl
    simp only [lineEnd, hcomment, hskip, hc, if_true, List.tail_cons]

/-- A line is read as its name and its value, if the value alone is. -/
theorem binding_line (hn : PlainName name) {text : List Char}
    (hv : value (text ++ after) = .ok (v, after)) (ha : LineOver after) :
    binding (name ++ '=' :: (text ++ after)) = .ok (some (name, some v), after.tail) := by
  have hb : bound ('=' :: (text ++ after)) = .ok (some v, after) := by
    have hskip : skipInline ('=' :: (text ++ after)) = '=' :: (text ++ after) :=
      skipInline_of_not_blank (by decide) _
    simp only [bound, hskip, hv]
    rfl
  rw [binding, hn.dropExport_eq, hn.key_eq]
  simp only [bind, Except.bind, hb, lineEnd_of_lineOver ha, Option.map_some]

theorem bindings_line (hn : PlainName name) {text : List Char}
    (hv : value (text ++ after) = .ok (v, after)) (ha : LineOver after) :
    bindings (name ++ '=' :: (text ++ after)) = (name, some v) :: bindings after.tail := by
  have hb := binding_line hn hv ha
  obtain _ | ⟨c, name⟩ := name
  · exact absurd rfl hn.ne_nil
  · exact bindings_of_ok (hn.plain c List.mem_cons_self).2.2.2 hb

theorem bindings_of_blank {c : Char} (hc : isBlank c = true) : bindings (c :: cs) = bindings cs := by
  have hd : (c :: cs).dropWhile isBlank = cs.dropWhile isBlank := List.dropWhile_cons_of_pos hc
  have hfuel : bindings cs = bindingsFrom ((c :: cs).length + 1) cs :=
    bindingsFrom_congr (Nat.lt_succ_self _) (by rw [List.length_cons]; omega)
  rw [hfuel, bindings, bindingsFrom, hd]
  conv_rhs => rw [bindingsFrom]

theorem isBlank_of_isLineEnd {c : Char} (h : isLineEnd c = true) : isBlank c = true := by
  rw [isLineEnd, Bool.or_eq_true, beq_iff_eq, beq_iff_eq] at h
  obtain rfl | rfl := h <;> decide

theorem bindings_tail (ha : LineOver after) : bindings after.tail = bindings after := by
  cases after with
  | nil => rfl
  | cons c rest => exact (bindings_of_blank (isBlank_of_isLineEnd (ha c rfl))).symm

structure Bare (text : List Char) : Prop where
  begins : ∀ c ∈ text.head?, c ≠ '\'' ∧ c ≠ '"' ∧ isBlank c = false
  ends : ∀ c ∈ text.getLast?, isBlank c = false
  noComment : '#' ∉ text
  oneLine : ∀ c ∈ text, isLineEnd c = false

theorem dropComment_of_not_mem (h : '#' ∉ cs) : dropComment cs = cs := by
  induction cs with
  | nil => rfl
  | cons c cs ih =>
    rw [List.mem_cons, not_or] at h
    have hhead : ((cs.dropWhile isBlank).head? == some '#') = false := by
      rw [beq_eq_false_iff_ne]
      intro hmark
      exact h.2 ((List.dropWhile_suffix _).subset (List.mem_of_mem_head? hmark))
    rw [dropComment, hhead, Bool.and_false, ih h.2]
    rfl

theorem dropWhile_of_head {p : Char → Bool} (h : ∀ c ∈ cs.head?, p c = false) :
    cs.dropWhile p = cs := by
  cases cs with
  | nil => rfl
  | cons c cs => exact List.dropWhile_cons_of_neg (by simp [h c rfl])

theorem trimBy_of_ends {p : Char → Bool} (hh : ∀ c ∈ cs.head?, p c = false)
    (hl : ∀ c ∈ cs.getLast?, p c = false) : Text.trimBy p cs = cs := by
  rw [Text.trimBy, dropWhile_of_head hh, dropWhile_of_head, List.reverse_reverse]
  rwa [List.head?_reverse]

theorem value_bare {text : List Char} (h : Bare text) (hne : text ≠ []) (ha : LineOver after) :
    value (text ++ after) = .ok (text, after) := by
  obtain _ | ⟨c, cs⟩ := text
  · exact absurd rfl hne
  obtain ⟨hsingle, hdouble, hblank⟩ := h.begins c rfl
  have hskip : skipInline (c :: (cs ++ after)) = c :: (cs ++ after) :=
    skipInline_of_not_blank (not_inlineBlank hblank) _
  have hone : ∀ d ∈ c :: cs, (!isLineEnd d) = true := by
    intro d hd
    rw [h.oneLine d hd]
    rfl
  have hafter : after.takeWhile (!isLineEnd ·) = [] ∧ after.dropWhile (!isLineEnd ·) = after := by
    cases after with
    | nil => exact ⟨rfl, rfl⟩
    | cons d rest => simp [ha d rfl]
  have hread : unquotedValue (c :: cs) = c :: cs := by
    rw [unquotedValue, dropComment_of_not_mem h.noComment]
    exact trimBy_of_ends (fun d hd ↦ (h.begins d hd).2.2) h.ends
  unfold value
  rw [List.cons_append, hskip]
  split
  · rename_i heq
    exact absurd (List.cons.inj heq).1 hsingle
  · rename_i heq
    exact absurd (List.cons.inj heq).1 hdouble
  · rw [← List.cons_append, List.span_eq_takeWhile_dropWhile,
      List.takeWhile_append_of_pos hone, List.dropWhile_append_of_pos hone, hafter.1, hafter.2,
      List.append_nil]
    simp only [hread]

/-- Lines up to the end of one of them: what comes after them is read as if it stood alone. -/
def Whole (cs : List Char) : Prop := ∀ rest, bindings (cs ++ rest) = bindings cs ++ bindings rest

theorem whole_nil : Whole [] := fun _ ↦ rfl

theorem whole_line {c : Char} (hc : isLineEnd c = true) (hn : PlainName name) {text : List Char}
    (hv : ∀ rest, value (text ++ c :: rest) = .ok (v, c :: rest)) :
    Whole (name ++ '=' :: (text ++ [c])) := by
  have hread (rest : List Char) : bindings (name ++ '=' :: (text ++ c :: rest)) =
      (name, some v) :: bindings rest := by
    refine bindings_line hn (hv rest) ?_
    rintro d ⟨⟩
    exact hc
  intro rest
  rw [hread [], List.append_assoc, List.cons_append, List.append_assoc, List.singleton_append,
    hread rest]
  rfl

theorem unifyLineEnds_cons {c : Char} (hc : c ≠ '\r') (rest : List Char) :
    unifyLineEnds (c :: rest) = c :: unifyLineEnds rest := by
  rw [unifyLineEnds]
  · rintro tail rfl
    exact absurd rfl hc
  · exact hc

theorem unifyLineEnds_return (h : rest.head? ≠ some '\n') :
    unifyLineEnds ('\r' :: rest) = '\n' :: unifyLineEnds rest := by
  rw [unifyLineEnds]
  rintro tail rfl
  exact h rfl

theorem unifyLineEnds_of_not_mem (h : '\r' ∉ cs) (rest : List Char) :
    unifyLineEnds (cs ++ rest) = cs ++ unifyLineEnds rest := by
  induction cs with
  | nil => rfl
  | cons c cs ih =>
    rw [List.mem_cons, not_or] at h
    rw [List.cons_append, unifyLineEnds_cons (Ne.symm h.1), ih h.2, List.cons_append]

/-- Line ends do not reach beyond a character that is no line feed. -/
theorem unifyLineEnds_append {c : Char} (hc : c ≠ '\n') (cs rest : List Char) :
    unifyLineEnds (cs ++ c :: rest) = unifyLineEnds cs ++ unifyLineEnds (c :: rest) := by
  induction cs using unifyLineEnds.induct with
  | case1 cs ih => simp only [List.cons_append, unifyLineEnds, ih]
  | case2 cs hne ih =>
    have hcs : cs.head? ≠ some '\n' := by
      intro hfeed
      obtain ⟨tail, rfl⟩ := List.head?_eq_some_iff.1 hfeed
      exact hne tail rfl
    have happ : (cs ++ c :: rest).head? ≠ some '\n' := by
      cases cs with
      | nil => exact fun hfeed ↦ hc (Option.some.inj hfeed)
      | cons d cs => exact hcs
    rw [List.cons_append, unifyLineEnds_return happ, ih, unifyLineEnds_return hcs,
      List.cons_append]
  | case3 d cs hne hne' ih =>
    rw [List.cons_append, unifyLineEnds_cons hne', ih, unifyLineEnds_cons hne', List.cons_append]
  | case4 => rfl

/-- Texts without references are left as they are. -/
theorem expand_of_not_mem {resolve : String → Option (List Char) → List Char} {n : Nat}
    (h : '$' ∉ cs) : expand resolve n cs = cs := by
  induction n generalizing cs with
  | zero => rfl
  | succ n ih =>
    cases cs with
    | nil => rfl
    | cons c cs =>
      rw [List.mem_cons, not_or] at h
      rw [expand, ih h.2]
      rintro rest rfl
      exact absurd rfl h.1

section Resolve

variable {raw : List (List Char × Option (List Char))} {P : String → Prop}

theorem resolve_from (environment : Table String) {t : Bindings} (hv : '$' ∉ v)
    (honly : ∀ b ∈ raw, P (String.ofList b.1) → b = (name, some v))
    (ht : ∀ e ∈ t, P e.1 → e.2 = some (String.ofList v))
    (hname : String.ofList name ∈ t.keys ∨ (name, some v) ∈ raw) :
    let r := raw.foldl (fun bound b ↦ Table.put (String.ofList b.1) (b.2.map fun cs ↦
      String.ofList (expand (lookUp bound environment) (cs.length + 1) cs)) bound) t
    String.ofList name ∈ r.keys ∧ ∀ e ∈ r, P e.1 → e.2 = some (String.ofList v) := by
  induction raw generalizing t with
  | nil => exact ⟨hname.resolve_right List.not_mem_nil, ht⟩
  | cons b raw ih =>
    refine ih (fun d hd ↦ honly d (List.mem_cons_of_mem b hd)) ?_ ?_
    · intro e he hP
      obtain rfl | he := Table.mem_of_mem_put he
      · rw [honly b List.mem_cons_self hP, Option.map_some, expand_of_not_mem hv]
      · exact ht e he hP
    · obtain hkey | hmem := hname
      · exact .inl (Table.mem_keys_put hkey _)
      · obtain rfl | hmem := List.mem_cons.1 hmem
        · exact .inl (List.mem_map_of_mem (Table.mem_of_get? (Table.get?_put_self ..)))
        · exact .inr hmem

/-- A binding without references that alone has a name of some kind is all there is of this kind. -/
theorem resolve_only (environment : Table String) (hv : '$' ∉ v)
    (honly : ∀ b ∈ raw, P (String.ofList b.1) → b = (name, some v)) (hmem : (name, some v) ∈ raw) :
    String.ofList name ∈ (resolve environment raw).keys ∧
      ∀ e ∈ resolve environment raw, P e.1 → e.2 = some (String.ofList v) :=
  resolve_from environment hv honly (fun _ he ↦ nomatch he) (.inr hmem)

end Resolve

end StatusRelay.EnvFile
