import StatusRelay.Proofs.Settings.EnvLine
import StatusRelay.Proofs.Settings.Flatten

namespace StatusRelay.Settings

open EnvFile (Quotes LineOver Bare)

def isKeyChar (c : Char) : Bool := c.isAlphanum || " +/=-:,\n".toList.contains c

/-- A text as key files have it: it starts with a hyphen, and ends with one or with a line feed
behind one. -/
structure IsKeyText (k : List Char) : Prop where
  chars : ∀ c ∈ k, isKeyChar c = true
  begins : k.head? = some '-'
  ends : ∃ body, k = body ++ ['-'] ∨ k = body ++ ['-', '\n']

/-- Characters with a meaning of their own in settings files, none of which is in a key. -/
theorem not_special {c : Char} (h : isKeyChar c = true) :
    c ∉ ['\\', '#', '$', '\'', '"', '\r'] := by
  intro hmem
  simp only [List.mem_cons, List.not_mem_nil, or_false] at hmem
  obtain rfl | rfl | rfl | rfl | rfl | rfl := hmem <;> exact absurd h (by decide)

namespace IsKeyText

variable {k : List Char} (h : IsKeyText k)
include h

theorem not_mem {c : Char} (hc : c ∈ ['\\', '#', '$', '\'', '"', '\r']) : c ∉ k :=
  fun hmem ↦ not_special (h.chars c hmem) hc

theorem not_mark : ¬ mark <:+: k :=
  fun hmark ↦ h.not_mem (by decide) (hmark.subset List.mem_cons_self)

theorem not_mem_flatten {c : Char} (hc : c ∈ ['#', '$', '\'', '"', '\r']) : c ∉ flatten k := by
  intro hmem
  obtain rfl | rfl | ⟨hmem, -⟩ := mem_flatten hmem
  · exact absurd hc (by decide)
  · exact absurd hc (by decide)
  · exact h.not_mem (List.mem_cons_of_mem _ hc) hmem

theorem unflatten_eq : unflatten k = k := unflatten_of_not_mark h.not_mark

theorem exists_flatten : ∃ cs, flatten k = '-' :: cs := by
  obtain ⟨cs, rfl⟩ := List.head?_eq_some_iff.1 h.begins
  exact ⟨flatten cs, rfl⟩

theorem bare_flatten : Bare (flatten k) where
  begins := by
    obtain ⟨cs, hcs⟩ := h.exists_flatten
    rw [hcs]
    rintro c ⟨⟩
    decide
  ends := by
    obtain ⟨body, rfl | rfl⟩ := h.ends
    · have hflat : flatten (body ++ ['-']) = flatten body ++ ['-'] := List.flatMap_append ..
      rw [hflat, List.getLast?_concat]
      rintro c ⟨⟩
      decide
    · have hflat : flatten (body ++ ['-', '\n']) = (flatten body ++ ['-', '\\']) ++ ['n'] := by
        rw [flatten, List.flatMap_append, List.append_assoc]
        rfl
      rw [hflat, List.getLast?_concat]
      rintro c ⟨⟩
      decide
  noComment := h.not_mem_flatten (by decide)
  oneLine c hc := by
    obtain rfl | rfl | ⟨hmem, hfeed⟩ := mem_flatten hc
    · rfl
    · rfl
    · have hreturn : c ≠ '\r' := fun heq ↦ h.not_mem (by decide) (heq ▸ hmem)
      simp [EnvFile.isLineEnd, hfeed, hreturn]

end IsKeyText

section Quoted

variable {k : List Char}

/-- A flattened text ends at its closing quote, since its backslashes stand before `n` only. -/
theorem quotedText?_flatten {quote : Char} (hne : quote ≠ '\\') (hb : '\\' ∉ k) (hq : quote ∉ k)
    (acc after : List Char) :
    EnvFile.quotedText? quote acc (flatten k ++ quote :: after) =
      some (acc.reverse ++ flatten k, after) := by
  induction k generalizing acc with
  | nil =>
    rw [flatten, List.flatMap_nil, List.nil_append, List.append_nil, EnvFile.quotedText?]
    · rw [beq_self_eq_true, if_pos rfl]
    · rintro c tail rfl
      exact absurd rfl hne
  | cons c k ih =>
    rw [List.mem_cons, not_or] at hb hq
    by_cases hfeed : c = '\n'
    · subst hfeed
      have hread := ih hb.2 hq.2 ('n' :: '\\' :: acc)
      rw [List.reverse_cons, List.reverse_cons, List.append_assoc, List.append_assoc] at hread
      exact hread
    · have hread := ih hb.2 hq.2 (c :: acc)
      rw [List.reverse_cons, List.append_assoc, List.singleton_append] at hread
      rw [flatten_cons_of_ne hfeed, List.cons_append, EnvFile.quotedText?,
        if_neg (by simpa using Ne.symm hq.1), hread]
      rintro d tail rfl
      exact absurd rfl hb.1

theorem unescape_cons {known : Char → Option Char} {c : Char} (hc : c ≠ '\\')
    (cs : List Char) : EnvFile.unescape known (c :: cs) = c :: EnvFile.unescape known cs := by
  rw [EnvFile.unescape]
  rintro d tail rfl
  exact absurd rfl hc

/-- Single quotes leave the mark as it is. -/
theorem unescape_single_flatten (hb : '\\' ∉ k) :
    EnvFile.unescape EnvFile.escapeInSingle? (flatten k) = flatten k := by
  induction k with
  | nil => rfl
  | cons c k ih =>
    rw [List.mem_cons, not_or] at hb
    by_cases hfeed : c = '\n'
    · subst hfeed
      have hn : EnvFile.unescape EnvFile.escapeInSingle? ('n' :: flatten k) = 'n' :: flatten k := by
        rw [unescape_cons (by decide), ih hb.2]
      exact congrArg ('\\' :: ·) hn
    · rw [flatten_cons_of_ne hfeed, unescape_cons (Ne.symm hb.1), ih hb.2]

/-- Double quotes read the mark as a line feed. -/
theorem unescape_double_flatten (hb : '\\' ∉ k) :
    EnvFile.unescape EnvFile.escapeInDouble? (flatten k) = k := by
  induction k with
  | nil => rfl
  | cons c k ih =>
    rw [List.mem_cons, not_or] at hb
    by_cases hfeed : c = '\n'
    · subst hfeed
      exact congrArg ('\n' :: ·) (ih hb.2)
    · rw [flatten_cons_of_ne hfeed, unescape_cons (Ne.symm hb.1), ih hb.2]

end Quoted

def readQuoted (k : List Char) : Quotes → List Char
  | .none => flatten k
  | .single => flatten k
  | .double => k

theorem IsKeyText.value_around {k after : List Char} (h : IsKeyText k) (quotes : Quotes)
    (ha : LineOver after) :
    EnvFile.value (quotes.around (flatten k) ++ after) = .ok (readQuoted k quotes, after) := by
  have hb : '\\' ∉ k := h.not_mem (by decide)
  have hskip {c : Char} (hc : EnvFile.isInlineBlank c = false) :
      EnvFile.skipInline (c :: (flatten k ++ c :: after)) = c :: (flatten k ++ c :: after) :=
    EnvFile.skipInline_of_not_blank hc _
  cases quotes with
  | none =>
    obtain ⟨cs, hcs⟩ := h.exists_flatten
    exact EnvFile.value_bare h.bare_flatten (hcs ▸ List.cons_ne_nil _ _) ha
  | single =>
    have hq : '\'' ∉ k := h.not_mem (by decide)
    simp only [Quotes.around, List.cons_append, List.append_assoc,
      EnvFile.value, hskip (by decide : EnvFile.isInlineBlank '\'' = false),
      quotedText?_flatten (by decide : '\'' ≠ '\\') hb hq, List.reverse_nil, List.nil_append,
      unescape_single_flatten hb, readQuoted]
  | double =>
    have hq : '"' ∉ k := h.not_mem (by decide)
    simp only [Quotes.around, List.cons_append, List.append_assoc,
      EnvFile.value, hskip (by decide : EnvFile.isInlineBlank '"' = false),
      quotedText?_flatten (by decide : '"' ≠ '\\') hb hq, List.reverse_nil, List.nil_append,
      unescape_double_flatten hb, readQuoted]

end StatusRelay.Settings
