import Mathlib.Data.List.Infix
import StatusRelay.Settings.Basic

namespace StatusRelay.Settings

def mark : List Char := ['\\', 'n']

def flattenChar (c : Char) : List Char := if c = '\n' then mark else [c]

def flatten (cs : List Char) : List Char := cs.flatMap flattenChar

def flattenKey (s : String) : String := String.ofList (flatten s.toList)

variable {c : Char} {cs rest : List Char}

theorem flattenChar_of_ne (h : c ≠ '\n') : flattenChar c = [c] := if_neg h

theorem flatten_cons_of_ne (h : c ≠ '\n') (cs : List Char) : flatten (c :: cs) = c :: flatten cs := by
  rw [flatten, List.flatMap_cons, flattenChar_of_ne h]
  rfl

theorem mem_flatten (h : c ∈ flatten cs) : c = '\\' ∨ c = 'n' ∨ c ∈ cs ∧ c ≠ '\n' := by
  obtain ⟨d, hd, hc⟩ := List.mem_flatMap.1 h
  by_cases hfeed : d = '\n'
  · rw [flattenChar, if_pos hfeed, mark, List.mem_pair] at hc
    obtain rfl | rfl := hc
    · exact .inl rfl
    · exact .inr (.inl rfl)
  · rw [flattenChar_of_ne hfeed, List.mem_singleton] at hc
    exact .inr (.inr (hc ▸ ⟨hd, hfeed⟩))

theorem head?_flatten (h : (flatten cs).head? = some 'n') : cs.head? = some 'n' := by
  cases cs with
  | nil => cases h
  | cons c cs =>
    by_cases hfeed : c = '\n'
    · subst hfeed
      cases h
    · rwa [flatten_cons_of_ne hfeed] at h

/-- A character that begins no mark stays as it is. -/
theorem unflatten_cons (h : c = '\\' → rest.head? ≠ some 'n') :
    unflatten (c :: rest) = c :: unflatten rest := by
  rw [unflatten]
  rintro tail hc rfl
  exact h hc rfl

theorem head?_unflatten (h : (unflatten cs).head? = some 'n') : cs.head? = some 'n' := by
  unfold unflatten at h
  split at h
  · cases h
  · exact h
  · exact h

theorem mark_prefix_cons_iff : mark <+: c :: rest ↔ c = '\\' ∧ rest.head? = some 'n' := by
  rw [mark, List.cons_prefix_cons]
  cases rest with
  | nil => simp
  | cons d rest => simp [List.cons_prefix_cons, eq_comm]

theorem unflatten_of_not_mark (h : ¬ mark <:+: cs) : unflatten cs = cs := by
  induction cs with
  | nil => rfl
  | cons c cs ih =>
    rw [List.infix_cons_iff, not_or, mark_prefix_cons_iff] at h
    rw [unflatten_cons fun hc hn ↦ h.1 ⟨hc, hn⟩, ih h.2]

theorem not_mark_unflatten (cs : List Char) : ¬ mark <:+: unflatten cs := by
  induction cs using unflatten.induct with
  | case1 rest ih =>
    rw [unflatten, List.infix_cons_iff, mark_prefix_cons_iff]
    rintro (⟨hc, -⟩ | hin)
    · cases hc
    · exact ih hin
  | case2 c rest hne ih =>
    rw [unflatten_cons, List.infix_cons_iff, mark_prefix_cons_iff]
    · rintro (⟨rfl, hn⟩ | hin)
      · obtain ⟨tail, rfl⟩ := List.head?_eq_some_iff.1 (head?_unflatten hn)
        exact hne tail rfl rfl
      · exact ih hin
    · rintro rfl hn
      obtain ⟨tail, rfl⟩ := List.head?_eq_some_iff.1 hn
      exact hne tail rfl rfl
  | case3 => simp [unflatten, mark]

theorem unflatten_unflatten (cs : List Char) : unflatten (unflatten cs) = unflatten cs :=
  unflatten_of_not_mark (not_mark_unflatten cs)

/-- A backslash right before a line feed is no obstacle: it is not followed by `n` when flattened. -/
theorem unflatten_flatten (h : ¬ mark <:+: cs) : unflatten (flatten cs) = cs := by
  induction cs with
  | nil => rfl
  | cons c cs ih =>
    rw [List.infix_cons_iff, not_or, mark_prefix_cons_iff] at h
    by_cases hfeed : c = '\n'
    · subst hfeed
      exact congrArg ('\n' :: ·) (ih h.2)
    · rw [flatten_cons_of_ne hfeed, unflatten_cons, ih h.2]
      exact fun hc hn ↦ h.1 ⟨hc, head?_flatten hn⟩

theorem unflattenKey_unflattenKey (s : String) :
    unflattenKey (unflattenKey s) = unflattenKey s := by
  rw [unflattenKey, unflattenKey, String.toList_ofList, unflatten_unflatten]

theorem unflattenKey_flattenKey {s : String} (h : ¬ mark <:+: s.toList) :
    unflattenKey (flattenKey s) = s := by
  rw [unflattenKey, flattenKey, String.toList_ofList, unflatten_flatten h, String.ofList_toList]

end StatusRelay.Settings
