
namespace StatusRelay

abbrev Table (α : Type) := List (String × α)

namespace Table

variable {α : Type}

def get? (t : Table α) (key : String) : Option α := t.lookup key

def has (t : Table α) (key : String) : Bool := t.any (·.1 == key)

/-- A present key keeps its place and takes the new value, a new key goes to the end. -/
def put (key : String) (v : α) : Table α → Table α
  | [] => [(key, v)]
  | e :: t => if e.1 == key then (key, v) :: t else e :: put key v t

/-- Of two entries with one key the place is that of the first, the value that of the last. -/
def ofPairs (pairs : List (String × α)) : Table α := pairs.foldl (fun t e ↦ put e.1 e.2 t) []

def keys (t : Table α) : List String := t.map (·.1)

@[simp] theorem get?_nil (key : String) : get? ([] : Table α) key = none := rfl

theorem get?_cons (e : String × α) (t : Table α) (key : String) :
    get? (e :: t) key = if key = e.1 then some e.2 else get? t key := by
  obtain ⟨k, v⟩ := e
  by_cases h : key = k
  · subst h; simp [get?]
  · simp [get?, List.lookup_cons, h, beq_eq_false_iff_ne.2 h]

@[simp] theorem get?_put_self (t : Table α) (key : String) (v : α) :
    (put key v t).get? key = some v := by
  induction t with
  | nil => simp [put, get?_cons]
  | cons e t ih =>
    by_cases h : e.1 = key
    · simp [put, h, get?_cons]
    · simp [put, h, get?_cons, ih, Ne.symm h]

theorem get?_put_of_ne {key other : String} (h : other ≠ key) (t : Table α) (v : α) :
    (put key v t).get? other = t.get? other := by
  induction t with
  | nil => simp [put, get?_cons, h]
  | cons e t ih =>
    by_cases he : e.1 = key
    · simp [put, he, get?_cons, h]
    · simp [put, he, get?_cons, ih]

theorem put_of_get? {t : Table α} {key : String} {v : α} (h : t.get? key = some v) :
    put key v t = t := by
  induction t with
  | nil => cases h
  | cons e t ih =>
    obtain ⟨k, w⟩ := e
    by_cases hk : k = key
    · rw [get?_cons, if_pos hk.symm] at h
      obtain rfl := Option.some.inj h
      simp [put, hk]
    · rw [get?_cons, if_neg (Ne.symm hk)] at h
      simp [put, hk, ih h]

theorem put_put (t : Table α) (key : String) (v v' : α) :
    put key v' (put key v t) = put key v' t := by
  induction t with
  | nil => simp [put]
  | cons e t ih =>
    by_cases h : e.1 = key
    · simp [put, h]
    · simp [put, h, ih]

/-- New values come to two keys in either order, if one of the keys has its place already. -/
theorem put_comm {key other : String} (h : other ≠ key) (v w : α) {t : Table α} {u : α}
    (hu : t.get? other = some u) :
    put key v (put other w t) = put other w (put key v t) := by
  induction t with
  | nil => cases hu
  | cons e t ih =>
    by_cases hk : e.1 = key
    · simp [put, hk, h.symm]
    · by_cases ho : e.1 = other
      · simp [put, ho, h]
      · have hrest : get? t other = some u := by
          rwa [get?_cons, if_neg (Ne.symm ho)] at hu
        simp [put, hk, ho, ih hrest]

theorem put_of_not_mem {t : Table α} {key : String} (h : key ∉ t.keys) (v : α) :
    put key v t = t ++ [(key, v)] := by
  induction t with
  | nil => rfl
  | cons e t ih =>
    obtain ⟨he, ht⟩ := not_or.1 (mt List.mem_cons.2 h)
    rw [put, if_neg (by simpa using Ne.symm he), ih ht]
    rfl

theorem foldl_put_of_nodup {t pairs : Table α} (h : (t ++ pairs).keys.Nodup) :
    pairs.foldl (fun t e ↦ put e.1 e.2 t) t = t ++ pairs := by
  induction pairs generalizing t with
  | nil => exact (List.append_nil t).symm
  | cons e pairs ih =>
    have hkey : e.1 ∉ t.keys := by
      rw [keys, List.map_append, List.nodup_append] at h
      exact fun hmem ↦ h.2.2 _ hmem _ List.mem_cons_self rfl
    have happend : t ++ e :: pairs = t ++ [e] ++ pairs := by simp
    rw [List.foldl_cons, put_of_not_mem hkey, ih (happend ▸ h), happend]

/-- Pairs are a table if no key comes twice. -/
theorem ofPairs_of_nodup {pairs : Table α} (h : pairs.keys.Nodup) : ofPairs pairs = pairs :=
  foldl_put_of_nodup h

section Entries

variable {t t' : Table α} {key : String} {v : α}

theorem mem_of_get? (h : t.get? key = some v) : (key, v) ∈ t := by
  induction t with
  | nil => cases h
  | cons e t ih =>
    rw [get?_cons] at h
    split at h
    · rename_i hkey
      obtain rfl := Option.some.inj h
      exact hkey ▸ List.mem_cons_self
    · exact List.mem_cons_of_mem _ (ih h)

theorem get?_of_mem (hn : t.keys.Nodup) (h : (key, v) ∈ t) : t.get? key = some v := by
  induction t with
  | nil => cases h
  | cons e t ih =>
    obtain ⟨he, ht⟩ := List.nodup_cons.1 hn
    rw [get?_cons]
    rcases List.mem_cons.1 h with rfl | h
    · exact if_pos rfl
    · have hne : key ≠ e.1 := by
        rintro rfl
        exact he (List.mem_map.2 ⟨(e.1, v), h, rfl⟩)
      rw [if_neg hne, ih ht h]

theorem get?_of_not_mem (h : key ∉ t.keys) : t.get? key = none := by
  cases hv : t.get? key with
  | none => rfl
  | some v => exact absurd (List.mem_map_of_mem (mem_of_get? hv)) h

theorem get?_append (t t' : Table α) (key : String) :
    get? (t ++ t') key = (t.get? key).or (t'.get? key) := List.lookup_append

theorem keys_put (h : t.get? key = some v) (w : α) : keys (put key w t) = keys t := by
  induction t with
  | nil => cases h
  | cons e t ih =>
    rw [get?_cons] at h
    by_cases hkey : e.1 = key
    · simp [put, keys, hkey]
    · rw [if_neg (Ne.symm hkey)] at h
      have hrest := ih h
      simp only [keys] at hrest
      simp [put, keys, hkey, hrest]

theorem mem_of_mem_put {e : String × α} (h : e ∈ put key v t) : e = (key, v) ∨ e ∈ t := by
  induction t with
  | nil => exact .inl (List.mem_singleton.1 h)
  | cons d t ih =>
    rw [put] at h
    split at h
    · exact (List.mem_cons.1 h).imp_right (List.mem_cons_of_mem d)
    · obtain rfl | h := List.mem_cons.1 h
      · exact .inr List.mem_cons_self
      · exact (ih h).imp_right (List.mem_cons_of_mem d)

theorem forall_mem_put {P : α → Prop} (h : ∀ e ∈ t, P e.2) (hv : P v) :
    ∀ e ∈ put key v t, P e.2 := by
  intro e he
  obtain rfl | he := mem_of_mem_put he
  · exact hv
  · exact h e he

theorem nodup_keys_put (h : t.keys.Nodup) (key : String) (v : α) :
    (keys (put key v t)).Nodup := by
  induction t with
  | nil => simp [put, keys]
  | cons d t ih =>
    obtain ⟨hd, ht⟩ := List.nodup_cons.1 h
    rw [put]
    split
    · rename_i hkey
      exact beq_iff_eq.1 hkey ▸ h
    · rename_i hkey
      refine List.nodup_cons.2 ⟨fun hmem ↦ ?_, ih ht⟩
      obtain ⟨e, he, hed⟩ := List.mem_map.1 hmem
      obtain rfl | he := mem_of_mem_put he
      · exact hkey (beq_iff_eq.2 hed.symm)
      · exact hd (hed ▸ List.mem_map_of_mem he)

theorem mem_keys_put {key other : String} (h : other ∈ t.keys) (v : α) :
    other ∈ keys (put key v t) := by
  induction t with
  | nil => cases h
  | cons d t ih =>
    rw [put]
    split
    · rename_i hd
      rw [keys, List.map_cons, beq_iff_eq.1 hd] at h
      exact h
    · obtain rfl | h := List.mem_cons.1 h
      · exact List.mem_cons_self
      · exact List.mem_cons_of_mem _ (ih h)

theorem get?_foldl_put {pairs : Table α} (hall : ∀ e ∈ pairs, e.1 = key → e.2 = v)
    (h : t.get? key = some v ∨ key ∈ pairs.keys) :
    (pairs.foldl (fun t e ↦ put e.1 e.2 t) t).get? key = some v := by
  induction pairs generalizing t with
  | nil => exact h.resolve_right List.not_mem_nil
  | cons e pairs ih =>
    refine ih (fun d hd ↦ hall d (List.mem_cons_of_mem e hd)) ?_
    by_cases hkey : e.1 = key
    · rw [← hall e List.mem_cons_self hkey, ← hkey]
      exact .inl (get?_put_self ..)
    · rw [get?_put_of_ne (Ne.symm hkey)]
      exact h.imp_right fun hmem ↦ (List.mem_cons.1 hmem).resolve_left (Ne.symm hkey)

theorem get?_ofPairs_of_not_mem {pairs : Table α} (h : key ∉ pairs.keys) :
    (ofPairs pairs).get? key = none := by
  have hfold : ∀ t : Table α,
      (pairs.foldl (fun t e ↦ put e.1 e.2 t) t).get? key = t.get? key := by
    induction pairs with
    | nil => exact fun _ ↦ rfl
    | cons e pairs ih =>
      obtain ⟨he, hpairs⟩ := not_or.1 (mt List.mem_cons.2 h)
      exact fun t ↦ (ih hpairs _).trans (get?_put_of_ne he ..)
  exact hfold []

/-- A key that all its pairs agree on. -/
theorem get?_ofPairs {pairs : Table α} (hkey : key ∈ pairs.keys)
    (hall : ∀ e ∈ pairs, e.1 = key → e.2 = v) : (ofPairs pairs).get? key = some v :=
  get?_foldl_put hall (.inr hkey)

/-- Tables with the same keys, none of them twice, are the same if each key has the same value. -/
theorem ext_of_nodup (hkeys : keys t' = keys t) (hnodup : t.keys.Nodup)
    (h : ∀ key, get? t' key = get? t key) : t' = t := by
  induction t generalizing t' with
  | nil => exact List.map_eq_nil_iff.1 hkeys
  | cons e t ih =>
    obtain ⟨k, v⟩ := e
    obtain _ | ⟨⟨k', v'⟩, t'⟩ := t'
    · cases hkeys
    simp only [keys, List.map_cons, List.cons.injEq] at hkeys hnodup
    obtain ⟨rfl, hkeys⟩ := hkeys
    obtain ⟨hk, hnodup⟩ := List.nodup_cons.1 hnodup
    have hv : v' = v := by
      have hhead := h k'
      rwa [get?_cons, get?_cons, if_pos rfl, if_pos rfl, Option.some.injEq] at hhead
    have hrest : ∀ key, get? t' key = get? t key := by
      intro key
      by_cases hkey : key = k'
      · have hk' : k' ∉ List.map (·.1) t' := hkeys ▸ hk
        rw [hkey, get?_of_not_mem hk, get?_of_not_mem hk']
      · have hsame := h key
        rwa [get?_cons, get?_cons, if_neg hkey, if_neg hkey] at hsame
    rw [hv, ih hkeys hnodup hrest]

end Entries

end Table
end StatusRelay
