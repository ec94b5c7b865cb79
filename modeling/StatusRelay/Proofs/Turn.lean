import StatusRelay.Task.Turn

namespace StatusRelay

namespace Turn

variable {σ τ α β : Type} (s : Scope) (n : Notice) (wrap : σ → τ)

@[simp] theorem scope_log (t : Turn σ α) : (log s n t).scope = t.scope := rfl

@[simp] theorem next_log (t : Turn σ α) : (log s n t).next = t.next := rfl

@[simp] theorem send_ok (req : Request) (state : σ) :
    (send s (.ok req) state : Turn σ α) = ⟨s, [], .send req state⟩ := rfl

@[simp] theorem send_error (f : Failure) (state : σ) :
    (send s (.error f) state : Turn σ α) = finish s (.error f) := rfl

@[simp] theorem ofExcept_ok (a : α) (rest : α → Turn σ β) :
    ofExcept s (.ok a) rest = rest a := rfl

@[simp] theorem ofExcept_error (f : Failure) (rest : α → Turn σ β) :
    ofExcept s (.error f) rest = finish s (.error f) := rfl

@[simp] theorem done_eq (a : α) : (done s a : Turn σ α) = finish s (.ok a) := rfl

@[simp] theorem fail_eq (f : Failure) : (fail s f : Turn σ α) = finish s (.error f) := rfl

@[simp] theorem followedBy_finish (r : Except Failure α)
    (rest : Scope → Except Failure α → Turn τ β) :
    (finish s r).followedBy wrap rest = rest s r := rfl

@[simp] theorem followedBy_send (rs : List Record) (req : Request) (state : σ)
    (rest : Scope → Except Failure α → Turn τ β) :
    followedBy ⟨s, rs, .send req state⟩ wrap rest = ⟨s, rs, .send req (wrap state)⟩ := rfl

@[simp] theorem followedBy_log (t : Turn σ α) (rest : Scope → Except Failure α → Turn τ β) :
    (log s n t).followedBy wrap rest = log s n (t.followedBy wrap rest) := by
  obtain ⟨s', rs, next⟩ := t
  cases next <;> rfl

@[simp] theorem andThen_ok (a : α) (rest : Scope → α → Turn τ β) :
    (finish s (.ok a)).andThen wrap rest = rest s a := rfl

@[simp] theorem andThen_error (f : Failure) (rest : Scope → α → Turn τ β) :
    (finish s (.error f)).andThen wrap rest = finish s (.error f) := rfl

@[simp] theorem andThen_send (rs : List Record) (req : Request) (state : σ)
    (rest : Scope → α → Turn τ β) :
    andThen ⟨s, rs, .send req state⟩ wrap rest = ⟨s, rs, .send req (wrap state)⟩ := rfl

@[simp] theorem andThen_log (t : Turn σ α) (rest : Scope → α → Turn τ β) :
    (log s n t).andThen wrap rest = log s n (t.andThen wrap rest) :=
  followedBy_log s n wrap t _

variable {wrap}

@[simp] theorem scope_map (t : Turn σ α) (f : α → β) : (t.map wrap f).scope = t.scope := by
  obtain ⟨s, rs, next⟩ := t
  cases next with
  | done r => cases r <;> rfl
  | _ => rfl

theorem map_map {υ γ : Type} (t : Turn σ α) (f : α → β) (wrap' : τ → υ) (g : β → γ) :
    (t.map wrap f).map wrap' g = t.map (wrap' ∘ wrap) (g ∘ f) := by
  obtain ⟨s, rs, next⟩ := t
  cases next with
  | done r => cases r <;> simp [map, andThen, followedBy, finish]
  | _ => rfl

theorem next_map {t : Turn σ α} {f : α → β} {req : Request} {st : τ}
    (h : (t.map wrap f).next = .send req st) :
    ∃ st', st = wrap st' ∧ t.next = .send req st' := by
  obtain ⟨s, rs, next⟩ := t
  cases next with
  | done r => cases r <;> cases h
  | send req' st' =>
    cases h
    exact ⟨st', rfl, rfl⟩
  | wait run => cases h

end Turn

namespace Identity

theorem isAbsolute_slash (path : String) : isAbsolute ("/" ++ path) = false := by
  simp only [isAbsolute, String.toList_append, Bool.or_eq_false_iff]
  exact ⟨rfl, rfl⟩

theorem url_slash (i : Identity) (path : String) :
    i.url ("/" ++ path) = i.apiUrl ++ ("/" ++ path) := by
  simp only [url, isAbsolute_slash, Bool.false_eq_true, if_false]

theorem url_repos (i : Identity) (path : String) :
    i.url ("/repos/" ++ path) = i.apiUrl ++ ("/repos/" ++ path) := by
  have hs : "/repos/" = "/" ++ "repos/" := by decide
  rw [hs, String.append_assoc, url_slash]

end Identity

namespace Client

variable {c : Client} {method path : String} {token : Json.Value} {body : Option Json.Value}
  {params : Option Json.Members} {req : Request}

/-- A request that names no token goes by the client's own. -/
theorem request_of_truthy (h : c.identity.token.truthy = true) :
    c.request method path .null body params =
      .ok ⟨method, c.identity.url path, c.identity.token, body, params⟩ := by
  have hb : c.identity.bearer? .null = some c.identity.token := by
    rw [Identity.bearer?, if_neg (by simp [Json.Value.truthy]), if_pos h]
  simp only [request, hb]

theorem request_of_not_truthy (h : c.identity.token.truthy = false) :
    c.request method path .null body params = .error .noToken := by
  have hb : c.identity.bearer? .null = none := by
    rw [Identity.bearer?, if_neg (by simp [Json.Value.truthy]), if_neg (by simp [h])]
  simp only [request, hb]

theorem request_eq_ok (h : c.request method path token body params = .ok req) :
    ∃ bearer, c.identity.bearer? token = some bearer ∧
      req = ⟨method, c.identity.url path, bearer, body, params⟩ := by
  unfold request at h
  cases hb : c.identity.bearer? token with
  | none => simp [hb] at h
  | some bearer =>
    simp only [hb, Except.ok.injEq] at h
    exact ⟨bearer, rfl, h.symm⟩

end Client
end StatusRelay
