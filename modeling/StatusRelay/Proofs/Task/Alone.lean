import StatusRelay.Proofs.Turn
import StatusRelay.Task.System

namespace StatusRelay

/-- A server, and the time at which it answers. Both may depend on all requests so far, of which the
one that is answered is the last. -/
structure Server where
  clock : List Request → Moment
  reply : List Request → Request → Reply

structure Ending (α : Type) where
  scope : Scope
  result : Except Failure α
  asked : List Request

variable {σ τ α β : Type}

/-- What a turn comes to when the server answers all that is asked. -/
inductive Plays (w : Server) (resume : Moment → σ → Request → Reply → Scope → Turn σ α) :
    List Request → Turn σ α → Ending α → Prop
  | done {asked : List Request} {t : Turn σ α} {r : Except Failure α} (h : t.next = .done r) :
      Plays w resume asked t ⟨t.scope, r, asked⟩
  | send {asked : List Request} {t : Turn σ α} {req : Request} {st : σ} {e : Ending α}
      (h : t.next = .send req st)
      (hp : Plays w resume (asked ++ [req]) (resume (w.clock (asked ++ [req])) st req
        (w.reply (asked ++ [req]) req) t.scope) e) : Plays w resume asked t e

namespace Plays

variable {w : Server} {resume : Moment → σ → Request → Reply → Scope → Turn σ α}
  {resume' : Moment → τ → Request → Reply → Scope → Turn τ β} {asked asked' : List Request}
  {t : Turn σ α} {s s' : Scope} {wrap : σ → τ}

/-- Only the log tells turns apart that go on alike. -/
theorem congr {t t' : Turn σ α} {e : Ending α} (h : Plays w resume asked t e)
    (hs : t'.scope = t.scope) (hn : t'.next = t.next) : Plays w resume asked t' e := by
  cases h with
  | done h =>
    rw [← hs]
    exact .done (hn.trans h)
  | send h hp =>
    rw [← hs] at hp
    exact .send (hn.trans h) hp

theorem finish (r : Except Failure α) : Plays w resume asked (.finish s r) ⟨s, r, asked⟩ :=
  .done rfl

theorem log {n : Notice} {e : Ending α} (h : Plays w resume asked t e) :
    Plays w resume asked (.log s n t) e := h.congr rfl rfl

theorem request {req : Request} {st : σ} {e : Ending α} (h : Plays w resume (asked ++ [req])
      (resume (w.clock (asked ++ [req])) st req (w.reply (asked ++ [req]) req) s) e) :
    Plays w resume asked (.send s (.ok req) st) e := .send rfl h

/-- What follows may depend on the time at which it comes to it. Of the states only those matter
that are come by. -/
theorem followedByOn {P : σ → Prop} (rest : Moment → Scope → Except Failure α → Turn τ β)
    {e : Ending α} {e' : Ending β} (hP : ∀ now st req reply s req' st', P st →
      (resume now st req reply s).next = .send req' st' → P st')
    (hw : ∀ now st req reply s, P st →
      resume' now (wrap st) req reply s = (resume now st req reply s).followedBy wrap (rest now))
    (h : Plays w resume asked t e) (ht : ∀ req st, t.next = .send req st → P st)
    (hr : Plays w resume' e.asked (rest (w.clock e.asked) e.scope e.result) e') :
    Plays w resume' asked (t.followedBy wrap (rest (w.clock asked))) e' := by
  induction h with
  | done h => exact hr.congr (by simp [Turn.followedBy, h]) (by simp [Turn.followedBy, h])
  | @send asked t req st e h hp ih =>
    have hsend : (t.followedBy wrap (rest (w.clock asked))).next = .send req (wrap st) := by
      simp [Turn.followedBy, h]
    have hscope : (t.followedBy wrap (rest (w.clock asked))).scope = t.scope := by
      simp [Turn.followedBy, h]
    have hst : P st := ht req st h
    refine .send hsend ?_
    rw [hw _ _ _ _ _ hst, hscope]
    exact ih (fun req' st' hn ↦ hP _ _ _ _ _ req' st' hst hn) hr

theorem followedByAt (rest : Moment → Scope → Except Failure α → Turn τ β) {e : Ending α}
    {e' : Ending β} (hw : ∀ now st req reply s,
      resume' now (wrap st) req reply s = (resume now st req reply s).followedBy wrap (rest now))
    (h : Plays w resume asked t e)
    (hr : Plays w resume' e.asked (rest (w.clock e.asked) e.scope e.result) e') :
    Plays w resume' asked (t.followedBy wrap (rest (w.clock asked))) e' :=
  followedByOn (P := fun _ ↦ True) rest (fun _ _ _ _ _ _ _ _ _ ↦ trivial)
    (fun now st req reply s _ ↦ hw now st req reply s) h (fun _ _ _ ↦ trivial) hr

theorem followedBy {rest : Scope → Except Failure α → Turn τ β} {e : Ending α} {e' : Ending β}
    (hw : ∀ now st req reply s,
      resume' now (wrap st) req reply s = (resume now st req reply s).followedBy wrap rest)
    (h : Plays w resume asked t e) (hr : Plays w resume' e.asked (rest e.scope e.result) e') :
    Plays w resume' asked (t.followedBy wrap rest) e' :=
  followedByAt (fun _ ↦ rest) hw h hr

theorem andThen {a : α} {rest : Scope → α → Turn τ β} {e : Ending β}
    (hw : ∀ now st req reply s,
      resume' now (wrap st) req reply s = (resume now st req reply s).andThen wrap rest)
    (h : Plays w resume asked t ⟨s, .ok a, asked'⟩) (hr : Plays w resume' asked' (rest s a) e) :
    Plays w resume' asked (t.andThen wrap rest) e := h.followedBy hw hr

theorem andThenOn {P : σ → Prop} {a : α} (rest : Moment → Scope → α → Turn τ β) {e : Ending β}
    (hP : ∀ now st req reply s req' st', P st →
      (resume now st req reply s).next = .send req' st' → P st')
    (hw : ∀ now st req reply s, P st →
      resume' now (wrap st) req reply s = (resume now st req reply s).andThen wrap (rest now))
    (h : Plays w resume asked t ⟨s, .ok a, asked'⟩) (ht : ∀ req st, t.next = .send req st → P st)
    (hr : Plays w resume' asked' (rest (w.clock asked') s a) e) :
    Plays w resume' asked (t.andThen wrap (rest (w.clock asked))) e := by
  have hplays := followedByOn _ hP hw h ht hr
  exact hplays

theorem andThen_of_error {f : Failure} {rest : Scope → α → Turn τ β}
    (hw : ∀ now st req reply s,
      resume' now (wrap st) req reply s = (resume now st req reply s).andThen wrap rest)
    (h : Plays w resume asked t ⟨s, .error f, asked'⟩) :
    Plays w resume' asked (t.andThen wrap rest) ⟨s, .error f, asked'⟩ :=
  h.followedBy hw (.finish _)

theorem map {r : Except Failure α} {f : α → β} (hw : ∀ now st req reply s,
      resume' now (wrap st) req reply s = (resume now st req reply s).map wrap f)
    (h : Plays w resume asked t ⟨s, r, asked'⟩) :
    Plays w resume' asked (t.map wrap f) ⟨s, r.map f, asked'⟩ := by
  cases r with
  | ok a => exact h.andThen hw (.finish _)
  | error f => exact h.andThen_of_error hw

end Plays

theorem Task.phase_of_result? {task : Task} {r : Except Failure Outcome}
    (h : task.result? = some r) : task.phase = .finished r := by
  obtain ⟨op, phase, ctx⟩ := task
  cases phase with
  | finished => exact congrArg Phase.finished (Option.some.inj h)
  | _ => cases h

namespace System

def nextMove (w : Server) (sys : System) : Move :=
  let asked := sys.sent.map (·.2)
  match sys.tasks[0]?.bind Task.pending? with
  | some req => ⟨0, w.clock asked, .reply (w.reply asked req)⟩
  | none => ⟨0, w.clock asked, .start⟩

def play (w : Server) : Nat → System → System
  | 0, sys => sys
  | n + 1, sys =>
    match sys.step (sys.nextMove w) with
    | some sys => play w n sys
    | none => sys

def result? (sys : System) : Option (Except Failure Outcome) := sys.tasks[0]?.bind Task.result?

variable {w : Server} {sys : System} {op : Operation} {t : Turn Running Outcome}
  {e : Ending Outcome} {asked asked' : List Request} {r r' : Except Failure Outcome}

theorem play_of_step_eq_none (h : sys.step (sys.nextMove w) = none) (n : Nat) :
    sys.play w n = sys := by
  cases n with
  | zero => rfl
  | succ n => simp only [play, h]

theorem play_add (w : Server) (m n : Nat) (sys : System) :
    sys.play w (m + n) = (sys.play w m).play w n := by
  induction m generalizing sys with
  | zero => rw [Nat.zero_add, play]
  | succ m ih =>
    cases hs : sys.step (sys.nextMove w) with
    | none => rw [play_of_step_eq_none hs, play_of_step_eq_none hs, play_of_step_eq_none hs]
    | some sys' =>
      rw [Nat.succ_add]
      simp only [play, hs]
      exact ih sys'

theorem play_of_result? (h : sys.result? = some r) (w : Server) (n : Nat) : sys.play w n = sys := by
  apply play_of_step_eq_none
  obtain ⟨task, htask, hr⟩ := Option.bind_eq_some_iff.1 h
  have hphase := Task.phase_of_result? hr
  simp [nextMove, step, htask, Task.pending?, hphase]

theorem play_of_plays (h : Plays w Running.resume asked t e) : ∀ (sys : System) (task : Task),
    sys.tasks = [task] → sys.sent.map (·.2) = asked →
    ∃ n, ((sys.after 0 task t).play w n).result? = some e.result ∧
      ((sys.after 0 task t).play w n).client = e.scope.client ∧
      ((sys.after 0 task t).play w n).sent.map (·.2) = e.asked := by
  induction h with
  | done h =>
    intro sys task ht hs
    refine ⟨0, ?_, rfl, ?_⟩
    · simp [play, result?, after, ht, h, Phase.ofNext, Task.result?]
    · simp [play, after, requests, h, hs]
  | @send asked t req st e h hp ih =>
    intro sys task ht hs
    have hasked : (sys.after 0 task t).sent.map (·.2) = asked ++ [req] := by
      simp [after, requests, h, hs]
    have htasks : (sys.after 0 task t).tasks = [⟨task.op, .sending req st, t.scope.context⟩] := by
      simp [after, ht, h, Phase.ofNext]
    obtain ⟨n, hn⟩ := ih _ _ htasks hasked
    refine ⟨n + 1, ?_⟩
    have hmove : (sys.after 0 task t).nextMove w =
        ⟨0, w.clock (asked ++ [req]), .reply (w.reply (asked ++ [req]) req)⟩ := by
      simp [nextMove, htasks, hasked, Task.pending?]
    have hstep : (sys.after 0 task t).step ((sys.after 0 task t).nextMove w) =
        some ((sys.after 0 task t).after 0 ⟨task.op, .sending req st, t.scope.context⟩
          (st.resume (w.clock (asked ++ [req])) req (w.reply (asked ++ [req]) req) t.scope)) := by
      simp only [step, hmove, htasks, List.getElem?_cons_zero]
      rfl
    simp only [play, hstep]
    exact hn

/-- A task that is alone comes to the end that its first turn leads to. -/
theorem play_initial {client : Client} (h : Plays w Running.resume []
      (op.start ⟨0, w.clock []⟩ ⟨client, RunContext.initial.child⟩) e) :
    ∃ n, ((initial client [op]).play w n).result? = some e.result ∧
      ((initial client [op]).play w n).client = e.scope.client ∧
      ((initial client [op]).play w n).sent.map (·.2) = e.asked := by
  obtain ⟨n, hn⟩ := play_of_plays h (initial client [op]) (.create .initial op) rfl rfl
  refine ⟨n + 1, ?_⟩
  have hstep : (initial client [op]).step ((initial client [op]).nextMove w) =
      some ((initial client [op]).after 0 (.create .initial op)
        (op.start ⟨0, w.clock []⟩ ⟨client, RunContext.initial.child⟩)) := rfl
  simp only [play, hstep]
  exact hn

/-- Whether a task that is alone with a server ends so, after these requests. -/
def EndsAlone (w : Server) (client : Client) (op : Operation) (r : Except Failure Outcome)
    (asked : List Request) : Prop :=
  ∃ n, ((initial client [op]).play w n).result? = some r ∧
    ((initial client [op]).play w n).sent.map (·.2) = asked

/-- A task that is alone comes to one end only. -/
theorem EndsAlone.eq {client : Client} (h : EndsAlone w client op r asked)
    (h' : EndsAlone w client op r' asked') : r = r' ∧ asked = asked' := by
  obtain ⟨n, hr, ha⟩ := h
  obtain ⟨n', hr', ha'⟩ := h'
  have hsame : (initial client [op]).play w n = (initial client [op]).play w n' := by
    obtain hle | hle := Nat.le_total n n'
    · obtain ⟨d, rfl⟩ := Nat.exists_eq_add_of_le hle
      rw [play_add, play_of_result? hr]
    · obtain ⟨d, rfl⟩ := Nat.exists_eq_add_of_le hle
      rw [play_add, play_of_result? hr']
  rw [hsame] at hr ha
  exact ⟨Option.some.inj (hr.symm.trans hr'), ha.symm.trans ha'⟩

theorem endsAlone_of_plays {client : Client} {s : Scope} {r : Except Failure Outcome}
    (h : Plays w Running.resume [] (op.start ⟨0, w.clock []⟩ ⟨client, RunContext.initial.child⟩)
      ⟨s, r, asked⟩) : EndsAlone w client op r asked := by
  obtain ⟨n, hresult, -, hasked⟩ := play_initial h
  exact ⟨n, hresult, hasked⟩

end System
end StatusRelay
