import StatusRelay.Log.RunProgram

namespace StatusRelay.RunTasks

inductive Act where
  | read
  | inject (entry : Json.Members)
  /-- A block that binds a name. -/
  | bind (name : String) (body : List Act)
  | fail
  /-- A part whose failure is caught, and its cancellation as well if told so. -/
  | guard (cancellation : Bool) (body : List Act)
  /-- Starts a task with a copy of the context. -/
  | start (body : List Act)

inductive Cause where
  | failure
  | cancellation
deriving DecidableEq, Repr

inductive Frame where
  | act (a : Act)
  /-- The end of an open block. -/
  | close (name : String)
  /-- The end of a guarded part. -/
  | rescue (cancellation : Bool)

namespace Frame

def name? : Frame → Option String
  | close name => some name
  | _ => none

def names (frames : List Frame) : List String := frames.filterMap name?

@[simp]
theorem names_act (a : Act) (frames : List Frame) : names (act a :: frames) = names frames := rfl

@[simp]
theorem names_close (name : String) (frames : List Frame) :
    names (close name :: frames) = name :: names frames := rfl

@[simp]
theorem names_acts_append (acts : List Act) (frames : List Frame) :
    names (acts.map act ++ frames) = names frames := by
  induction acts with
  | nil => rfl
  | cons a acts ih => exact ih

end Frame

open RunTasks.Frame (names)

structure Thread where
  context : RunContext
  frames : List Frame
  cause : Option Cause
  /-- The name that was current where the task was started. -/
  outer : String

structure Advance where
  thread : Thread
  seen : List RunSight
  started : List Thread

inductive Happening where
  | advance
  | cancel
deriving DecidableEq, Repr

/-- Whether a part that is guarded catches what a task fails with. -/
def Cause.passes (cancellation : Bool) : Cause → Bool
  | failure => false
  | Cause.cancellation => !cancellation

namespace Thread

def create (c : RunContext) (acts : List Act) : Thread := ⟨c.child, acts.map .act, none, c.current⟩

def skipTo (t : Thread) (frames : List Frame) : Advance := ⟨{ t with frames := frames }, [], []⟩

def perform (t : Thread) (op : RunOp) (frames : List Frame) : Advance :=
  ⟨{ t with context := (op.run t.context).2, frames := frames }, [(op.run t.context).1], []⟩

def carryOut (t : Thread) (rest : List Frame) : Act → Advance
  | .read => t.perform .read rest
  | .inject entry => t.perform (.inject entry) rest
  | .bind name body => t.perform (.enter name) (body.map .act ++ .close name :: rest)
  | .fail => skipTo { t with cause := some .failure } rest
  | .guard c body => t.skipTo (body.map .act ++ .rescue c :: rest)
  | .start body => { t.skipTo rest with started := [create t.context body] }

def advance? (t : Thread) : Option Advance :=
  match t.frames with
  | [] => none
  | .act a :: rest => some (if t.cause.isNone then t.carryOut rest a else t.skipTo rest)
  | .close _ :: rest => some (t.perform .leave rest)
  | .rescue c :: rest => some (skipTo { t with cause := t.cause.filter (·.passes c) } rest)

def take? (t : Thread) : Happening → Option Advance
  | .advance => t.advance?
  | .cancel => t.advance?.map fun _ ↦ skipTo { t with cause := some .cancellation } t.frames

def follow (t : Thread) : List Happening → Option (Thread × List RunSight)
  | [] => some (t, [])
  | h :: hs =>
    (t.take? h).bind fun a ↦ (a.thread.follow hs).map fun p ↦ (p.1, a.seen ++ p.2)

def name (t : Thread) : String := (names t.frames).headD t.outer

def entryWith (name : String) (entry : Json.Members) : Json.Members :=
  if name = "" then entry else Table.put runKey (.str name) entry

def view (t : Thread) : List RunSight :=
  match t.frames, t.cause with
  | .act .read :: _, none => [.current t.name]
  | .act (.inject entry) :: _, none => [.injected (entryWith t.name entry)]
  | .act (.bind name _) :: _, none => [.current name]
  | .close _ :: rest, _ => [.current ((names rest).headD t.outer)]
  | _, _ => []

/-- A task that is cancelled sees nothing of it at once. -/
def viewOn (t : Thread) : Happening → List RunSight
  | .advance => t.view
  | .cancel => []

end Thread

structure World where
  threads : List Thread
  /-- All that was seen, each with the task that saw it. -/
  seen : List (Nat × RunSight)

namespace World

def boot (acts : List Act) : World := ⟨[.create .initial acts], []⟩

def step (w : World) (m : Nat × Happening) : Option World :=
  w.threads[m.1]?.bind fun t ↦ (t.take? m.2).map fun a ↦
    ⟨w.threads.set m.1 a.thread ++ a.started, w.seen ++ a.seen.map (m.1, ·)⟩

def run (w : World) (moves : List (Nat × Happening)) : Option World := moves.foldlM step w

def own (i : Nat) (moves : List (Nat × Happening)) : List Happening :=
  (moves.filter (·.1 = i)).map (·.2)

def seenBy (w : World) (i : Nat) : List RunSight := (w.seen.filter (·.1 = i)).map (·.2)

end World

def contextOf (outer : String) : List String → RunContext
  | [] => ⟨outer, []⟩
  | name :: names => (contextOf outer names).enter name

@[simp]
theorem current_contextOf (outer : String) (names : List String) :
    (contextOf outer names).current = names.headD outer := by cases names <;> rfl

namespace Thread

variable {t : Thread} {a : Advance}

/-- The context has the name of every open block, and under it what leaving the block brings back. -/
def Bound (t : Thread) : Prop := t.context = contextOf t.outer (names t.frames)

theorem Bound.current_eq (h : t.Bound) : t.context.current = t.name := by
  rw [h, current_contextOf, name]

theorem bound_create (c : RunContext) (acts : List Act) : (create c acts).Bound := by
  have hnone : names (acts.map .act) = [] := by
    have happ := Frame.names_acts_append acts []
    rwa [List.append_nil] at happ
  rw [Bound, create, hnone]
  rfl

theorem bound_carryOut {act : Act} {rest : List Frame}
    (h : t.context = contextOf t.outer (names rest)) : (t.carryOut rest act).thread.Bound := by
  cases act with
  | bind name body =>
    have hnames : names (body.map .act ++ .close name :: rest) = name :: names rest :=
      Frame.names_acts_append _ _
    simp only [Bound, carryOut, perform, hnames, contextOf, ← h]
    rfl
  | guard c body =>
    have hnames : names (body.map .act ++ .rescue c :: rest) = names rest :=
      Frame.names_acts_append _ _
    simpa only [Bound, carryOut, skipTo, hnames] using h
  | read | inject | fail | start => exact h

inductive Takes (t : Thread) : Happening → Advance → Prop
  | act {a : Act} {rest : List Frame} (hf : t.frames = .act a :: rest) (hc : t.cause = none) :
      Takes t .advance (t.carryOut rest a)
  | skip {a : Act} {rest : List Frame} {cause : Cause} (hf : t.frames = .act a :: rest)
      (hc : t.cause = some cause) : Takes t .advance (t.skipTo rest)
  | close {name : String} {rest : List Frame} (hf : t.frames = .close name :: rest) :
      Takes t .advance (t.perform .leave rest)
  | rescue {c : Bool} {rest : List Frame} (hf : t.frames = .rescue c :: rest) :
      Takes t .advance (skipTo { t with cause := t.cause.filter (·.passes c) } rest)
  | cancel : Takes t .cancel (skipTo { t with cause := some .cancellation } t.frames)

theorem takes_of_take? {h : Happening} (ha : t.take? h = some a) : t.Takes h a := by
  cases h with
  | cancel =>
    obtain ⟨-, -, rfl⟩ := Option.map_eq_some_iff.1 ha
    exact .cancel
  | advance =>
    simp only [take?, advance?] at ha
    cases hf : t.frames with
    | nil => simp only [hf, reduceCtorEq] at ha
    | cons frame rest =>
      simp only [hf] at ha
      cases frame with
      | act act =>
        obtain rfl := Option.some.inj ha
        cases hc : t.cause with
        | none => exact .act hf hc
        | some cause => exact .skip hf hc
      | close name =>
        obtain rfl := Option.some.inj ha
        exact .close hf
      | rescue c =>
        obtain rfl := Option.some.inj ha
        exact .rescue hf

variable {h : Happening}

/-- Every step keeps the context in line with the open blocks. -/
theorem Takes.bound (ha : t.Takes h a) (hb : t.Bound) : a.thread.Bound := by
  cases ha with
  | act hf =>
    rw [Bound, hf, Frame.names_act] at hb
    exact bound_carryOut hb
  | skip hf | rescue hf =>
    rw [Bound, hf] at hb
    exact hb
  | close hf =>
    rw [Bound, hf] at hb
    exact congrArg RunContext.leave hb
  | cancel => exact hb

theorem Takes.outer_eq (ha : t.Takes h a) : a.thread.outer = t.outer := by
  cases ha with
  | @act act => cases act <;> rfl
  | _ => rfl

theorem outer_of_follow {t' : Thread} {hs : List Happening} {seen : List RunSight}
    (h : t.follow hs = some (t', seen)) : t'.outer = t.outer := by
  induction hs generalizing t seen with
  | nil =>
    obtain ⟨rfl, -⟩ := Prod.mk.inj (Option.some.inj h)
    rfl
  | cons h' hs ih =>
    obtain ⟨a, ha, h⟩ := Option.bind_eq_some_iff.1 h
    obtain ⟨p, hp, h⟩ := Option.map_eq_some_iff.1 h
    obtain ⟨rfl, -⟩ := Prod.mk.inj h
    exact (ih hp).trans (takes_of_take? ha).outer_eq

theorem Takes.exists_create (ha : t.Takes h a) {u : Thread} (hu : u ∈ a.started) :
    ∃ acts, u = create t.context acts := by
  cases ha with
  | @act act =>
    cases act with
    | start body => exact ⟨body, List.mem_singleton.1 hu⟩
    | _ => cases hu
  | _ => cases hu

theorem seen_carryOut (hb : t.Bound) {act : Act} {rest : List Frame}
    (hf : t.frames = .act act :: rest) (hc : t.cause = none) :
    (t.carryOut rest act).seen = t.view := by
  have hname := hb.current_eq
  cases act with
  | read => simp only [view, hf, hc, ← hname, carryOut, perform, RunOp.run]
  | inject entry =>
    simp only [view, hf, hc, ← hname, carryOut, perform, RunOp.run, RunContext.inject, entryWith,
      beq_iff_eq]
  | bind name body =>
    simp only [view, hf, hc, carryOut, perform, RunOp.run, RunContext.current_enter]
  | fail | guard | start => simp only [view, hf, hc, carryOut, skipTo]

/-- All that a step lets its task see is what the open blocks say. -/
theorem Takes.seen_eq (ha : t.Takes h a) (hb : t.Bound) : a.seen = t.viewOn h := by
  cases ha with
  | act hf hc => exact seen_carryOut hb hf hc
  | @skip act _ _ hf hc => cases act <;> simp only [viewOn, view, hf, hc] <;> rfl
  | close hf =>
    simp only [Bound, hf, Frame.names_close, contextOf] at hb
    simp only [viewOn, view, hf, perform, RunOp.run, hb, RunContext.leave_enter,
      current_contextOf]
  | rescue hf => simp only [viewOn, view, hf, skipTo]
  | cancel => rfl

end Thread

namespace World

variable {w w' : World} {m : Nat × Happening} {moves : List (Nat × Happening)}

theorem step_eq_some (h : w.step m = some w') : ∃ t a, w.threads[m.1]? = some t ∧
    t.take? m.2 = some a ∧
      w' = ⟨w.threads.set m.1 a.thread ++ a.started, w.seen ++ a.seen.map (m.1, ·)⟩ := by
  obtain ⟨t, ht, h⟩ := Option.bind_eq_some_iff.1 h
  obtain ⟨a, ha, rfl⟩ := Option.map_eq_some_iff.1 h
  exact ⟨t, a, ht, ha, rfl⟩

def Bound (w : World) : Prop := ∀ t ∈ w.threads, t.Bound

theorem bound_boot (acts : List Act) : (boot acts).Bound := by
  intro t ht
  obtain rfl := List.mem_singleton.1 ht
  exact Thread.bound_create _ _

theorem Bound.step (hw : w.Bound) (h : w.step m = some w') : w'.Bound := by
  obtain ⟨t, a, ht, ha, rfl⟩ := step_eq_some h
  intro u hu
  obtain hu | hu := List.mem_append.1 hu
  · obtain hu | rfl := List.mem_or_eq_of_mem_set hu
    · exact hw u hu
    · exact (Thread.takes_of_take? ha).bound (hw t (List.mem_of_getElem? ht))
  · obtain ⟨acts, rfl⟩ := (Thread.takes_of_take? ha).exists_create hu
    exact Thread.bound_create _ _

theorem Bound.run (hw : w.Bound) (h : w.run moves = some w') : w'.Bound := by
  induction moves generalizing w with
  | nil =>
    obtain rfl := Option.some.inj h
    exact hw
  | cons m moves ih =>
    obtain ⟨mid, hs, h⟩ := Option.bind_eq_some_iff.1 h
    exact ih (hw.step hs) h

theorem mem_of_step_self {t : Thread} (h : w.step m = some w') (ht : w.threads[m.1]? = some t) :
    ∃ a, t.take? m.2 = some a ∧ w'.threads[m.1]? = some a.thread ∧
      w'.seenBy m.1 = w.seenBy m.1 ++ a.seen := by
  obtain ⟨t', a, ht', ha, rfl⟩ := step_eq_some h
  obtain rfl : t = t' := Option.some.inj (ht.symm.trans ht')
  obtain ⟨hlt, -⟩ := List.getElem?_eq_some_iff.1 ht
  refine ⟨a, ha, ?_, ?_⟩
  · rw [List.getElem?_append_left (by rwa [List.length_set]), List.getElem?_set_self hlt]
  · simp [seenBy, List.filter_map, Function.comp_def]

theorem mem_of_step_of_ne {i : Nat} {t : Thread} (h : w.step m = some w') (hi : m.1 ≠ i)
    (ht : w.threads[i]? = some t) : w'.threads[i]? = some t ∧ w'.seenBy i = w.seenBy i := by
  obtain ⟨t', a, -, -, rfl⟩ := step_eq_some h
  obtain ⟨hlt, -⟩ := List.getElem?_eq_some_iff.1 ht
  refine ⟨?_, ?_⟩
  · rw [List.getElem?_append_left (by rwa [List.length_set]), List.getElem?_set_ne hi, ht]
  · simp [seenBy, List.filter_map, Function.comp_def, hi]

/-- Where a task gets, and what it sees, is its own doing, whatever the others do meanwhile. -/
theorem follow_of_run {i : Nat} {t : Thread} (h : w.run moves = some w')
    (ht : w.threads[i]? = some t) : ∃ t' seen, t.follow (own i moves) = some (t', seen) ∧
      w'.threads[i]? = some t' ∧ w'.seenBy i = w.seenBy i ++ seen := by
  induction moves generalizing w t with
  | nil =>
    obtain rfl := Option.some.inj h
    exact ⟨t, [], rfl, ht, (List.append_nil _).symm⟩
  | cons m moves ih =>
    obtain ⟨mid, hs, h⟩ := Option.bind_eq_some_iff.1 h
    by_cases hi : m.1 = i
    · subst hi
      obtain ⟨a, ha, ht, hseen⟩ := mem_of_step_self hs ht
      obtain ⟨t', seen, hf, ht', hseen'⟩ := ih h ht
      have hown : own m.1 (m :: moves) = m.2 :: own m.1 moves := by simp [own]
      refine ⟨t', a.seen ++ seen, ?_, ht', ?_⟩
      · rw [hown, Thread.follow, ha, Option.bind_some, hf, Option.map_some]
      · rw [hseen', hseen, List.append_assoc]
    · obtain ⟨ht, hseen⟩ := mem_of_step_of_ne hs hi ht
      obtain ⟨t', seen, hf, ht', hseen'⟩ := ih h ht
      have hown : own i (m :: moves) = own i moves := by simp [own, hi]
      exact ⟨t', seen, hown ▸ hf, ht', hseen' ▸ hseen ▸ rfl⟩

/-- How names are bound by the tasks of a world, and by all that they can still do. -/
structure Scoped (w : World) : Prop where
  /-- The innermost block that is open has bound the name, or else it is the one at the start. -/
  current : ∀ (i : Nat) (t : Thread), w.threads[i]? = some t → t.context.current = t.name
  /-- A move shows nothing else, and a task that it starts begins with that name. -/
  seen : ∀ (m : Nat × Happening) (w' : World), w.step m = some w' →
    ∃ t, w.threads[m.1]? = some t ∧ w'.seen = w.seen ++ (t.viewOn m.2).map (m.1, ·) ∧
      ∀ u ∈ w'.threads.drop w.threads.length, u.outer = t.name
  /-- Whatever the others do, a task gets where it gets by itself, and sees what it sees then. -/
  alone : ∀ (moves : List (Nat × Happening)) (w' : World) (i : Nat) (t : Thread),
    w.run moves = some w' → w.threads[i]? = some t →
      ∃ t' seen, t.follow (own i moves) = some (t', seen) ∧ w'.threads[i]? = some t' ∧
        w'.seenBy i = w.seenBy i ++ seen ∧ t'.outer = t.outer
  /-- Behind a block, however it was left, everything is as it was before the block. -/
  restored : ∀ (moves : List (Nat × Happening)) (w' : World) (i : Nat) (t t' : Thread),
    w.run moves = some w' → w.threads[i]? = some t → w'.threads[i]? = some t' →
      ∀ name body rest, t.frames = .act (.bind name body) :: rest → t'.frames = rest →
        t'.context = t.context

theorem Bound.scoped (hw : w.Bound) : w.Scoped where
  current i t ht := (hw t (List.mem_of_getElem? ht)).current_eq
  seen m w' h := by
    obtain ⟨t, a, ht, ha, rfl⟩ := step_eq_some h
    have htakes := Thread.takes_of_take? ha
    have hb := hw t (List.mem_of_getElem? ht)
    refine ⟨t, ht, ?_, ?_⟩
    · rw [htakes.seen_eq hb]
    · intro u hu
      rw [List.drop_left' (List.length_set ..)] at hu
      obtain ⟨acts, rfl⟩ := htakes.exists_create hu
      exact hb.current_eq
  alone moves w' i t h ht := by
    obtain ⟨t', seen, hf, ht', hseen⟩ := follow_of_run h ht
    exact ⟨t', seen, hf, ht', hseen, Thread.outer_of_follow hf⟩
  restored moves w' i t t' h ht ht' name body rest hf hf' := by
    obtain ⟨t₁, seen, hfollow, ht₁, -⟩ := follow_of_run h ht
    obtain rfl : t₁ = t' := Option.some.inj (ht₁.symm.trans ht')
    have houter : t₁.outer = t.outer := Thread.outer_of_follow hfollow
    have hb : t.context = contextOf t.outer (names t.frames) := hw t (List.mem_of_getElem? ht)
    have hb' : t₁.context = contextOf t₁.outer (names t₁.frames) :=
      hw.run h t₁ (List.mem_of_getElem? ht')
    rw [hb, hb', houter, hf, hf', Frame.names_act]

end World
end StatusRelay.RunTasks
