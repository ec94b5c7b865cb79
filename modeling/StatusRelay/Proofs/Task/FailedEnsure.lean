import StatusRelay.Proofs.Task.Ending

namespace StatusRelay

open Json (Value)
open CheckRun (Goal Ensure)

namespace CheckRun.Query

def pageRequest (q : Query) (i : Identity) (n : Nat) : Request :=
  ⟨"GET", i.apiUrl ++ q.path, i.token, none, some (("app_id", .int q.appId) :: Page.params n)⟩

theorem url_path (q : Query) (i : Identity) : i.url q.path = i.apiUrl ++ q.path := by
  simp only [path, String.append_assoc, Identity.url_repos]

theorem request_eq {c : Client} (ht : c.identity.token.truthy = true) (q : Query) (n : Nat) :
    q.request c n = .ok (q.pageRequest c.identity n) := by
  rw [request, Client.get, Client.request_of_truthy ht, url_path, pageRequest]

end CheckRun.Query

namespace CheckRun.Ensure

theorem start_looks {g : Goal} {s : Scope} (hl : s.client.runs.load g.run = none)
    (ho : (s.client.runs.lock g.run).isOpen = true) (ht : s.client.identity.token.truthy = true)
    (caller : Caller) : (start caller g s).next =
      .send (g.query.pageRequest s.client.identity 1) (looking g ⟨g.run, ⟨g.query, 1, []⟩⟩) := by
  have hs : start caller g s =
      inside caller.now g (s.attach.mapLock g.run (·.grant caller.task)) := by
    have hl' : s.attach.client.runs.load g.run = none := hl
    have ho' : (s.attach.client.runs.lock g.run).isOpen = true := ho
    simp only [start, hl', ho', if_true, enter]
  have hn : (s.attach.mapLock g.run (·.grant caller.task)).client.runs.load g.run = none := hl
  have hr := Query.request_eq (c := (s.attach.mapLock g.run (·.grant caller.task)).client) ht
    g.query 1
  simp only [hs, inside, hn, Lookup.start, Scan.start, hr, Turn.send_ok, Turn.andThen_send,
    Turn.followedBy_send]
  rfl

end CheckRun.Ensure

namespace Operation

variable {op : Operation} {g : Goal}

theorem start_looks (hg : op.Wants g) {caller : Caller} {s : Scope}
    (hb : (op.beginning? caller s).isSome = true) (hn : s.client.runs.load g.run = none)
    (ho : (s.client.runs.lock g.run).isOpen = true)
    (ht : s.client.identity.token.truthy = true) :
    (Phase.ofNext (op.start caller s).next).request? =
      some (g.query.pageRequest s.client.identity 1) := by
  obtain ⟨hno, -⟩ | ⟨s', hs, -, -, hnext⟩ := beginning?_cases hg caller s
  · simp [hno] at hb
  · rw [← hs] at hn ho ht ⊢
    obtain ⟨-, hl⟩ := conclude_leads hg caller.now (Ensure.start caller g s')
    rw [CheckRun.Ensure.start_looks hn ho ht] at hl
    rw [hnext]
    generalize Phase.ofNext _ = p at hl ⊢
    cases hl
    rfl

end Operation

namespace System

variable {sys sys' : System} {m : Move} {t : TaskId} {run : String} {moves : List Move}

def endings : System → List Move → List (TaskId × Except Failure Int) :=
  trail fun sys m _ ↦ ((sys.ensured? m).map (m.task, ·)).toList

def writers : System → List Move → List TaskId :=
  trail fun sys m sys' ↦ if sys'.client.runs.ids = sys.client.runs.ids then [] else [m.task]

theorem exists_cut_of_ending {r : Except Failure Int} (hr : sys.run moves = some sys')
    (he : (t, r) ∈ endings sys moves) : ∃ before mid m mid' after,
      moves = before ++ m :: after ∧ Cut sys before mid m mid' after sys' ∧ m.task = t ∧
        mid.ensured? m = some r := by
  obtain ⟨before, mid, m, mid', after, rfl, hcut, hx⟩ := exists_cut_of_mem_trail hr he
  simp only [Option.mem_toList, Option.map_eq_some_iff, Prod.mk.injEq] at hx
  obtain ⟨r, hend, rfl, rfl⟩ := hx
  exact ⟨before, mid, m, mid', after, rfl, hcut, rfl, hend⟩

theorem exists_cut_of_writer (hr : sys.run moves = some sys') (ht : t ∈ writers sys moves) :
    ∃ before mid m mid' after, moves = before ++ m :: after ∧
      Cut sys before mid m mid' after sys' ∧ m.task = t ∧
        mid'.client.runs.ids ≠ mid.client.runs.ids := by
  obtain ⟨before, mid, m, mid', after, rfl, hcut, ht⟩ := exists_cut_of_mem_trail hr ht
  split at ht
  · cases ht
  · rename_i hids
    exact ⟨before, mid, m, mid', after, rfl, hcut, (List.mem_singleton.1 ht).symm, hids⟩

namespace Disciplined

theorem isPast_of_ending (h : sys.Disciplined) {r : Except Failure Int}
    (hr : sys.run moves = some sys') (he : (t, r) ∈ endings sys moves) : sys'.IsPast t := by
  obtain ⟨before, mid, m, mid', after, -, hcut, rfl, hend⟩ := exists_cut_of_ending hr he
  have hmid := h.run hcut.before
  obtain ⟨run, -, -, hpast⟩ := hmid.ensured hcut.step
  exact (hmid.step hcut.step).isPast_run hcut.after (hpast (by simp [hend]))

theorem isPast_of_writer (h : sys.Disciplined) (hr : sys.run moves = some sys')
    (ht : t ∈ writers sys moves) : sys'.IsPast t := by
  obtain ⟨before, mid, m, mid', after, -, hcut, rfl, hids⟩ := exists_cut_of_writer hr ht
  have hmid := h.run hcut.before
  exact (hmid.step hcut.step).isPast_run hcut.after (hmid.isPast_of_ids_ne hcut.step hids)

theorem not_mem_writers (h : sys.Disciplined) (hr : sys.run moves = some sys')
    (ht : sys.IsPast t) : t ∉ writers sys moves := by
  intro hw
  obtain ⟨before, mid, m, mid', after, -, hcut, rfl, hids⟩ := exists_cut_of_writer hr hw
  exact hids ((h.run hcut.before).ids_of_isPast hcut.step (h.isPast_run hcut.before ht))

/-- A task that looks once and gets a failure changes no entry: not before, for then it would be
past the look; not with the end of the look, and never after. -/
theorem not_writer_of_failed (h : sys.Disciplined) {f : Failure}
    (hr : sys.run moves = some sys') (he : (t, .error f) ∈ endings sys moves) :
    t ∉ writers sys moves := by
  obtain ⟨before, mid, m, mid', after, rfl, hcut, rfl, hend⟩ := exists_cut_of_ending hr he
  have hmid := h.run hcut.before
  obtain ⟨run, -, hfiles, hpast⟩ := hmid.ensured hcut.step
  have hsame : mid'.client.runs.ids = mid.client.runs.ids := hfiles.kept (by simp [hend])
  -- The moves before the end of the look, the end itself, and the moves after it.
  rw [writers, trail_append _ hcut.before, trail_cons hcut.step, if_pos hsame, List.nil_append,
    List.mem_append, not_or]
  refine ⟨?_, ?_⟩
  · intro hw
    exact not_isPast_of_ensured hend (h.isPast_of_writer hcut.before hw)
  · exact (hmid.step hcut.step).not_mem_writers hcut.after (hpast (by simp [hend]))

theorem ensured_of_load (h : sys.Disciplined) {id : Int} (hs : sys.step m = some sys')
    (hl : sys'.client.runs.load run = some id) :
    sys.client.runs.load run = some id ∨
      sys.run? m.task = some run ∧ sys.ensured? m = some (.ok id) := by
  obtain ⟨task, g, p, hm⟩ := h.moves hs
  obtain ⟨run', hrun, hfiles, -⟩ := h.ensured hs
  by_cases hids : sys'.client.runs.ids = sys.client.runs.ids
  · rw [RunCache.load, hids] at hl
    exact .inl hl
  · obtain ⟨id', he⟩ : ∃ id', sys.ensured? m = some (.ok id') := by
      by_contra hno
      exact hids (hfiles.kept fun id' he ↦ hno ⟨id', he⟩)
    by_cases ho : run = run'
    · subst ho
      have hl' : sys'.client.runs.load run = some id' := hfiles.filed id' he
      obtain rfl := Option.some.inj (hl.symm.trans hl')
      exact .inr ⟨hrun, he⟩
    · obtain rfl := Option.some.inj (hrun.symm.trans hm.run?_task)
      exact .inl ((hm.passage.elsewhere ho).2 ▸ hl)

/-- Every number in the cache was there before, or a look for its run ended with it. -/
theorem ending_of_load {id : Int} (moves : List Move) : ∀ {sys : System}, sys.Disciplined →
    sys.run moves = some sys' → sys'.client.runs.load run = some id →
    sys.client.runs.load run = some id ∨
      ∃ t, sys.run? t = some run ∧ (t, .ok id) ∈ endings sys moves := by
  induction moves with
  | nil =>
    intro sys h hr hl
    obtain rfl := Option.some.inj hr
    exact .inl hl
  | cons m moves ih =>
    intro sys h hr hl
    obtain ⟨mid, hs, hr⟩ := Option.bind_eq_some_iff.1 hr
    rw [endings, trail_cons hs]
    obtain hl | ⟨t, ht, he⟩ := ih (h.step hs) hr hl
    · obtain hl | ⟨hrun, he⟩ := h.ensured_of_load hs hl
      · exact .inl hl
      · exact .inr ⟨m.task, hrun, List.mem_append_left _ (by simp [he])⟩
    · obtain ⟨task, g, p, hm⟩ := h.moves hs
      rw [hm.run?_eq] at ht
      exact .inr ⟨t, ht, List.mem_append_right _ he⟩

/-- A task that only wants the number ends with it, when it has changed an entry. -/
theorem phase_of_writer (h : sys.Disciplined) {g : Goal} (hr : sys.run moves = some sys')
    (ht : t ∈ writers sys moves)
    (hop : sys.tasks[t]?.map Task.op = some (.ensureCheckRun g)) :
    ∃ id, sys'.tasks[t]?.map Task.phase = some (.finished (.ok (.checkRun id))) := by
  obtain ⟨before, mid, m, mid', after, -, hcut, rfl, hids⟩ := exists_cut_of_writer hr ht
  obtain ⟨task, g', p, hm⟩ := (h.run hcut.before).moves hcut.step
  obtain heq | ⟨-, id, hp⟩ := hm.course.ids_eq_or
  · exact absurd heq hids
  · rw [← op_run hcut.before, hm.found, Option.map_some] at hop
    rw [Option.some.inj hop] at hp
    obtain ⟨ctx, hself⟩ := hm.carries.getElem?_self
    cases hp with
    | answer => exact ⟨id, phase_run_of_finished hcut.after (by rw [hself]; rfl)⟩
    | update hu | fail hu => cases hu

end Disciplined

/-- Nobody is about to get a check run: every task has yet to start, or is past its look. -/
def IsQuiet (sys : System) : Prop :=
  ∀ (t : TaskId) (task : Task), sys.tasks[t]? = some task →
    task.phase = .ready ∨ task.phase.IsPast

/-- Nothing is left of a task: no entry of the cache has changed with its moves, it holds no lock
and waits for none. -/
structure Traceless (start : System) (moves : List Move) (sys : System) (t : TaskId) : Prop where
  entries : t ∉ writers start moves
  locks : ∀ run, (sys.client.runs.lock run).holder ≠ some t ∧
    t ∉ (sys.client.runs.lock run).queue

theorem Disciplined.lock_of_isQuiet (h : sys.Disciplined) (hq : sys.IsQuiet) (run : String) :
    sys.client.runs.lock run = .free := by
  have hout (t : TaskId) : sys.standing t = .outside := by
    cases ht : sys.tasks[t]? with
    | none => simp [System.standing, ht]
    | some task =>
      rw [standing_eq ht]
      obtain hp | hp := hq t task ht
      · rw [hp]
        rfl
      · exact Task.standing_of_isPast hp
  have hholder : (sys.client.runs.lock run).holder = none :=
    Option.eq_none_iff_forall_ne_some.2 fun t ↦ (h.locks.of_outside (hout t) run).1
  have hqueue : (sys.client.runs.lock run).queue = [] :=
    List.eq_nil_iff_forall_not_mem.2 fun t ↦ (h.locks.of_outside (hout t) run).2
  generalize sys.client.runs.lock run = l at hholder hqueue ⊢
  obtain ⟨holder, queue⟩ := l
  subst hholder hqueue
  rfl

/-- With all locks free, a run that the cache has no number for is looked for from the first page
on. -/
theorem step_looks {op : Operation} {g : CheckRun.Goal} {ctx : RunContext} {now : Moment}
    (ht : sys.tasks[t]? = some ⟨op, .ready, ctx⟩) (hg : op.Wants g)
    (hb : (op.beginning? ⟨t, now⟩ ⟨sys.client, ctx⟩).isSome = true)
    (hk : sys.client.identity.token.truthy = true)
    (hn : sys.client.runs.load g.run = none) (hl : sys.client.runs.lock g.run = .free) :
    ∃ sys', sys.step ⟨t, now, .start⟩ = some sys' ∧
      sys'.sent = sys.sent ++ [(t, g.query.pageRequest sys.client.identity 1)] := by
  refine ⟨_, by simp only [System.step, ht]; rfl, ?_⟩
  have hreq := Operation.start_looks (s := ⟨sys.client, ctx⟩) hg hb hn (by simp only [hl]; rfl) hk
  simp only [after, requests_ofNext, hreq]
  rfl

/-- For tasks that want check runs and share one client. A look that ends with a failure, whatever
it is, leaves no trace of its task, be it for the number alone or for a report. When nobody is about
to get a check run, all locks are free, and a task that starts then looks on the server, unless the
cache had the number from the start or a look for the run has ended with one. A task that has sent
its update leaves the number of its check run in the cache, whatever becomes of the update. -/
theorem failed_ensure_traceless {client : Client} {ops : List Operation} (hc : client.IsIdle)
    (ho : ∀ op ∈ ops, ∃ g, op.Wants g) (hr : (initial client ops).run moves = some sys) :
    (∀ t f, (t, .error f) ∈ endings (initial client ops) moves →
      Traceless (initial client ops) moves sys t) ∧
    (∀ (t : TaskId) (g : CheckRun.Goal) (f : Failure) (ctx : RunContext),
      sys.tasks[t]? = some ⟨.ensureCheckRun g, .finished (.error f), ctx⟩ →
      Traceless (initial client ops) moves sys t) ∧
    (sys.IsQuiet → (∀ run, sys.client.runs.lock run = .free) ∧
      ∀ (t : TaskId) (op : Operation) (g : CheckRun.Goal) (ctx : RunContext) (now : Moment),
        sys.tasks[t]? = some ⟨op, .ready, ctx⟩ → op.Wants g →
        (op.beginning? ⟨t, now⟩ ⟨sys.client, ctx⟩).isSome = true →
        client.identity.token.truthy = true → client.runs.load g.run = none →
        (∀ t' id, sys.run? t' = some g.run →
          (t', .ok id) ∉ endings (initial client ops) moves) →
        ∃ sys', sys.step ⟨t, now, .start⟩ = some sys' ∧
          sys'.sent = sys.sent ++ [(t, g.query.pageRequest client.identity 1)]) ∧
    (∀ (t : TaskId) (task : Task) (g : CheckRun.Goal) (req : Request),
      sys.tasks[t]? = some task → task.op.Wants g → (t, req) ∈ sys.sent →
      req.isUpdate = true → ∃ id, sys.client.runs.load g.run = some id ∧
        g.write.Updates client.identity id req ∧ ∀ more sys', sys.run more = some sys' →
          sys'.client.runs.load g.run = some id) := by
  have hi := disciplined_initial hc ho
  have hd := hi.run hr
  have hid : sys.client.identity = client.identity := identity_run hi hr
  refine ⟨?_, ?_, ?_, ?_⟩
  · intro t f he
    exact ⟨hi.not_writer_of_failed hr he, hd.lock_of_isPast (hi.isPast_of_ending hr he)⟩
  · intro t g f ctx ht
    refine ⟨?_, hd.lock_of_isPast ⟨_, ht, trivial⟩⟩
    intro hw
    have hop : (initial client ops).tasks[t]?.map Task.op = some (.ensureCheckRun g) := by
      rw [← op_run hr t, ht]
      rfl
    obtain ⟨id, hp⟩ := hi.phase_of_writer hr hw hop
    simp [ht] at hp
  · intro hq
    refine ⟨hd.lock_of_isQuiet hq, ?_⟩
    intro t op g ctx now ht hg hb hk hn hno
    have hn' : sys.client.runs.load g.run = none := by
      cases hl : sys.client.runs.load g.run with
      | none => rfl
      | some id =>
        obtain hl' | ⟨t', ht', he⟩ := hi.ending_of_load moves hr hl
        · simp [initial, hn] at hl'
        · rw [← run?_congr (op_run hr)] at ht'
          exact absurd he (hno t' id ht')
    rw [← hid] at hk ⊢
    exact step_looks ht hg hb hk hn' (hd.lock_of_isQuiet hq g.run)
  · intro t task g req ht hg hs hu
    have htallied := run_induction Tallied.step (tallied_initial hc ho) hr
    obtain ⟨id, hl, hup⟩ := htallied.of_mem_updates ht hg (mem_updates hs hu)
    rw [← hid]
    exact ⟨id, hl, hup, fun more sys' hm ↦ hd.load_run hm hl⟩

end System

namespace Sample

def refusal : List Move :=
  [⟨0, noon, .start⟩, ⟨0, noon, .reply (.answered ⟨500, .json .null⟩)⟩]

end Sample

namespace System

/-- The second task looks again. -/
theorem failed_ensure_traceless_refusal :
    Sample.client.IsIdle ∧ (∀ op ∈ Sample.ops, ∃ g, op.Wants g) ∧
      ∃ sys f, (initial Sample.client Sample.ops).run Sample.refusal = some sys ∧
        (0, .error f) ∈ endings (initial Sample.client Sample.ops) Sample.refusal ∧
        Traceless (initial Sample.client Sample.ops) Sample.refusal sys 0 ∧
        sys.IsQuiet ∧ (∀ run, sys.client.runs.lock run = .free) ∧
        ∃ sys', sys.step ⟨1, Sample.noon, .start⟩ = some sys' ∧
          sys'.sent = sys.sent ++ [(1, (CheckRun.Query.ofEvent Sample.write.event 7).pageRequest
            Sample.client.identity 1)] := by
  have hc : Sample.client.IsIdle := Client.isIdle_create _ _
  obtain ⟨f, he⟩ : ∃ f, endings (initial Sample.client Sample.ops) Sample.refusal =
      [(0, .error f)] := ⟨_, rfl⟩
  obtain ⟨sys, hr, hb, r, ctx, ctx', ht⟩ : ∃ sys,
      (initial Sample.client Sample.ops).run Sample.refusal = some sys ∧
      sys.client.identity.token.truthy = true ∧ ∃ r ctx ctx', sys.tasks =
        [⟨.ensureCheckRun ⟨Sample.write, 7⟩, .finished r, ctx⟩,
          ⟨.report ⟨true, 7⟩ Sample.write, .ready, ctx'⟩] := ⟨_, rfl, rfl, _, _, _, rfl⟩
  obtain ⟨hfail, -, hquiet, -⟩ := failed_ensure_traceless hc Sample.wants hr
  have hq : sys.IsQuiet := by
    intro t task htask
    have hmem := List.mem_of_getElem? htask
    rw [ht, List.mem_cons, List.mem_singleton] at hmem
    obtain rfl | rfl := hmem
    · exact .inr trivial
    · exact .inl rfl
  obtain ⟨hfree, hlook⟩ := hquiet hq
  refine ⟨hc, Sample.wants, sys, f, hr, by simp [he], hfail 0 f (by simp [he]), hq, hfree, ?_⟩
  have hstart : ((Operation.report ⟨true, 7⟩ Sample.write).beginning? ⟨1, Sample.noon⟩
      ⟨sys.client, ctx'⟩).isSome = true := by
    simp only [Operation.beginning?, Reporter.prepare, hb]
    rfl
  have ht₁ : sys.tasks[1]? = some ⟨.report ⟨true, 7⟩ Sample.write, .ready, ctx'⟩ := by simp [ht]
  have hlooks := hlook 1 _ _ ctx' Sample.noon ht₁ (.report _ _ rfl) hstart rfl rfl (by simp [he])
  exact hlooks

end System
end StatusRelay
