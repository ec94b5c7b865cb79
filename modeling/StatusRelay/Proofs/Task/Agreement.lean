import StatusRelay.Proofs.Task.SingleCreation

namespace StatusRelay

open CheckRun (Goal Ensure)
open CheckRun.Ensure (Asks Answered)

namespace StatusWrite

theorem checkRunPath_eq (w : StatusWrite) (id : Int) :
    w.checkRunPath id = "/repos/" ++ w.event.organization ++ "/" ++ w.event.repository ++
      "/check-runs/" ++ toString id := by
  have hs : "/check-runs" ++ "/" = "/check-runs/" := by decide
  simp only [checkRunPath, CheckRun.Creation.path, String.append_assoc, ← hs]

theorem Updates.url_eq {w : StatusWrite} {i : Identity} {id : Int} {req : Request}
    (h : w.Updates i id req) : req.url = i.apiUrl ++ "/repos/" ++ w.event.organization ++ "/" ++
      w.event.repository ++ "/check-runs/" ++ toString id := by
  obtain ⟨now, body, bearer, -, rfl⟩ := h
  simp only [checkRunPath_eq, String.append_assoc, Identity.url_repos]

def Shows (w : StatusWrite) (body : Json.Value) : Prop :=
  body.get? "status" = some (.str w.status.stage) ∧ body.get? "output" = some w.output

theorem shows_of_updatePayload? {w : StatusWrite} {now : Moment} {body : Json.Value}
    (h : w.updatePayload? now = some body) : w.Shows body := by
  simp only [updatePayload?, Option.map_eq_some_iff] at h
  obtain ⟨completion, -, rfl⟩ := h
  constructor <;> simp [Json.Value.get?, Table.get?_cons]

end StatusWrite

namespace Task

inductive Tally (i : Identity) (c : RunCache) (op : Operation) (g : Goal) :
    Phase → List Request → Prop
  | ready : Tally i c op g .ready []
  | waiting {run : String} : Tally i c op g (.waiting run) []
  | inside {req : Request} {st : Running} (h : st.ensure?.isSome = true) :
      Tally i c op g (.sending req st) []
  | answered {id : Int} (hop : op.updating? = none) (hl : c.load g.run = some id) :
      Tally i c op g (.finished (.ok (.checkRun id))) []
  | failed {f : Failure} : Tally i c op g (.finished (.error f)) []
  | updating {st : Running} {id : Int} {req : Request} (hop : op.updating? = some st)
      (hl : c.load g.run = some id) (hr : g.write.Updates i id req) :
      Tally i c op g (.sending req st) [req]
  | settled {st : Running} {id : Int} {req : Request} {r : Except Failure Outcome}
      (hop : op.updating? = some st) (hl : c.load g.run = some id)
      (hr : g.write.Updates i id req) : Tally i c op g (.finished r) [req]

variable {t : TaskId} {op : Operation} {g : Goal} {c c' : Client} {p p' : Phase} {h : Happening}
  {i : Identity} {l : List Request}

theorem ensure?_of_updating? {st : Running} (hop : op.updating? = some st) :
    st.ensure? = none := by
  cases op <;> simp only [Operation.updating?, reduceCtorEq, Option.some.injEq] at hop
  all_goals subst hop; rfl

theorem Tally.mono {r r' : RunCache} (ht : Tally i r op g p l)
    (hm : ∀ id, r.load g.run = some id → r'.load g.run = some id) : Tally i r' op g p l := by
  cases ht with
  | ready => exact .ready
  | waiting => exact .waiting
  | inside h => exact .inside h
  | answered hop hl => exact .answered hop (hm _ hl)
  | failed => exact .failed
  | updating hop hl hr => exact .updating hop (hm _ hl) hr
  | settled hop hl hr => exact .settled hop (hm _ hl) hr

def update? (p : Phase) : Option Request := p.request?.filter Request.isUpdate

theorem update?_of_asks {e : Ensure} {req : Request} (ha : Asks i g e req) (st : Running) :
    update? (.sending req st) = none := by
  cases ha <;> rfl

theorem update?_of_updates {id : Int} {req : Request} (hr : g.write.Updates i id req)
    (st : Running) : update? (.sending req st) = some req :=
  Option.filter_eq_some_iff.2 ⟨rfl, isUpdate_of_updates hr⟩

theorem Settled.tally {r : RunCache} {id : Int} (hs : Settled i op g id p)
    (hl : r.load g.run = some id) : Tally i r op g p (update? p).toList := by
  cases hs with
  | answer hop => exact .answered hop hl
  | update hop hr =>
    rw [update?_of_updates hr]
    exact .updating hop hl hr
  | fail => exact .failed

theorem Tally.eq_nil {r : RunCache} {e : Ensure} {req : Request}
    (ht : Tally i r op g (.sending req (op.holding e)) l) : l = [] := by
  cases ht with
  | inside => rfl
  | updating hop =>
    have hn := ensure?_of_updating? hop
    simp at hn

theorem Course.tally (hc : Course t op g c p h c' p') (ht : Tally c.identity c.runs op g p l) :
    Tally c.identity c'.runs op g p' (l ++ (update? p').toList) := by
  cases hc with
  | refuse =>
    cases ht
    exact .failed
  | known hn hp | knownLate hn ho hp =>
    cases ht
    exact hp.tally hn
  | queue =>
    cases ht
    exact .waiting
  | take hn ho he hp =>
    obtain rfl : l = [] := by cases ho <;> cases ht <;> rfl
    cases he with
    | look ha =>
      cases hp
      rw [update?_of_asks ha]
      exact .inside (by simp)
    | fail =>
      cases hp
      exact .failed
  | withdraw =>
    cases ht
    exact .failed
  | answer ha hr hp =>
    obtain rfl := ht.eq_nil
    cases hr with
    | more _ _ ha' | create _ _ _ ha' =>
      cases hp
      rw [update?_of_asks ha']
      exact .inside (by simp)
    | reuse | confirm =>
      cases hp with
      | settle hs => exact hs.tally (RunCache.load_store_self _ _ _)
    | giveUp | fail =>
      cases hp
      exact .failed
  | abandon =>
    obtain rfl := ht.eq_nil
    exact .failed
  | close hs | drop hs =>
    cases ht with
    | inside h => simp [ensure?_of_updating? hs] at h
    | updating hop hl hr => exact .settled hop hl hr

end Task

namespace System

open StatusRelay.Task (Tally)

variable {sys sys' : System} {m : Move} {task : Task} {g : Goal} {p : Phase} {t : TaskId}

def updates (sys : System) (t : TaskId) : List Request :=
  (sys.sent.filter fun x ↦ x.1 == t && x.2.isUpdate).map (·.2)

structure Tallied (sys : System) : Prop where
  disciplined : sys.Disciplined
  tally : ∀ (t : TaskId) (task : Task) (g : Goal), sys.tasks[t]? = some task → task.op.Wants g →
    Tally sys.client.identity sys.client.runs task.op g task.phase (sys.updates t)

theorem Moves.updates_self (h : Moves sys m task g p sys') :
    sys'.updates m.task = sys.updates m.task ++ (Task.update? p).toList := by
  simp only [updates, h.sent, List.filter_append, List.map_append, List.append_cancel_left_eq]
  cases hr : p.request? with
  | none => simp [Task.update?, hr]
  | some req => cases hu : req.isUpdate <;> simp [Task.update?, Option.filter, hr, hu]

theorem Moves.updates_of_ne (h : Moves sys m task g p sys') (hne : t ≠ m.task) :
    sys'.updates t = sys.updates t := by
  simp only [updates, h.sent, List.filter_append, List.map_append, List.append_right_eq_self]
  cases p.request? with
  | none => rfl
  | some req => simp [Ne.symm hne]

theorem Tallied.step (h : sys.Tallied) (hs : sys.step m = some sys') : sys'.Tallied where
  disciplined := h.disciplined.step hs
  tally t task g ht hg := by
    obtain ⟨task', g', p, hm⟩ := h.disciplined.moves hs
    by_cases hne : t = m.task
    · subst hne
      obtain ⟨ctx, hself⟩ := hm.carries.getElem?_self
      obtain rfl := Option.some.inj (hself.symm.trans ht)
      obtain rfl : g' = g := Option.some.inj (hm.wants.goal?_eq.symm.trans hg.goal?_eq)
      rw [hm.course.identity_eq, hm.updates_self]
      exact hm.course.tally (h.tally m.task task' g' hm.found hm.wants)
    · rw [hm.carries.getElem?_of_ne hne] at ht
      rw [hm.course.identity_eq, hm.updates_of_ne hne]
      exact (h.tally t task g ht hg).mono fun id ↦ h.disciplined.load_step hs

theorem tallied_initial {client : Client} {ops : List Operation} (hc : client.IsIdle)
    (ho : ∀ op ∈ ops, ∃ g, op.Wants g) : (initial client ops).Tallied where
  disciplined := disciplined_initial hc ho
  tally t task g ht hg := by
    simp only [initial, List.getElem?_map, Option.map_eq_some_iff] at ht
    obtain ⟨op, hop, rfl⟩ := ht
    exact .ready

theorem identity_run {moves : List Move} (h : sys.Disciplined) (hr : sys.run moves = some sys') :
    sys'.client.identity = sys.client.identity := by
  have hi := run_induction (P := fun s ↦ s.Disciplined ∧ s.client.identity = sys.client.identity)
    (fun hp hs ↦ by
      obtain ⟨task, g, p, hm⟩ := hp.1.moves hs
      exact ⟨hp.1.step hs, hm.course.identity_eq.trans hp.2⟩) ⟨h, rfl⟩ hr
  exact hi.2

theorem Tallied.of_mem_updates (h : sys.Tallied) (ht : sys.tasks[t]? = some task)
    (hg : task.op.Wants g) {req : Request} (hreq : req ∈ sys.updates t) :
    ∃ id, sys.client.runs.load g.run = some id ∧ g.write.Updates sys.client.identity id req := by
  obtain ⟨op, phase, ctx⟩ := task
  have htally := h.tally t _ g ht hg
  generalize sys.updates t = l at htally hreq
  cases htally with
  | updating hop hl hr | settled hop hl hr =>
    obtain rfl := List.mem_singleton.1 hreq
    exact ⟨_, hl, hr⟩
  | _ => cases hreq

theorem mem_updates {req : Request} (hs : (t, req) ∈ sys.sent) (hu : req.isUpdate = true) :
    req ∈ sys.updates t :=
  List.mem_map.2 ⟨(t, req), List.mem_filter.2 ⟨hs, by simp [hu]⟩, rfl⟩

/-- For tasks that all want check runs and share one client: a number in the cache stays there;
whoever asked for the number and got one got that of the cache; every update of a report goes to
that number in the report's own repository; and every report that returned has sent just one
update, which shows its own status as it is worded. -/
theorem updates_agree {client : Client} {ops : List Operation} (hc : client.IsIdle)
    (ho : ∀ op ∈ ops, ∃ g, op.Wants g) {moves : List Move}
    (hr : (initial client ops).run moves = some sys) :
    (∀ run id, sys.client.runs.load run = some id → ∀ more sys', sys.run more = some sys' →
      sys'.client.runs.load run = some id) ∧
    (∀ (t : TaskId) (g : Goal) (ctx : RunContext) (o : Outcome),
      sys.tasks[t]? = some ⟨.ensureCheckRun g, .finished (.ok o), ctx⟩ →
      ∃ id, o = .checkRun id ∧ sys.client.runs.load g.run = some id) ∧
    (∀ (t : TaskId) (r : Reporter) (w : StatusWrite) (phase : Phase) (ctx : RunContext)
      (req : Request), sys.tasks[t]? = some ⟨.report r w, phase, ctx⟩ →
      (t, req) ∈ sys.sent → req.isUpdate = true →
      ∃ id, sys.client.runs.load w.status.run = some id ∧
        req.url = client.identity.apiUrl ++ "/repos/" ++ w.event.organization ++ "/" ++
          w.event.repository ++ "/check-runs/" ++ toString id) ∧
    (∀ (t : TaskId) (r : Reporter) (w : StatusWrite) (ctx : RunContext) (o : Outcome),
      sys.tasks[t]? = some ⟨.report r w, .finished (.ok o), ctx⟩ →
      ∃ req now body, sys.updates t = [req] ∧ req.body = some body ∧
        w.worded.updatePayload? now = some body ∧ w.worded.Shows body) := by
  have hi := tallied_initial hc ho
  have hd := run_induction Tallied.step hi hr
  have hid : sys.client.identity = client.identity := identity_run hi.disciplined hr
  have hwants {t : TaskId} {r : Reporter} {w : StatusWrite} {phase : Phase} {ctx : RunContext}
      (ht : sys.tasks[t]? = some ⟨.report r w, phase, ctx⟩) :
      (Operation.report r w).Wants ⟨w.worded, r.appId⟩ := by
    obtain ⟨g, hg, -⟩ := hd.disciplined.placed t _ ht
    cases hg with
    | report _ _ hc => exact .report r w hc
  refine ⟨?_, ?_, ?_, ?_⟩
  · intro run id hl more sys' hm
    exact hd.disciplined.load_run hm hl
  · intro t g ctx o ht
    have htally := hd.tally t _ g ht (.ensure g)
    generalize sys.updates t = l at htally
    cases htally with
    | answered hop hl => exact ⟨_, rfl, hl⟩
    | settled hop => cases hop
  · intro t r w phase ctx req ht hs hu
    obtain ⟨id, hl, hup⟩ := hd.of_mem_updates ht (hwants ht) (mem_updates hs hu)
    refine ⟨id, hl, ?_⟩
    rw [← hid]
    exact hup.url_eq
  · intro t r w ctx o ht
    have htally := hd.tally t _ _ ht (hwants ht)
    generalize sys.updates t = l at htally ⊢
    cases htally with
    | answered hop => cases hop
    | settled hop hl hup =>
      obtain ⟨now, body, bearer, hbody, rfl⟩ := hup
      exact ⟨_, now, body, rfl, rfl, hbody, StatusWrite.shows_of_updatePayload? hbody⟩

theorem updates_agree_two_tasks :
    Sample.client.IsIdle ∧ (∀ op ∈ Sample.ops, ∃ g, op.Wants g) ∧
      ∃ sys, (initial Sample.client Sample.ops).run Sample.moves = some sys ∧
        (∀ run id, sys.client.runs.load run = some id → ∀ more sys', sys.run more = some sys' →
          sys'.client.runs.load run = some id) ∧
        (∀ (t : TaskId) (g : Goal) (ctx : RunContext) (o : Outcome),
          sys.tasks[t]? = some ⟨.ensureCheckRun g, .finished (.ok o), ctx⟩ →
          ∃ id, o = .checkRun id ∧ sys.client.runs.load g.run = some id) ∧
        (∀ (t : TaskId) (r : Reporter) (w : StatusWrite) (phase : Phase) (ctx : RunContext)
          (req : Request), sys.tasks[t]? = some ⟨.report r w, phase, ctx⟩ →
          (t, req) ∈ sys.sent → req.isUpdate = true →
          ∃ id, sys.client.runs.load w.status.run = some id ∧
            req.url = Sample.client.identity.apiUrl ++ "/repos/" ++ w.event.organization ++ "/" ++
              w.event.repository ++ "/check-runs/" ++ toString id) ∧
        (∀ (t : TaskId) (r : Reporter) (w : StatusWrite) (ctx : RunContext) (o : Outcome),
          sys.tasks[t]? = some ⟨.report r w, .finished (.ok o), ctx⟩ →
          ∃ req now body, sys.updates t = [req] ∧ req.body = some body ∧
            w.worded.updatePayload? now = some body ∧ w.worded.Shows body) := by
  have hr : ((initial Sample.client Sample.ops).run Sample.moves).isSome = true := by decide
  obtain ⟨sys, hr⟩ := Option.isSome_iff_exists.1 hr
  have hc : Sample.client.IsIdle := Client.isIdle_create _ _
  exact ⟨hc, Sample.wants, sys, hr, updates_agree hc Sample.wants hr⟩

end System
end StatusRelay
