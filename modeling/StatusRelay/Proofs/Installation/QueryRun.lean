import StatusRelay.Proofs.Installation.QueryCourse
import StatusRelay.Proofs.Task.Traffic

namespace StatusRelay

open Json (Value)

namespace Resolve

def phase : Next Resolve Resolution → Phase
  | .done r => .finished (r.map .resolution)
  | .send req st => .sending req (.resolving st)
  | .wait run => .waiting run

theorem ofNext_map (t : Turn Resolve Resolution) :
    Phase.ofNext (t.map .resolving .resolution).next = phase t.next := by
  obtain ⟨s, rs, next⟩ := t
  cases next with
  | done r => cases r <;> rfl
  | _ => rfl

def listingRequest (q : ResolveQuery) (c : Client) : Request :=
  .bare "GET" (Installation.listingUrl c q.host) (.str q.appToken)

inductive Placed (q : ResolveQuery) : Phase → Prop
  | ready : Placed q .ready
  | asking {c : Client} {st : Resolve} {req : Request} (h : Asks q c st req) :
      Placed q (.sending req (.resolving st))
  | finished {r : Except Failure Outcome} : Placed q (.finished r)

inductive Moves (q : ResolveQuery) (t : TaskId) (c : Client) :
    Phase → List Packet → Client → Phase → Prop
  | start : Moves q t c .ready [] c (.sending (listingRequest q c)
      (.resolving (.listing q ⟨Installation.listingUrl c q.host⟩)))
  | answer {st : Resolve} {req : Request} {reply : Reply} {c' : Client}
      {next : Next Resolve Resolution} (h : Course q c req reply st c' next) :
      Moves q t c (.sending req (.resolving st)) [.back t req reply] c' (phase next)
  | cancel {p : Phase} {c' : Client} (hi : c'.identity = c.identity) :
      Moves q t c p [] c' (.finished (.error .cancelled))

variable {q : ResolveQuery} {t : TaskId} {c c' : Client} {p p' : Phase} {back : List Packet}

theorem Moves.placed (h : Moves q t c p back c' p') : Placed q p' := by
  cases h with
  | start => exact .asking (c := c) .listing
  | @answer st req reply _ next h =>
    cases next with
    | done r => exact .finished
    | send req' st' => exact .asking (h.asks rfl)
    | wait run => exact absurd rfl (h.ne_wait run)
  | cancel => exact .finished

end Resolve

open Resolve (Placed)

namespace System

variable {sys : System} {m : Move} {task : Task} {q : ResolveQuery} {back : List Packet}
  {client c : Client} {p : Phase} {moves : List Move}

theorem Deals.query (h : Deals sys m task back c p) (ho : task.op = .resolve q)
    (hp : Placed q task.phase) : Resolve.Moves q m.task sys.client task.phase back c p := by
  cases h with
  | start hready ht =>
    subst ht
    rw [hready, ho]
    exact .start
  | @resume req st reply t hsending ht =>
    subst ht
    rw [hsending] at hp ⊢
    cases hp with
    | @asking c st _ ha =>
      have hc := Resolve.resume_course ha reply ⟨sys.client, task.context⟩
      simp only [Running.resume, Turn.scope_map, Resolve.ofNext_map]
      exact .answer hc
  | enter hwaiting ht =>
    rw [hwaiting] at hp
    cases hp
  | cancel hi => exact .cancel hi

/-- What every move of a query keeps holds of a whole run of one that is alone. -/
theorem query_induction {P : List Packet → Client → List Request → Phase → Prop}
    (h₀ : P [] client [] .ready)
    (hstep : ∀ {past c sent p back c' p'}, P past c sent p → Resolve.Moves q 0 c p back c' p' →
      P (past ++ (back ++ (p'.request?.map (.out 0)).toList)) c' (sent ++ p'.request?.toList) p')
    (hr : (initial client [.resolve q]).run moves = some sys) :
    ∃ p ctx, sys.tasks = [⟨.resolve q, p, ctx⟩] ∧
      P ((initial client [.resolve q]).traffic moves) sys.client (sys.sent.map (·.2)) p := by
  have hrun := traffic_induction (P := fun past mid ↦ ∃ p ctx, mid.tasks = [⟨.resolve q, p, ctx⟩] ∧
    Placed q p ∧ P past mid.client (mid.sent.map (·.2)) p) ⟨.ready, _, rfl, .ready, h₀⟩ ?_ hr
  · obtain ⟨p, ctx, htasks, -, hp⟩ := hrun
    exact ⟨p, ctx, htasks, hp⟩
  · rintro past mid m mid' ⟨p, ctx, htasks, hplaced, hp⟩ hs
    obtain ⟨task, p', hc, hd⟩ := step_cases hs
    have hfound := hc.found
    simp only [htasks, List.getElem?_singleton, Option.ite_none_right_eq_some,
      Option.some.injEq] at hfound
    obtain ⟨hzero, rfl⟩ := hfound
    have hm := hd.query rfl hplaced
    rw [hzero] at hm
    obtain ⟨ctx', hset⟩ := hc.tasks
    refine ⟨p', ctx', ?_, hm.placed, ?_⟩
    · rw [hset, htasks, hzero]
      rfl
    · have hsent : mid'.sent.map (·.2) = mid.sent.map (·.2) ++ p'.request?.toList := by
        rw [hc.sent, List.map_append]
        cases p'.request? <;> rfl
      rw [hsent, hc.outgoing_eq, hzero]
      exact hstep hp hm

end System
end StatusRelay
