import StatusRelay.Proofs.CheckRun.Site
import StatusRelay.Proofs.Task.SingleCreation

namespace StatusRelay

open Json (Value)
open CheckRun (Goal Ensure Site Listing Scan Lookup)
open CheckRun.Ensure (Asks Answered Entered)

namespace Reply

/-- Whether a reply hides from its task what the server answered. -/
def isLost : Reply → Bool
  | answered r => r.isRejection
  | broken _ _ => true

theorem isLost_of_batch {req : Request} {reply : Reply} {b : Listing}
    (h : Scan.batch req reply = .ok b) : reply.isLost = false := by
  cases reply with
  | broken => cases h
  | answered r =>
    cases hr : r.isRejection with
    | false => exact hr
    | true => simp [Scan.batch, json, accepted, hr] at h

end Reply

namespace Phase

def scan? : Phase → Option Scan
  | sending _ st =>
    match st.ensure? with
    | some (.looking _ lookup) => some lookup.scan
    | _ => none
  | _ => none

@[simp] theorem scan?_looking (req : Request) (op : Operation) (g : Goal) (l : Lookup) :
    (sending req (op.holding (.looking g l))).scan? = some l.scan := by simp [scan?]

@[simp] theorem scan?_creating (req : Request) (op : Operation) (g : Goal)
    (c : CheckRun.Creation) : (sending req (op.holding (.creating g c))).scan? = none := by
  simp [scan?]

theorem standing_of_scan? {p : Phase} {scan : Scan} (h : p.scan? = some scan) :
    p.standing = .inside := by
  cases p with
  | sending req st =>
    cases he : st.ensure? with
    | none => simp [scan?, he] at h
    | some e => simp [standing, he]
  | _ => cases h

end Phase

namespace Task

inductive Inquiry (i : Identity) (op : Operation) (g : Goal) (p : Phase) (h : Happening) :
    Phase → Prop
  | quiet {p' : Phase} (hx : p'.standing ≠ .inside)
      (hr : ∀ req, p'.request? = some req → ∃ id, g.write.Updates i id req) : Inquiry i op g p h p'
  | look {req : Request} (ha : Asks i g (.looking g ⟨g.run, ⟨g.query, 1, []⟩⟩) req) :
      Inquiry i op g p h (.sending req (op.holding (.looking g ⟨g.run, ⟨g.query, 1, []⟩⟩)))
  | more {req req' : Request} {reply : Reply} {n : Nat} {found : List CheckRun} {b : Listing}
      (hp : p = .sending req (op.holding (.looking g ⟨g.run, ⟨g.query, n, found⟩⟩)))
      (hh : h = .reply reply) (hb : Scan.batch req reply = .ok b)
      (hl : Scan.isLast b (found ++ b.runs) = false)
      (ha : Asks i g (.looking g ⟨g.run, ⟨g.query, n + 1, found ++ b.runs⟩⟩) req') :
      Inquiry i op g p h
        (.sending req' (op.holding (.looking g ⟨g.run, ⟨g.query, n + 1, found ++ b.runs⟩⟩)))
  | create {req req' : Request} {reply : Reply} {n : Nat} {found : List CheckRun} {b : Listing}
      (hp : p = .sending req (op.holding (.looking g ⟨g.run, ⟨g.query, n, found⟩⟩)))
      (hh : h = .reply reply) (hb : Scan.batch req reply = .ok b)
      (hl : Scan.isLast b (found ++ b.runs) = true)
      (hf : Lookup.find? g.run ⟨b.total, found ++ b.runs⟩ = none)
      (ha : Asks i g (.creating g ⟨g.write⟩) req') :
      Inquiry i op g p h (.sending req' (op.holding (.creating g ⟨g.write⟩)))

variable {t : TaskId} {i : Identity} {op : Operation} {g : Goal} {c c' : Client} {p p' : Phase}
  {h : Happening}

theorem Inquiry.finished (r : Except Failure Outcome) : Inquiry i op g p h (.finished r) :=
  .quiet (by simp [Phase.standing]) (by simp [Phase.request?])

theorem Settled.inquiry {id : Int} (hs : Settled i op g id p') : Inquiry i op g p h p' := by
  refine .quiet (by simp [hs.standing_eq]) ?_
  intro req hr
  cases hs with
  | update hop hu =>
    obtain rfl := Option.some.inj hr
    exact ⟨id, hu⟩
  | _ => cases hr

theorem Course.inquiry (hc : Course t op g c p h c' p') : Inquiry c.identity op g p h p' := by
  cases hc with
  | known hn hp | knownLate hn ho hp => exact hp.inquiry
  | queue => exact .quiet (by simp [Phase.standing]) (by simp [Phase.request?])
  | take hn ho he hp =>
    cases he with
    | look ha =>
      cases hp
      exact .look ha
    | fail =>
      cases hp
      exact .finished _
  | answer ha hr hp =>
    cases hr with
    | more hb hl ha' =>
      cases hp
      exact .more rfl rfl hb hl ha'
    | create hb hl hf ha' =>
      cases hp
      exact .create rfl rfl hb hl hf ha'
    | reuse | confirm =>
      cases hp with
      | settle hs => exact hs.inquiry
    | giveUp | fail =>
      cases hp
      exact .finished _
  | _ => exact .finished _

end Task

namespace CheckRun

/-- How far a scan for a run has come when the page that it waits for is one of `seen`, which were
all runs when the page was asked for: none that came later has the name of the run. -/
structure Abreast (runs : List CheckRun) (answer : Option Response) (run : String) (n : Nat)
    (found seen : List CheckRun) : Prop where
  counted : 1 ≤ n
  found_eq : found = seen.take (Page.size * (n - 1))
  answer_eq : answer = some (Listing.answer n seen)
  later : ∃ later, runs = seen ++ later ∧ ∀ r ∈ later, r.externalId ≠ some run

namespace Abreast

variable {runs found seen : List CheckRun} {answer : Option Response} {run : String} {n : Nat}

theorem first (runs : List CheckRun) (run : String) :
    Abreast runs (some (Listing.answer 1 runs)) run 1 [] runs :=
  ⟨Nat.le_refl 1, rfl, rfl, [], (List.append_nil runs).symm, by simp⟩

theorem append (h : Abreast runs answer run n found seen) {r : CheckRun}
    (hr : r.externalId ≠ some run) : Abreast (runs ++ [r]) answer run n found seen := by
  obtain ⟨hn, hf, ha, later, rfl, hlater⟩ := h
  refine ⟨hn, hf, ha, later ++ [r], List.append_assoc _ _ _, ?_⟩
  intro r' hr'
  rw [List.mem_append, List.mem_singleton] at hr'
  obtain hr' | rfl := hr'
  · exact hlater r' hr'
  · exact hr

theorem found_append (h : Abreast runs answer run n found seen) :
    found ++ (Listing.page n seen).runs = seen.take (Page.size * n) := by
  rw [h.found_eq]
  exact Page.take_append_slice Page.size h.counted seen

theorem length_of_isLast (h : Abreast runs answer run n found seen) {last : Bool}
    (hl : Scan.isLast (Listing.page n seen) (found ++ (Listing.page n seen).runs) = last) :
    last = decide (seen.length ≤ Page.size * n) := by
  rw [h.found_append, Scan.isLast_page h.counted] at hl
  exact hl.symm

theorem next (h : Abreast runs answer run n found seen)
    (hl : Scan.isLast (Listing.page n seen) (found ++ (Listing.page n seen).runs) = false) :
    Abreast runs (some (Listing.answer (n + 1) runs)) run (n + 1)
      (found ++ (Listing.page n seen).runs) runs := by
  have hlen : Page.size * n < seen.length := by
    simpa using (h.length_of_isLast hl).symm
  obtain ⟨later, hruns, -⟩ := h.later
  refine ⟨Nat.le_add_left 1 n, ?_, rfl, [], (List.append_nil runs).symm, by simp⟩
  rw [h.found_append, hruns, Nat.add_sub_cancel,
    List.take_append_of_le_length (Nat.le_of_lt hlen)]

/-- Who comes to the end and finds nothing knows that there is nothing. -/
theorem absent (h : Abreast runs answer run n found seen)
    (hl : Scan.isLast (Listing.page n seen) (found ++ (Listing.page n seen).runs) = true)
    (hf : Lookup.find? run
      ⟨(Listing.page n seen).total, found ++ (Listing.page n seen).runs⟩ = none) :
    ∀ r ∈ runs, r.externalId ≠ some run := by
  have hlen : seen.length ≤ Page.size * n := by
    simpa using (h.length_of_isLast hl).symm
  rw [h.found_append, List.take_of_length_le hlen] at hf
  obtain ⟨later, rfl, hlater⟩ := h.later
  intro r hr
  obtain hr | hr := List.mem_append.1 hr
  · exact Lookup.find?_eq_none_iff.1 hf r hr
  · exact hlater r hr

end Abreast

def Site.concerns (s : Site) (op : Operation) : Bool := op.goal?.map Goal.query == some s.query

end CheckRun

structure World where
  system : System
  runs : List CheckRun
  /-- What the server answered to the last request of each task. -/
  answers : TaskId → Option Response

namespace World

/-- A new process finds the check runs that are there. -/
def boot (s : Site) (runs : List CheckRun) (token : Value) (ops : List Operation) : World :=
  ⟨.initial (.create s.apiUrl token) ops, runs, fun _ ↦ none⟩

inductive Event where
  /-- A move, other than one by which an answer of the server comes in; a check run that it makes
  gets the number `id`. -/
  | move (m : Move) (id : Int)
  /-- The answer of the server comes in. -/
  | answer (t : TaskId) (now : Moment) (id : Int)
  /-- The process ends, with all its tasks, and another takes over. -/
  | restart (token : Value) (ops : List Operation)

/-- The server does at once what it is asked, whatever becomes of the answer. -/
def receive (s : Site) (id : Int) (w : World) (x : TaskId × Request) : World where
  system := w.system
  runs := (s.serve w.runs id x.2).1
  answers := Function.update w.answers x.1 (some (s.serve w.runs id x.2).2)

def advance (s : Site) (w : World) (m : Move) (id : Int) : Option World :=
  if w.runs.any (·.id == id) then none
  else (w.system.step m).map fun sys ↦
    (sys.sent.drop w.system.sent.length).foldl (receive s id) { w with system := sys }

/-- Whether a move brings in no answer: all that a task may hear is that it gets none. -/
def isDeaf (m : Move) : Bool :=
  match m.happening with
  | .reply reply => reply.isLost
  | _ => true

def step (s : Site) (w : World) : Event → Option World
  | .move m id => if isDeaf m then w.advance s m id else none
  | .answer t now id => (w.answers t).bind fun r ↦ w.advance s ⟨t, now, .reply (.answered r)⟩ id
  | .restart token ops => if ops.all s.concerns then some (boot s w.runs token ops) else none

def run (s : Site) (w : World) (events : List Event) : Option World := events.foldlM (step s) w

/-- A process for one commit, whose scans are abreast of the server. -/
structure Sound (s : Site) (w : World) : Prop where
  disciplined : w.system.Disciplined
  base : w.system.client.identity.apiUrl = s.base
  query : ∀ (t : TaskId) (task : Task) (g : Goal), w.system.tasks[t]? = some task →
    task.op.Wants g → g.query = s.query
  abreast : ∀ (t : TaskId) (task : Task) (g : Goal) (scan : Scan),
    w.system.tasks[t]? = some task → task.op.Wants g → task.phase.scan? = some scan →
    ∃ seen, CheckRun.Abreast w.runs (w.answers t) g.run scan.page scan.found seen

variable {s : Site} {w w' : World} {m : Move} {id : Int} {sys : System} {task : Task} {g : Goal}
  {p : Phase}

theorem sound_boot (runs : List CheckRun) (token : Value) {ops : List Operation}
    (ho : ∀ op ∈ ops, s.concerns op = true) : (boot s runs token ops).Sound s where
  disciplined := by
    refine System.disciplined_initial (Client.isIdle_create _ _) fun op hop ↦ ?_
    have hc := ho op hop
    simp only [Site.concerns, beq_iff_eq, Option.map_eq_some_iff] at hc
    obtain ⟨g, hg, -⟩ := hc
    exact ⟨g, Operation.wants_of_goal? hg⟩
  base := rfl
  query t task g ht hg := by
    simp only [boot, System.initial, List.getElem?_map, Option.map_eq_some_iff] at ht
    obtain ⟨op, hop, rfl⟩ := ht
    have hc := ho op (List.mem_of_getElem? hop)
    have hop' : op.Wants g := hg
    simpa [Site.concerns, hop'.goal?_eq] using hc
  abreast t task g scan ht hg hp := by
    simp only [boot, System.initial, List.getElem?_map, Option.map_eq_some_iff] at ht
    obtain ⟨op, hop, rfl⟩ := ht
    cases hp

/-- A move of a task, and what the server makes of a request that the task has come to send. -/
structure Advances (s : Site) (w : World) (m : Move) (id : Int) (task : Task) (g : Goal) (p : Phase)
    (w' : World) : Prop where
  moves : System.Moves w.system m task g p w'.system
  quiet : p.request? = none → w'.runs = w.runs
  served : ∀ req, p.request? = some req →
    w'.runs = (s.serve w.runs id req).1 ∧ w'.answers m.task = some (s.serve w.runs id req).2
  others : ∀ t, t ≠ m.task → w'.answers t = w.answers t

theorem advances (hd : w.system.Disciplined) (hw : w.advance s m id = some w') :
    ∃ task g p, Advances s w m id task g p w' := by
  unfold advance at hw
  split at hw
  · cases hw
  · obtain ⟨sys, hs, rfl⟩ := Option.map_eq_some_iff.1 hw
    obtain ⟨task, g, p, hm⟩ := hd.moves hs
    refine ⟨task, g, p, ?_⟩
    rw [hm.sent, List.drop_left]
    cases hp : p.request? with
    | none => exact ⟨hm, fun _ ↦ rfl, by simp [hp], fun _ _ ↦ rfl⟩
    | some req =>
      refine ⟨hm, by simp [hp], ?_, fun t ht ↦ Function.update_of_ne ht _ _⟩
      intro req' hreq
      obtain rfl := Option.some.inj (hp.symm.trans hreq)
      exact ⟨rfl, Function.update_self _ _ _⟩

/-- What becomes of the check runs in a move of a task: it makes one at most, from inside and where
there was none. -/
inductive Growth (runs : List CheckRun) (run : String) (x : Standing) : List CheckRun → Prop
  | same : Growth runs run x runs
  | made (id : Int) (hx : x = .inside) (hn : ∀ r ∈ runs, r.externalId ≠ some run) :
      Growth runs run x (runs ++ [⟨id, some run⟩])

theorem Growth.abreast {runs runs' : List CheckRun} {run other : String} {x : Standing}
    (h : Growth runs run x runs') (hne : x = .inside → run ≠ other) {answer : Option Response}
    {n : Nat} {found seen : List CheckRun} (ha : CheckRun.Abreast runs answer other n found seen) :
    CheckRun.Abreast runs' answer other n found seen := by
  cases h with
  | same => exact ha
  | made id hx hn => exact ha.append fun he ↦ hne hx (Option.some.inj he)

def count (name : String) (runs : List CheckRun) : Nat :=
  runs.countP (·.externalId == some name)

theorem Growth.count_le {runs runs' : List CheckRun} {run : String} {x : Standing}
    (h : Growth runs run x runs') {name : String} (hc : count name runs ≤ 1) :
    count name runs' ≤ 1 := by
  cases h with
  | same => exact hc
  | made id hx hn =>
    rw [count, List.countP_append]
    by_cases hne : run = name
    · subst hne
      have hz : runs.countP (·.externalId == some run) = 0 := by
        rw [List.countP_eq_zero]
        intro r hr
        simpa using hn r hr
      simp [hz]
    · simpa [count, hne] using hc

/-- What a scan reads in a reply is a page of all runs that there were when it asked. -/
theorem Sound.page_of_batch (h : w.Sound s) (hm : System.Moves w.system m task g p w'.system)
    (hr : ∀ reply, m.happening = .reply reply →
      reply.isLost = true ∨ ∃ a, w.answers m.task = some a ∧ reply = .answered a)
    {req : Request} {reply : Reply} {n : Nat} {found : List CheckRun} {b : Listing}
    (hp : task.phase = .sending req (task.op.holding (.looking g ⟨g.run, ⟨g.query, n, found⟩⟩)))
    (hh : m.happening = .reply reply) (hb : Scan.batch req reply = .ok b) :
    ∃ seen, CheckRun.Abreast w.runs (w.answers m.task) g.run n found seen ∧
      b = Listing.page n seen := by
  have hscan : task.phase.scan? = some ⟨g.query, n, found⟩ := by rw [hp, Phase.scan?_looking]
  obtain ⟨seen, hab⟩ := h.abreast m.task task g _ hm.found hm.wants hscan
  refine ⟨seen, hab, ?_⟩
  obtain hlost | ⟨a, ha, rfl⟩ := hr _ hh
  · rw [Reply.isLost_of_batch hb] at hlost
    cases hlost
  · have hans := hab.answer_eq.symm.trans ha
    obtain rfl := Option.some.inj hans
    exact Except.ok.inj (hb.symm.trans (Scan.batch_answer req n seen))

theorem Sound.growth (h : w.Sound s) (ha : Advances s w m id task g p w')
    (hr : ∀ reply, m.happening = .reply reply →
      reply.isLost = true ∨ ∃ a, w.answers m.task = some a ∧ reply = .answered a) :
    Growth w.runs g.run task.phase.standing w'.runs ∧
      ∀ scan, p.scan? = some scan →
        ∃ seen, CheckRun.Abreast w'.runs (w'.answers m.task) g.run scan.page scan.found seen := by
  have hq := h.query m.task task g ha.moves.found ha.moves.wants
  cases ha.moves.course.inquiry with
  | quiet hx hu =>
    constructor
    · cases hp : p.request? with
      | none =>
        rw [ha.quiet hp]
        exact .same
      | some req =>
        obtain ⟨number, hup⟩ := hu req hp
        rw [(ha.served req hp).1, Site.serve_update w.runs id hup]
        exact .same
    · intro scan hs
      exact absurd (Phase.standing_of_scan? hs) hx
  | look hask =>
    obtain ⟨hruns, hanswer⟩ := ha.served _ rfl
    rw [Site.serve_page w.runs id h.base hq hask] at hruns hanswer
    rw [hruns, hanswer]
    refine ⟨.same, ?_⟩
    intro scan hs
    rw [Phase.scan?_looking] at hs
    obtain rfl := Option.some.inj hs
    exact ⟨w.runs, .first w.runs g.run⟩
  | more hp hh hb hl hask =>
    obtain ⟨seen, hab, rfl⟩ := h.page_of_batch ha.moves hr hp hh hb
    obtain ⟨hruns, hanswer⟩ := ha.served _ rfl
    rw [Site.serve_page w.runs id h.base hq hask] at hruns hanswer
    rw [hruns, hanswer]
    refine ⟨.same, ?_⟩
    intro scan hs
    rw [Phase.scan?_looking] at hs
    obtain rfl := Option.some.inj hs
    exact ⟨w.runs, hab.next hl⟩
  | create hp hh hb hl hf hask =>
    obtain ⟨seen, hab, rfl⟩ := h.page_of_batch ha.moves hr hp hh hb
    have hx : task.phase.standing = .inside := by rw [hp, Phase.standing_holding]
    rw [(ha.served _ rfl).1, Site.serve_creation w.runs id h.base hq hask]
    refine ⟨.made id hx (hab.absent hl hf), ?_⟩
    intro scan hs
    rw [Phase.scan?_creating] at hs
    cases hs

theorem Sound.advance (h : w.Sound s) (ha : Advances s w m id task g p w')
    (hr : ∀ reply, m.happening = .reply reply →
      reply.isLost = true ∨ ∃ a, w.answers m.task = some a ∧ reply = .answered a) :
    w'.Sound s := by
  have hm := ha.moves
  obtain ⟨hg, hown⟩ := h.growth ha hr
  obtain ⟨ctx, hself⟩ := hm.carries.getElem?_self
  refine ⟨hm.disciplined h.disciplined, ?_, ?_, ?_⟩
  · rw [hm.course.identity_eq, h.base]
  · intro t task' g' ht hw
    by_cases hne : t = m.task
    · subst hne
      obtain rfl := Option.some.inj (hself.symm.trans ht)
      exact h.query m.task task g' hm.found hw
    · rw [hm.carries.getElem?_of_ne hne] at ht
      exact h.query t task' g' ht hw
  · intro t task' g' scan ht hw hs
    by_cases hne : t = m.task
    · subst hne
      obtain rfl := Option.some.inj (hself.symm.trans ht)
      obtain rfl : g = g' := Option.some.inj (hm.wants.goal?_eq.symm.trans hw.goal?_eq)
      exact hown scan hs
    · rw [hm.carries.getElem?_of_ne hne] at ht
      obtain ⟨seen, hab⟩ := h.abreast t task' g' scan ht hw hs
      refine ⟨seen, ?_⟩
      rw [ha.others t hne]
      -- A new run with the name of this scan would put two tasks inside for one run.
      refine hg.abreast (fun hx hrun ↦ hne ?_) hab
      have hx' : w.system.standing t = .inside := by
        rw [System.standing_eq ht]
        exact Phase.standing_of_scan? hs
      have hrun' : w.system.run? t = some g.run := by
        rw [System.run?_eq ht hw, hrun]
      exact h.disciplined.locks.exclusive hrun' hx' hm.run?_task
        (by rw [System.standing_eq hm.found, hx])

theorem Sound.step {e : Event} (h : w.Sound s) (hs : w.step s e = some w') :
    w'.Sound s ∧ ∀ name, count name w.runs ≤ 1 → count name w'.runs ≤ 1 := by
  have hadvance {m : Move} {id : Int} (hw : w.advance s m id = some w')
      (hr : ∀ reply, m.happening = .reply reply →
        reply.isLost = true ∨ ∃ a, w.answers m.task = some a ∧ reply = .answered a) :
      w'.Sound s ∧ ∀ name, count name w.runs ≤ 1 → count name w'.runs ≤ 1 := by
    obtain ⟨task, g, p, ha⟩ := advances h.disciplined hw
    exact ⟨h.advance ha hr, fun name ↦ (h.growth ha hr).1.count_le⟩
  cases e with
  | move m id =>
    simp only [World.step, Option.ite_none_right_eq_some] at hs
    obtain ⟨hdeaf, hw⟩ := hs
    refine hadvance hw ?_
    intro reply hreply
    rw [isDeaf, hreply] at hdeaf
    exact .inl hdeaf
  | answer t now id =>
    obtain ⟨r, hanswer, hw⟩ := Option.bind_eq_some_iff.1 hs
    refine hadvance hw ?_
    intro reply hreply
    exact .inr ⟨r, hanswer, (Happening.reply.inj hreply).symm⟩
  | restart token ops =>
    simp only [World.step, Option.ite_none_right_eq_some, Option.some.injEq,
      List.all_eq_true] at hs
    obtain ⟨ho, rfl⟩ := hs
    exact ⟨sound_boot w.runs token ho, fun name hc ↦ hc⟩

theorem Sound.run {name : String} {events : List Event} : ∀ {w : World}, w.Sound s →
    count name w.runs ≤ 1 → w.run s events = some w' → count name w'.runs ≤ 1 := by
  induction events with
  | nil =>
    intro w h hc hr
    obtain rfl := Option.some.inj hr
    exact hc
  | cons e events ih =>
    intro w h hc hr
    obtain ⟨mid, hs, hr⟩ := Option.bind_eq_some_iff.1 hr
    obtain ⟨hmid, hcount⟩ := h.step hs
    exact ih hmid (hcount name hc) hr

/-- If a server has at most one check run with a name, then it never has more, however many tasks
want it, whatever becomes of the answers, and as often as another process takes over. -/
theorem created_at_most_once {runs : List CheckRun} {token : Value} {ops : List Operation}
    {events : List Event} (ho : ops.all s.concerns = true)
    (hr : (boot s runs token ops).run s events = some w) {name : String}
    (hc : count name runs ≤ 1) : count name w.runs ≤ 1 := by
  have h : (boot s runs token ops).Sound s := sound_boot runs token (List.all_eq_true.1 ho)
  exact h.run hc hr

end World

namespace Sample

def site : Site := ⟨"https://api.github.com", ⟨"org", "repo", "abc123", 7⟩⟩

def restarted : List World.Event :=
  [.move ⟨0, noon, .start⟩ 9, .answer 0 noon 9,
    .move ⟨0, noon, .reply (.broken "ReadTimeout" "")⟩ 10, .restart (.str "t") ops,
    .move ⟨0, noon, .start⟩ 10, .answer 0 noon 10]

end Sample

namespace World

theorem created_at_most_once_restarted :
    Sample.ops.all Sample.site.concerns = true ∧ count "run-1" [] ≤ 1 ∧
      ∃ w, (boot Sample.site [] (.str "t") Sample.ops).run Sample.site Sample.restarted = some w ∧
        count "run-1" w.runs ≤ 1 := by
  have ho : Sample.ops.all Sample.site.concerns = true := by decide
  have hr : ((boot Sample.site [] (.str "t") Sample.ops).run Sample.site
    Sample.restarted).isSome = true := by decide
  have hc : count "run-1" [] ≤ 1 := by decide
  obtain ⟨w, hr⟩ := Option.isSome_iff_exists.1 hr
  exact ⟨ho, hc, w, hr, created_at_most_once ho hr hc⟩

end World
end StatusRelay
