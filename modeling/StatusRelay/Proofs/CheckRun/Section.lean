import StatusRelay.CheckRun.Ensure
import StatusRelay.Proofs.Turn

namespace StatusRelay.CheckRun.Ensure

open Json (Value)

def released (g : Goal) (c : Client) : Client := c.mapRuns (·.mapLock g.run Lock.release)

def filled (g : Goal) (id : Int) (c : Client) : Client := released g (c.mapRuns (·.store g.run id))

def granted (g : Goal) (t : TaskId) (c : Client) : Client :=
  c.mapRuns (·.mapLock g.run (·.grant t))

inductive Asks (i : Identity) (g : Goal) : Ensure → Request → Prop
  | page {n : Nat} {found : List CheckRun} {bearer : Value} :
      Asks i g (looking g ⟨g.run, ⟨g.query, n, found⟩⟩)
        ⟨"GET", i.url g.query.path, bearer, none, some (("app_id", .int g.appId) :: Page.params n)⟩
  | creation {startedAt : String} {bearer : Value} :
      Asks i g (creating g ⟨g.write⟩)
        ⟨"POST", i.url (Creation.path g.write.event), bearer,
          some (Creation.payload g.write startedAt), none⟩

theorem Asks.goal_eq {i : Identity} {g : Goal} {e : Ensure} {req : Request} (h : Asks i g e req) :
    e.goal = g := by cases h <;> rfl

inductive Entered (g : Goal) (c : Client) : Client → Next Ensure Int → Prop
  | look {req : Request} (h : Asks c.identity g (looking g ⟨g.run, ⟨g.query, 1, []⟩⟩) req) :
      Entered g c c (.send req (looking g ⟨g.run, ⟨g.query, 1, []⟩⟩))
  | fail {f : Failure} : Entered g c (released g c) (.done (.error f))

inductive Started (t : TaskId) (g : Goal) (c : Client) : Client → Next Ensure Int → Prop
  | known {id : Int} (hn : c.runs.load g.run = some id) :
      Started t g c c.attach (.done (.ok id))
  | take {c' : Client} {next : Next Ensure Int} (hn : c.runs.load g.run = none)
      (ho : (c.runs.lock g.run).isOpen = true) (he : Entered g (granted g t c) c' next) :
      Started t g c c' next
  | queue (hn : c.runs.load g.run = none) (ho : (c.runs.lock g.run).isOpen = false) :
      Started t g c (c.mapRuns (·.mapLock g.run (·.enqueue t))) (.wait g.run)

inductive Resumed (t : TaskId) (g : Goal) (c : Client) : Client → Next Ensure Int → Prop
  | known {id : Int} (hn : c.runs.load g.run = some id) :
      Resumed t g c (released g (granted g t c)) (.done (.ok id))
  | take {c' : Client} {next : Next Ensure Int} (hn : c.runs.load g.run = none)
      (he : Entered g (granted g t c) c' next) : Resumed t g c c' next

inductive Answered (g : Goal) (c : Client) (req : Request) (reply : Reply) :
    Ensure → Client → Next Ensure Int → Prop
  | more {n : Nat} {found : List CheckRun} {b : Listing} {req' : Request}
      (hb : Scan.batch req reply = .ok b) (hl : Scan.isLast b (found ++ b.runs) = false)
      (h : Asks c.identity g (looking g ⟨g.run, ⟨g.query, n + 1, found ++ b.runs⟩⟩) req') :
      Answered g c req reply (looking g ⟨g.run, ⟨g.query, n, found⟩⟩) c
        (.send req' (looking g ⟨g.run, ⟨g.query, n + 1, found ++ b.runs⟩⟩))
  | reuse {n : Nat} {found : List CheckRun} {b : Listing} {id : Int}
      (hb : Scan.batch req reply = .ok b) (hl : Scan.isLast b (found ++ b.runs) = true)
      (hf : Lookup.find? g.run ⟨b.total, found ++ b.runs⟩ = some id) :
      Answered g c req reply (looking g ⟨g.run, ⟨g.query, n, found⟩⟩) (filled g id c)
        (.done (.ok id))
  | create {n : Nat} {found : List CheckRun} {b : Listing} {req' : Request}
      (hb : Scan.batch req reply = .ok b) (hl : Scan.isLast b (found ++ b.runs) = true)
      (hf : Lookup.find? g.run ⟨b.total, found ++ b.runs⟩ = none)
      (h : Asks c.identity g (creating g ⟨g.write⟩) req') :
      Answered g c req reply (looking g ⟨g.run, ⟨g.query, n, found⟩⟩) c
        (.send req' (creating g ⟨g.write⟩))
  | giveUp {lookup : Lookup} {f : Failure} :
      Answered g c req reply (looking g lookup) (released g c) (.done (.error f))
  | confirm {id : Int} (h : Creation.created g.write req reply = .ok (.int id)) :
      Answered g c req reply (creating g ⟨g.write⟩) (filled g id c) (.done (.ok id))
  | fail {f : Failure} (h : ∀ id, Creation.created g.write req reply ≠ .ok (.int id)) :
      Answered g c req reply (creating g ⟨g.write⟩) (released g c) (.done (.error f))

section

variable {t : TaskId} {g : Goal} {c c' : Client} {next : Next Ensure Int}

theorem Entered.identity_eq (h : Entered g c c' next) : c'.identity = c.identity := by
  cases h <;> rfl

theorem Started.identity_eq (h : Started t g c c' next) : c'.identity = c.identity := by
  cases h with
  | known => rfl
  | take hn ho he => exact he.identity_eq
  | queue => rfl

theorem Resumed.identity_eq (h : Resumed t g c c' next) : c'.identity = c.identity := by
  cases h with
  | known => rfl
  | take hn he => exact he.identity_eq

theorem Answered.identity_eq {req : Request} {reply : Reply} {e : Ensure}
    (h : Answered g c req reply e c' next) : c'.identity = c.identity := by
  cases h <;> rfl

end

variable {g : Goal} {s : Scope}

theorem asks_page (c : Client) (g : Goal) (n : Nat) (found : List CheckRun) :
    (∃ f, g.query.request c n = .error f) ∨ ∃ req, g.query.request c n = .ok req ∧
      Asks c.identity g (looking g ⟨g.run, ⟨g.query, n, found⟩⟩) req := by
  cases h : g.query.request c n with
  | error f => exact .inl ⟨f, rfl⟩
  | ok req =>
    obtain ⟨bearer, -, rfl⟩ := Client.request_eq_ok h
    exact .inr ⟨_, rfl, .page⟩

theorem inside_entered (now : Moment) (h : s.client.runs.load g.run = none) :
    Entered g s.client (inside now g s).scope.client (inside now g s).next := by
  have hi : inside now g s =
      (Lookup.start g.run g.query s).followedBy (.looking g) (afterLookup now g) := by
    simp only [inside, h]
  rw [hi]
  obtain ⟨f, hr⟩ | ⟨req, hr, ha⟩ := asks_page s.client g 1 []
  · simp only [Lookup.start, Scan.start, hr, Turn.send_error, Turn.andThen_error,
      Turn.followedBy_finish]
    exact .fail
  · simp only [Lookup.start, Scan.start, hr, Turn.send_ok, Turn.andThen_send,
      Turn.followedBy_send]
    exact .look ha

theorem start_started (caller : Caller) :
    Started caller.task g s.client (start caller g s).scope.client (start caller g s).next := by
  cases hn : s.client.runs.load g.run with
  | some id =>
    have hs : start caller g s = .done s.attach id := by
      have ha : s.attach.client.runs.load g.run = some id := hn
      simp only [start, ha]
    rw [hs]
    exact .known hn
  | none =>
    have ha : s.attach.client.runs.load g.run = none := hn
    cases ho : (s.client.runs.lock g.run).isOpen with
    | true =>
      have hl : (s.attach.client.runs.lock g.run).isOpen = true := ho
      have hs : start caller g s = enter caller g s.attach := by
        simp only [start, ha, hl, if_true]
      rw [hs]
      exact .take hn ho (inside_entered (s := s.attach.mapLock g.run (·.grant caller.task)) _ hn)
    | false =>
      have hl : (s.attach.client.runs.lock g.run).isOpen = false := ho
      have hs : start caller g s =
          .wait (s.attach.mapLock g.run (·.enqueue caller.task)) g.run := by
        simp only [start, ha, hl, Bool.false_eq_true, if_false]
      rw [hs]
      exact .queue hn ho

theorem enter_resumed (caller : Caller) :
    Resumed caller.task g s.client (enter caller g s).scope.client (enter caller g s).next := by
  cases hn : s.client.runs.load g.run with
  | some id =>
    have hl : (s.mapLock g.run (·.grant caller.task)).client.runs.load g.run = some id := hn
    have hs : enter caller g s = .done (release g (s.mapLock g.run (·.grant caller.task))) id := by
      simp only [enter, inside, hl]
    rw [hs]
    exact .known hn
  | none => exact .take hn (inside_entered (s := s.mapLock g.run (·.grant caller.task)) _ hn)

theorem create_answered (now : Moment) {req : Request} {reply : Reply} {n : Nat}
    {found : List CheckRun} {b : Listing} (hb : Scan.batch req reply = .ok b)
    (hl : Scan.isLast b (found ++ b.runs) = true)
    (hf : Lookup.find? g.run ⟨b.total, found ++ b.runs⟩ = none) :
    Answered g s.client req reply (looking g ⟨g.run, ⟨g.query, n, found⟩⟩)
      (afterLookup now g s (.ok none)).scope.client (afterLookup now g s (.ok none)).next := by
  cases ht : now.stamp? with
  | none =>
    simp only [afterLookup, Creation.start, ht, Turn.fail_eq, Turn.followedBy_finish]
    exact .giveUp
  | some startedAt =>
    cases hr : s.client.send "POST" (Creation.path g.write.event)
        (Creation.payload g.write startedAt) with
    | error f =>
      simp only [afterLookup, Creation.start, ht, hr, Turn.send_error, Turn.followedBy_finish]
      exact .giveUp
    | ok req' =>
      obtain ⟨bearer, -, rfl⟩ := Client.request_eq_ok hr
      simp only [afterLookup, Creation.start, ht, hr, Turn.send_ok, Turn.followedBy_send]
      exact .create hb hl hf .creation

theorem looking_answered (now : Moment) (req : Request) (reply : Reply) (n : Nat)
    (found : List CheckRun) :
    let t := (looking g ⟨g.run, ⟨g.query, n, found⟩⟩).resume now req reply s
    Answered g s.client req reply (looking g ⟨g.run, ⟨g.query, n, found⟩⟩) t.scope.client
      t.next := by
  intro t
  have ht : t = ((Scan.resume ⟨g.query, n, found⟩ req reply s).andThen (⟨g.run, ·⟩)
      (Lookup.settle g.run)).followedBy (.looking g) (afterLookup now g) := rfl
  rw [ht]
  cases hb : Scan.batch req reply with
  | error f =>
    simp only [Scan.resume, hb, Turn.ofExcept_error, Turn.andThen_error, Turn.followedBy_finish]
    exact .giveUp
  | ok b =>
    cases hl : Scan.isLast b (found ++ b.runs) with
    | false =>
      obtain ⟨f, hr⟩ | ⟨req', hr, ha⟩ := asks_page s.client g (n + 1) (found ++ b.runs)
      · simp only [Scan.resume, hb, hl, hr, Turn.ofExcept_ok, Bool.false_eq_true, if_false,
          Turn.send_error, Turn.andThen_error, Turn.followedBy_finish]
        exact .giveUp
      · simp only [Scan.resume, hb, hl, hr, Turn.ofExcept_ok, Bool.false_eq_true, if_false,
          Turn.send_ok, Turn.andThen_send, Turn.followedBy_send]
        exact .more hb hl ha
    | true =>
      simp only [Scan.resume, hb, hl, Turn.ofExcept_ok, if_true, Turn.done_eq, Turn.andThen_ok,
        Lookup.settle]
      cases hf : Lookup.find? g.run ⟨b.total, found ++ b.runs⟩ with
      | some id =>
        simp only [Turn.followedBy_log, Turn.followedBy_finish, Turn.scope_log, Turn.next_log]
        exact .reuse hb hl hf
      | none => exact create_answered now hb hl hf

theorem creating_answered (now : Moment) (req : Request) (reply : Reply) :
    let t := (creating g ⟨g.write⟩).resume now req reply s
    Answered g s.client req reply (creating g ⟨g.write⟩) t.scope.client t.next := by
  intro t
  have ht : t = (Creation.resume ⟨g.write⟩ req reply s).followedBy (.creating g) (conclude g) := rfl
  rw [ht]
  cases hc : Creation.created g.write req reply with
  | error f =>
    simp only [Creation.resume, hc, Turn.ofExcept_error, Turn.followedBy_finish]
    exact .fail (by simp [hc])
  | ok v =>
    simp only [Creation.resume, hc, Turn.ofExcept_ok, Turn.done_eq, Turn.followedBy_log,
      Turn.followedBy_finish, Turn.scope_log, Turn.next_log]
    cases v with
    | int id => exact .confirm hc
    | null | bool | float | str | arr | obj => exact .fail (by simp [hc])

/-- Every answer to a task inside is met by one of the ways to go on. -/
theorem resume_answered (now : Moment) {i : Identity} {e : Ensure} {req : Request}
    (h : Asks i g e req) (reply : Reply) :
    Answered g s.client req reply e (e.resume now req reply s).scope.client
      (e.resume now req reply s).next := by
  cases h with
  | page => exact looking_answered now _ reply _ _
  | creation => exact creating_answered now _ reply

end StatusRelay.CheckRun.Ensure
