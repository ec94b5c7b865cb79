import StatusRelay.Log.Output
import StatusRelay.Proofs.Json.ReadBack
import StatusRelay.Startup

namespace StatusRelay

open Json (Value Members Limits)
open Log (Entry PlainRecord)
open Table (put)
open Text (IsPlain)

namespace RunContext

variable {c : RunContext} {entry : Members} {key : String}

theorem get?_inject_run (h : c.current ≠ "") :
    (c.inject entry).get? runKey = some (.str c.current) := by
  rw [inject, if_neg (by simpa using h), Table.get?_put_self]

theorem get?_inject (h : key = runKey → c.current = "") :
    (c.inject entry).get? key = entry.get? key := by
  unfold inject
  split
  · rfl
  · rename_i hrun
    exact Table.get?_put_of_ne (fun hkey ↦ hrun (beq_iff_eq.2 (h hkey))) entry _

theorem nodup_keys_inject (h : entry.keys.Nodup) : (c.inject entry).keys.Nodup := by
  unfold inject
  split
  · exact h
  · exact Table.nodup_keys_put h _ _

theorem forall_mem_inject {P : Value → Prop} (h : ∀ m ∈ entry, P m.2) (hrun : P (.str c.current)) :
    ∀ m ∈ c.inject entry, P m.2 := by
  unfold inject
  split
  · exact h
  · exact Table.forall_mem_put h hrun

end RunContext

namespace Log

/-- Names by which a logging call takes something else than a field. -/
def reservedKeys : List String :=
  ["event", "exc_info", "stack_info", "stack", "exception", "self", "method_name"]

def methods : List String := ["debug", "info", "warning", "error", "critical"]

/-- What an object says that was made of some fields and of what the logger says itself. A run
without a name is none. -/
structure Says (ms fields : Members) (event level timestamp run : String) : Prop where
  once : ms.keys.Nodup
  ofEvent : ms.get? eventKey = some (.str event)
  ofLevel : ms.get? levelKey = some (.str level)
  ofTimestamp : ms.get? timestampKey = some (.str timestamp)
  ofRun : run ≠ "" → ms.get? runKey = some (.str run)
  ofField : ∀ key, key ≠ eventKey → key ≠ levelKey → key ≠ timestampKey →
    (key = runKey → run = "") → ms.get? key = fields.get? key

/-- Whether a line is one line of ASCII and reads as such an object. -/
structure Tells (limits : Limits) (line : String) (fields : Members)
    (event level timestamp run : String) : Prop where
  plain : IsPlain line.toList
  reads : ∃ ms, Json.Reader.whole limits line.toList = .ok (.obj ms) ∧
    Says ms fields event level timestamp run

/-- Fields that can be written out within an object, but for those in whose place the logger puts
what it says itself. -/
def Fits (limits : Limits) (run : String) (fields : Members) : Prop :=
  ∀ m ∈ fields, m.1 ≠ levelKey → m.1 ≠ timestampKey → (m.1 = runKey → run = "") →
    Json.Writer.fault? limits.digits (limits.depth - 1) m.2 = none

section Members

variable {limits : Limits} {ms fields traces : Members} {event level timestamp run : String}

theorem Says.append (h : Says ms [] event level timestamp run) (hn : traces.keys.Nodup)
    (hkeys : ∀ key ∈ traces.keys, key ∉ [eventKey, levelKey, timestampKey, runKey]) :
    Says (ms ++ traces) traces event level timestamp run := by
  have hnew : ∀ key ∈ traces.keys, key ∉ ms.keys := by
    intro key htrace hmem
    obtain ⟨⟨k, v⟩, hm, rfl⟩ := List.mem_map.1 hmem
    have hkey := hkeys k htrace
    simp only [List.mem_cons, List.not_mem_nil, or_false, not_or] at hkey
    obtain ⟨hevent, hlevel, htimestamp, hrun⟩ := hkey
    have hnone := h.ofField k hevent hlevel htimestamp (absurd · hrun)
    cases hnone.symm.trans (Table.get?_of_mem h.once hm)
  refine ⟨?_, ?_, ?_, ?_, fun hrun ↦ ?_, fun key hevent hlevel htimestamp hrun ↦ ?_⟩
  · rw [Table.keys, List.map_append, List.nodup_append]
    exact ⟨h.once, hn, fun key hms trace htrace heq ↦ hnew trace htrace (heq ▸ hms)⟩
  · rw [Table.get?_append, h.ofEvent, Option.some_or]
  · rw [Table.get?_append, h.ofLevel, Option.some_or]
  · rw [Table.get?_append, h.ofTimestamp, Option.some_or]
  · rw [Table.get?_append, h.ofRun hrun, Option.some_or]
  · rw [Table.get?_append, h.ofField key hevent hlevel htimestamp hrun, Table.get?_nil,
      Option.none_or]

/-- What the logger says itself is always written out. -/
theorem Says.fault?_eq_none_iff (h : Says ms fields event level timestamp run)
    (hn : fields.keys.Nodup) (hevent : eventKey ∉ fields.keys) (hdepth : 0 < limits.depth) :
    limits.fault? (.obj ms) = none ↔ Fits limits run fields := by
  obtain ⟨below, hbelow⟩ := Nat.exists_eq_add_of_le' hdepth
  rw [Limits.fault?, Json.Writer.fault?_obj_eq_none_iff, Fits, hbelow]
  constructor
  · rintro ⟨_, heq, hall⟩ ⟨key, v⟩ hm hlevel htimestamp hrun
    have hkey : key ≠ eventKey := by
      rintro rfl
      exact hevent (List.mem_map_of_mem hm)
    have hget := (h.ofField key hkey hlevel htimestamp hrun).trans (Table.get?_of_mem hn hm)
    have hv := hall (key, v) (Table.mem_of_get? hget)
    rwa [← Nat.add_right_cancel heq] at hv
  · intro hfits
    refine ⟨below, rfl, fun ⟨key, v⟩ hm ↦ ?_⟩
    have hget := Table.get?_of_mem h.once hm
    have htext {s : String} (hs : ms.get? key = some (.str s)) :
        Json.Writer.fault? limits.digits below v = none := by
      obtain rfl := Option.some.inj (hget.symm.trans hs)
      exact Json.Writer.fault?_str
    by_cases hevent : key = eventKey
    · exact htext (hevent ▸ h.ofEvent)
    by_cases hlevel : key = levelKey
    · exact htext (hlevel ▸ h.ofLevel)
    by_cases htimestamp : key = timestampKey
    · exact htext (htimestamp ▸ h.ofTimestamp)
    by_cases hrun : key = runKey → run = ""
    · rw [h.ofField key hevent hlevel htimestamp hrun] at hget
      exact hfits (key, v) (Table.mem_of_get? hget) hlevel htimestamp hrun
    · obtain ⟨hkey, hbound⟩ := Classical.not_imp.1 hrun
      exact htext (hkey ▸ h.ofRun hbound)

end Members

namespace Entry

variable {level event timestamp : String} {fields : Members} {c : RunContext}

theorem members_eq (h : ∀ key ∈ traceKeys, key ∉ fields.keys) :
    members ⟨level, some (.str event), fields⟩ timestamp c =
      c.inject (put timestampKey (.str timestamp) (put levelKey (.str level)
        (put eventKey (.str event) fields))) := by
  have hgiven : fields.filter (fun m ↦ !traceKeys.contains m.1) = fields := by
    refine List.filter_eq_self.2 fun m hm ↦ ?_
    rw [Bool.not_eq_true', ← Bool.not_eq_true, List.contains_iff_mem]
    exact fun hkey ↦ h m.1 hkey (List.mem_map_of_mem hm)
  simp only [members, hgiven]

theorem says_members (h : ∀ key ∈ traceKeys, key ∉ fields.keys) (hn : fields.keys.Nodup) :
    Says (members ⟨level, some (.str event), fields⟩ timestamp c) fields event level timestamp
      c.current := by
  -- The run's is none of the other three keys, so it takes none of their values away.
  have hrun {key : String} (hkey : key ≠ runKey) : key = runKey → c.current = "" := (absurd · hkey)
  rw [members_eq h]
  refine ⟨?_, ?_, ?_, ?_, RunContext.get?_inject_run, ?_⟩
  · exact RunContext.nodup_keys_inject
      (Table.nodup_keys_put (Table.nodup_keys_put (Table.nodup_keys_put hn _ _) _ _) _ _)
  · rw [RunContext.get?_inject (hrun (by decide)), Table.get?_put_of_ne (by decide),
      Table.get?_put_of_ne (by decide), Table.get?_put_self]
  · rw [RunContext.get?_inject (hrun (by decide)), Table.get?_put_of_ne (by decide),
      Table.get?_put_self]
  · rw [RunContext.get?_inject (hrun (by decide)), Table.get?_put_self]
  · intro key hevent hlevel htimestamp hkey
    rw [RunContext.get?_inject hkey, Table.get?_put_of_ne htimestamp, Table.get?_put_of_ne hlevel,
      Table.get?_put_of_ne hevent]

theorem exact_members (h : ∀ key ∈ traceKeys, key ∉ fields.keys) (hv : ∀ m ∈ fields, m.2.Exact) :
    ∀ m ∈ members ⟨level, some (.str event), fields⟩ timestamp c, m.2.Exact := by
  rw [members_eq h]
  refine RunContext.forall_mem_inject ?_ (.str _)
  exact Table.forall_mem_put (Table.forall_mem_put (Table.forall_mem_put hv (.str _)) (.str _))
    (.str _)

end Entry

namespace PlainRecord

variable {r : PlainRecord} {limits : Limits}

theorem logged_eq {message : String}
    (h : Template.render? limits r.template r.arguments = some (message.toList.map Char.toNat)) :
    r.logged? limits = some ⟨levelName r.level, some (.str message), []⟩ := by
  rw [logged?, h, Option.map_some, Json.Reader.chars_map_toNat, String.ofList_toList]

theorem keys_traces_sublist : r.traces.keys.Sublist [stackKey, exceptionKey] := by
  obtain ⟨level, template, arguments, _ | stack, _ | exception⟩ := r
  all_goals simp [traces, Table.keys]

theorem exists_str_of_mem_traces : ∀ m ∈ r.traces, ∃ s, m.2 = .str s := by
  obtain ⟨level, template, arguments, _ | stack, _ | exception⟩ := r
  all_goals simp [traces]

section Printing

variable {timestamp message : String} {c : RunContext}

theorem says_traces :
    Says (Entry.members ⟨levelName r.level, some (.str message), []⟩ timestamp c ++ r.traces)
      r.traces message (levelName r.level) timestamp c.current := by
  have hown : ∀ key ∈ [stackKey, exceptionKey],
      key ∉ [eventKey, levelKey, timestampKey, runKey] := by decide
  have htold : Says (Entry.members ⟨levelName r.level, some (.str message), []⟩ timestamp c) []
      message (levelName r.level) timestamp c.current :=
    Entry.says_members (fun _ _ ↦ List.not_mem_nil) List.nodup_nil
  exact htold.append (keys_traces_sublist.nodup (by decide)) fun key hkey ↦
    hown key (keys_traces_sublist.subset hkey)

theorem exact_traces :
    ∀ m ∈ Entry.members ⟨levelName r.level, some (.str message), []⟩ timestamp c ++ r.traces,
      m.2.Exact := by
  refine List.forall_mem_append.2
    ⟨Entry.exact_members (fun _ _ ↦ List.not_mem_nil) (fun _ hm ↦ nomatch hm), fun m hm ↦ ?_⟩
  obtain ⟨s, hs⟩ := exists_str_of_mem_traces m hm
  exact hs ▸ .str s

theorem fits_traces {run : String} : Fits limits run r.traces := by
  intro m hm _ _ _
  obtain ⟨s, hs⟩ := exists_str_of_mem_traces m hm
  rw [hs, Json.Writer.fault?_str]

end Printing

end PlainRecord

namespace Setup

variable {limits : Limits} {ms fields : Members} {event level timestamp run : String}

theorem exists_line (h : Says ms fields event level timestamp run) (hms : ∀ m ∈ ms, m.2.Exact)
    (hv : limits.fault? (.obj ms) = none) :
    ∃ line, Setup.line limits ⟨false⟩ ms = .ok line ∧
      Tells limits line fields event level timestamp run := by
  refine ⟨Json.write .spaced (.obj ms), ?_, ?_, ms, ?_, h⟩
  · rw [Setup.line, if_neg (by decide), Json.dump_eq_ok hv]
    rfl
  · exact Json.isPlain_write Json.Separators.plain_spaced (.obj h.once hms)
  · exact Json.whole_write Json.Separators.sound_spaced (.obj h.once hms) hv

theorem line_eq_error {fault : Json.WriteFault} (hv : limits.fault? (.obj ms) = some fault) :
    Setup.line limits ⟨false⟩ ms = .error (.unwritten fault) := by
  rw [Setup.line, if_neg (by decide), Json.dump_eq_error hv]
  rfl

end Setup

structure Call where
  logger : String
  timestamp : String
  run : RunContext
  entry : Entry

end Log

namespace Service

def after (limits : Limits) (p : Service) (calls : List Log.Call) : Service :=
  calls.foldl (fun p x ↦ (p.call limits x.logger x.timestamp x.run x.entry).2) p

section Printing

variable {p : Service} {limits : Limits} {logger timestamp : String} {c : RunContext}

/-- A call fixes the setup of its logger, which is the one that the logger had before. -/
theorem setupOf?_call (other : String) (e : Entry) :
    (p.call limits other timestamp c e).2.setupOf? logger = p.setupOf? logger := by
  unfold call
  split
  · rfl
  · rename_i setup hsetup
    by_cases hlogger : logger = other
    · subst hlogger
      rw [setupOf?, Table.get?_put_self, Option.some_or, hsetup]
    · rw [setupOf?, Table.get?_put_of_ne hlogger, setupOf?]

theorem handlers_call (e : Entry) :
    (p.call limits logger timestamp c e).2.handlers = p.handlers := by
  unfold call
  split
  · rfl
  · rfl

theorem setupOf?_after (calls : List Log.Call) :
    (p.after limits calls).setupOf? logger = p.setupOf? logger := by
  induction calls generalizing p with
  | nil => rfl
  | cons x calls ih => exact ih.trans (setupOf?_call x.logger x.entry)

theorem handlers_after (calls : List Log.Call) : (p.after limits calls).handlers = p.handlers := by
  induction calls generalizing p with
  | nil => rfl
  | cons x calls ih => exact ih.trans (handlers_call x.entry)

theorem setupOf?_setLogging (h : p.loggers.get? logger ≠ some ⟨true⟩) :
    (p.setLogging ⟨false⟩).setupOf? logger = some ⟨false⟩ := by
  rw [setupOf?, setLogging]
  rcases hkept : p.loggers.get? logger with _ | ⟨_ | _⟩
  · rfl
  · rfl
  · exact absurd hkept h

theorem call_eq {setup : Log.Setup} (h : p.setupOf? logger = some setup) (e : Entry) :
    (p.call limits logger timestamp c e).1 =
      (setup.line limits (e.members timestamp c)).map ([·]) := by
  rw [call, h]
  rfl

theorem record_eq {r : PlainRecord} {e : Entry} {line : String} (hp : p.handlers = [⟨false⟩])
    (hl : 20 ≤ r.level) (he : r.logged? limits = some e)
    (hline : Log.Setup.line limits ⟨false⟩ (e.members timestamp c ++ r.traces) = .ok line) :
    p.record limits timestamp c r = [line] := by
  have hkept : ¬ r.level < Log.Setup.threshold ⟨false⟩ := Int.not_lt.2 hl
  have hprinted : Log.Setup.printRecord? limits ⟨false⟩ timestamp c r = some line := by
    rw [Log.Setup.printRecord?, if_neg hkept, he, Option.bind_some, hline]
    rfl
  rw [record, hp, List.filterMap_cons, hprinted, List.filterMap_nil]

theorem exists_record_line {r : PlainRecord} {message : String} (hdepth : 0 < limits.depth)
    (hp : p.handlers = [⟨false⟩]) (hl : 20 ≤ r.level)
    (hr : r.logged? limits = some ⟨Log.levelName r.level, some (.str message), []⟩) :
    ∃ line, p.record limits timestamp c r = [line] ∧
      Log.Tells limits line r.traces message (Log.levelName r.level) timestamp c.current := by
  have htold : Log.Says (Entry.members ⟨Log.levelName r.level, some (.str message), []⟩ timestamp
      c ++ r.traces) r.traces message (Log.levelName r.level) timestamp c.current :=
    PlainRecord.says_traces
  have hn : r.traces.keys.Nodup := PlainRecord.keys_traces_sublist.nodup (by decide)
  have hevent : Log.eventKey ∉ r.traces.keys := fun hmem ↦
    absurd (PlainRecord.keys_traces_sublist.subset hmem) (by decide)
  obtain ⟨line, hline, htells⟩ := Log.Setup.exists_line htold PlainRecord.exact_traces
    ((htold.fault?_eq_none_iff hn hevent hdepth).2 PlainRecord.fits_traces)
  exact ⟨line, record_eq hp hl hr hline, htells⟩

end Printing

/-- Logging is set up for production; loggers that were used before may go on otherwise, all others
print as follows whatever is logged in between. A call with any text and any fields prints one line
if what it prints can be written within the limits, and fails without a line if not. A record of a
standard logger with any message that is at least an information prints one line. The line is ASCII
throughout and has no end but its own, and it reads as one object: with the text, with what the
logger says of the level, of the time and of a run that is bound, whether or not there are fields of
these names, and with all other fields as they were given, or with the traces of the record. -/
theorem production_lines (limits : Limits) (hdepth : 0 < limits.depth) (before : Service)
    (calls : List Log.Call) (timestamp : String) (c : RunContext) :
    let p := (before.setLogging ⟨false⟩).after limits calls
    (∀ logger, before.loggers.get? logger ≠ some ⟨true⟩ → ∀ method ∈ Log.methods,
      ∀ event fields, fields.keys.Nodup → (∀ key ∈ Log.reservedKeys, key ∉ fields.keys) →
        (∀ m ∈ fields, m.2.Exact) →
        let e : Entry := ⟨Log.methodLevel method, some (.str event), fields⟩
        let printed := (p.call limits logger timestamp c e).1
        (Log.Fits limits c.current fields → ∃ line, printed = .ok [line] ∧
          Log.Tells limits line fields event method timestamp c.current) ∧
        (¬ Log.Fits limits c.current fields → ∃ fault, printed = .error (.unwritten fault))) ∧
      ∀ (r : PlainRecord) message, 20 ≤ r.level →
        Template.render? limits r.template r.arguments = some (message.toList.map Char.toNat) →
        ∃ line, p.record limits timestamp c r = [line] ∧
          Log.Tells limits line r.traces message (Log.levelName r.level) timestamp c.current := by
  intro p
  refine ⟨?_, ?_⟩
  · intro logger hlogger method hmethod event fields hn hreserved hv e printed
    have hlevel : ∀ method ∈ Log.methods, Log.methodLevel method = method := by decide
    have htrace : ∀ key ∈ Log.traceKeys, key ∉ fields.keys := by
      have hsub : ∀ key ∈ Log.traceKeys, key ∈ Log.reservedKeys := by decide
      exact fun key hkey ↦ hreserved key (hsub key hkey)
    have hsetup : p.setupOf? logger = some ⟨false⟩ :=
      (setupOf?_after calls).trans (setupOf?_setLogging hlogger)
    have hprinted : printed = (Log.Setup.line limits ⟨false⟩ (e.members timestamp c)).map ([·]) :=
      call_eq hsetup e
    have htold : Log.Says (Entry.members ⟨method, some (.str event), fields⟩ timestamp c) fields
        event method timestamp c.current := Entry.says_members htrace hn
    have hmembers : e.members timestamp c =
        Entry.members ⟨method, some (.str event), fields⟩ timestamp c := by
      rw [← hlevel method hmethod]
    have hfits := htold.fault?_eq_none_iff hn (hreserved Log.eventKey (by decide)) hdepth
    rw [hprinted, hmembers]
    constructor
    · intro hfit
      obtain ⟨line, hline, htells⟩ :=
        Log.Setup.exists_line htold (Entry.exact_members htrace hv) (hfits.2 hfit)
      exact ⟨line, by rw [hline]; rfl, htells⟩
    · intro hfit
      obtain ⟨fault, hfault⟩ := Option.ne_none_iff_exists'.1 (mt hfits.1 hfit)
      exact ⟨fault, by rw [Log.Setup.line_eq_error hfault]; rfl⟩
  · intro r message hl hm
    exact exists_record_line hdepth (handlers_after calls) hl (PlainRecord.logged_eq hm)

end Service

namespace Sample

def spoofedFields : Members :=
  [("level", .str "critical"), ("pipeline_run", .str "run-2"), ("timestamp", .int (-1)),
    ("detail", .arr [.null, .obj [("key", .bool true)]])]

def spoofedLine : String :=
  "\x7b\"level\": \"info\", \"pipeline_run\": \"run-1\", \"timestamp\": \"noon\", " ++
    "\"detail\": [null, \x7b\"key\": true\x7d], \"event\": \"\\\"done\\\"\\n\\ud83d\\ude00\"\x7d"

def plainLine : String :=
  "\x7b\"event\": \"done\\n\", \"level\": \"warning\", \"timestamp\": \"noon\", " ++
    "\"pipeline_run\": \"run-1\"\x7d"

theorem exact_spoofedFields : ∀ m ∈ spoofedFields, m.2.Exact := by
  have hdetail : (Value.arr [.null, .obj [("key", .bool true)]]).Exact := by
    refine .arr ?_
    simp only [List.forall_mem_cons]
    exact ⟨.null, .obj (by decide) fun m hm ↦ List.mem_singleton.1 hm ▸ .bool true,
      fun _ hv ↦ nomatch hv⟩
  simp only [spoofedFields, List.forall_mem_cons]
  exact ⟨.str _, .str _, .int _, hdetail, fun _ hm ↦ nomatch hm⟩

end Sample

namespace Service

/-- Quotes, a line feed and a character beyond the first plane in the text, and fields by the names
of what the logger says; another logger was used before, while debugging. -/
theorem production_lines_spoofed :
    let before : Service := ⟨[⟨true⟩], some ⟨true⟩, [("worker", ⟨true⟩)], []⟩
    let p := (before.setLogging ⟨false⟩).after .standard []
    let c := RunContext.initial.enter "run-1"
    let e : Entry := ⟨"info", some (.str "\"done\"\n😀"), Sample.spoofedFields⟩
    let r : PlainRecord := ⟨30, "%s\n", [.str "done"], none, none⟩
    0 < Limits.standard.depth ∧ before.loggers.get? "relay" ≠ some ⟨true⟩ ∧
      Sample.spoofedFields.keys.Nodup ∧
      (∀ key ∈ Log.reservedKeys, key ∉ Sample.spoofedFields.keys) ∧
      (∀ m ∈ Sample.spoofedFields, m.2.Exact) ∧
      Log.Fits .standard "run-1" Sample.spoofedFields ∧
      Template.render? .standard r.template r.arguments =
        some ("done\n".toList.map Char.toNat) ∧
      (p.call .standard "relay" "noon" c e).1 = .ok [Sample.spoofedLine] ∧
      p.record .standard "noon" c r = [Sample.plainLine] ∧
      Log.Tells .standard Sample.spoofedLine Sample.spoofedFields "\"done\"\n😀" "info" "noon"
        "run-1" ∧
      Log.Tells .standard Sample.plainLine [] "done\n" "warning" "noon" "run-1" := by
  intro before p c e r
  have hlogger : before.loggers.get? "relay" ≠ some ⟨true⟩ := by decide
  have hkeys : Sample.spoofedFields.keys.Nodup := by decide
  have hreserved : ∀ key ∈ Log.reservedKeys, key ∉ Sample.spoofedFields.keys := by decide
  have hfits : Log.Fits .standard "run-1" Sample.spoofedFields := by
    unfold Log.Fits
    decide +kernel
  have hmessage : Template.render? .standard r.template r.arguments =
      some ("done\n".toList.map Char.toNat) := by decide
  obtain ⟨hcalls, hrecords⟩ := production_lines .standard (by decide) before [] "noon" c
  obtain ⟨line, hline, htells⟩ := (hcalls "relay" hlogger "info" (by decide) "\"done\"\n😀"
    Sample.spoofedFields hkeys hreserved Sample.exact_spoofedFields).1 hfits
  obtain ⟨line', hline', htells'⟩ := hrecords r "done\n" (by decide) hmessage
  have hspoofed : (p.call .standard "relay" "noon" c e).1.toOption =
      some [Sample.spoofedLine] := by decide +kernel
  have hplain : p.record .standard "noon" c r = [Sample.plainLine] := by decide +kernel
  obtain rfl : line = Sample.spoofedLine :=
    (List.cons.inj (Option.some.inj ((congrArg Except.toOption hline).symm.trans hspoofed))).1
  obtain rfl : line' = Sample.plainLine := (List.cons.inj (hline'.symm.trans hplain)).1
  exact ⟨by decide, hlogger, hkeys, hreserved, Sample.exact_spoofedFields, hfits, hmessage, hline,
    hplain, htells, htells'⟩

/-- A number of 4301 digits is not written out, so that nothing is printed of the call; and the
halves of a pair that a record puts side by side are read back as one character. -/
theorem production_lines_missing_and_joined :
    let p := initial.setLogging ⟨false⟩
    let fields : Members := [("count", .int (Int.pow 10 4300))]
    let r : PlainRecord := ⟨20, "%c%c", [.int 0xD83D, .int 0xDE00], none, none⟩
    (fields.keys.Nodup ∧ (∀ key ∈ Log.reservedKeys, key ∉ fields.keys) ∧
      (∀ m ∈ fields, m.2.Exact) ∧
      (p.call .standard "relay" "noon" .initial ⟨"info", some (.str "done"), fields⟩).1 =
        .error (.unwritten .numberTooLong)) ∧
      Template.render? .standard r.template r.arguments = some [0xD83D, 0xDE00] ∧
      "😀".toList.map Char.toNat = [0x1F600] ∧
      ∃ line, p.record .standard "noon" .initial r = [line] ∧
        Log.Tells .standard line [] "😀" "info" "noon" "" := by
  intro p fields r
  have hpoints : Template.render? .standard r.template r.arguments = some [0xD83D, 0xDE00] := by
    decide
  refine ⟨⟨List.nodup_cons.2 ⟨List.not_mem_nil, List.nodup_nil⟩, fun key hkey hmem ↦ ?_,
    fun m hm ↦ List.mem_singleton.1 hm ▸ .int _, ?_⟩, hpoints, by decide, ?_⟩
  · obtain rfl : key = "count" := List.mem_singleton.1 hmem
    exact absurd hkey (by decide)
  · have hfault (v : Value) (hv : Json.Writer.fault? 4300 999 v = some .numberTooLong) :
        Limits.standard.fault? (.obj (Entry.members ⟨"info", some (.str "done"), [("count", v)]⟩
          "noon" .initial)) = some .numberTooLong := by
      change Option.or (Json.Writer.fault? 4300 999 v) _ = _
      rw [hv, Option.some_or]
    rw [call_eq rfl, Log.Setup.line_eq_error (hfault _ (Json.Writer.fault?_pow (Nat.le_refl _)))]
    rfl
  · have hjoined : String.ofList (Text.Unit16.chars [0xD83D, 0xDE00]) = "😀" := by decide
    have hlogged : r.logged? .standard = some ⟨Log.levelName r.level, some (.str "😀"), []⟩ := by
      rw [PlainRecord.logged?, hpoints, Option.map_some, hjoined]
    exact exists_record_line (by decide) rfl (by decide) hlogged

end Service
end StatusRelay
