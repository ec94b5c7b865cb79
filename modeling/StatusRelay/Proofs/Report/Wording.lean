import StatusRelay.Status.Sink

namespace StatusRelay

namespace RunStatus

/-- The title of a status, and how the sentence of its summary ends. That the run is in progress
comes before what it concluded with. -/
inductive IsWorded (s : RunStatus) : String → String → Prop
  | started (hs : s.stage = "in_progress") : IsWorded s "CI has Started" "is running."
  | succeeded (hs : s.stage ≠ "in_progress") (hc : s.conclusion = "success") :
      IsWorded s "Success" "has <b>successfully</b> validated your commit."
  | failed (hs : s.stage ≠ "in_progress") (hc : s.conclusion = "failure") :
      IsWorded s "Failed" "has <b>failed</b>."
  | skipped (hs : s.stage ≠ "in_progress") (hc : s.conclusion = "skipped") :
      IsWorded s "Skipped" "is skipping this commit."
  | neutral (hs : s.stage ≠ "in_progress") (hc : s.conclusion = "neutral") :
      IsWorded s "Unknown" "doesn't know what happened with this commit."
  | own (hs : s.stage ≠ "in_progress")
      (hc : s.conclusion ∉ ["success", "failure", "skipped", "neutral"]) :
      IsWorded s s.title s.summary

inductive IsSummary (s : RunStatus) (d : Display) (predicate : String) : String → Prop
  | ofApplication (hb : s.baseRun = "") :
      IsSummary s d predicate (d.applicationName ++ " " ++ predicate)
  | ofRun (hb : s.baseRun ≠ "") :
      IsSummary s d predicate (d.applicationName ++ "/" ++ s.baseRun ++ " " ++ predicate)

inductive IsNamed (s : RunStatus) (d : Display) : String → Prop
  | application (ha : d.applicationName ≠ "") (hb : s.baseRun = "") :
      IsNamed s d d.applicationName
  | both (ha : d.applicationName ≠ "") (hb : s.baseRun ≠ "") :
      IsNamed s d (d.applicationName ++ " / " ++ s.baseRun)
  | run (ha : d.applicationName = "") : IsNamed s d s.baseRun

inductive HasState (s : RunStatus) : String → Prop
  | started (hs : s.stage = "in_progress") : HasState s "pending"
  | passed (hs : s.stage ≠ "in_progress") (hc : s.conclusion = "skipped" ∨ s.conclusion = "neutral") :
      HasState s "success"
  | concluded (hs : s.stage ≠ "in_progress") (hk : s.conclusion ≠ "skipped")
      (hn : s.conclusion ≠ "neutral") : HasState s s.conclusion

variable {s : RunStatus} {d : Display} {title predicate text : String}

theorem wording_of_ne (hs : s.stage ≠ "in_progress") :
    s.wording = (Conclusion.wording? s.conclusion).getD (s.title, s.summary) :=
  if_neg fun h ↦ hs (beq_iff_eq.1 h)

theorem isWorded_wording (s : RunStatus) : s.IsWorded s.wording.1 s.wording.2 := by
  by_cases hs : s.stage = "in_progress"
  · have hstarted : s.wording = inProgressWording := if_pos (beq_iff_eq.2 hs)
    rw [hstarted]
    exact .started hs
  · rw [wording_of_ne hs, Conclusion.wording?]
    simp only [beq_iff_eq]
    split
    · exact .succeeded hs ‹_›
    · split
      · exact .failed hs ‹_›
      · split
        · exact .skipped hs ‹_›
        · split
          · exact .neutral hs ‹_›
          · exact .own hs (by simp_all [Conclusion.success, Conclusion.failure,
              Conclusion.skipped, Conclusion.neutral])

theorem IsWorded.wording_eq (h : s.IsWorded title predicate) : s.wording = (title, predicate) := by
  cases h with
  | started hs =>
    have hstarted : s.wording = inProgressWording := if_pos (beq_iff_eq.2 hs)
    rw [hstarted, inProgressWording]
  | own hs hc =>
    rw [wording_of_ne hs]
    simp_all [Conclusion.wording?, Conclusion.success, Conclusion.failure, Conclusion.skipped,
      Conclusion.neutral]
  | _ hs hc =>
    rw [wording_of_ne hs, hc]
    rfl

theorem subject_eq (s : RunStatus) (d : Display) : s.subject d =
    if s.baseRun = "" then d.applicationName else d.applicationName ++ "/" ++ s.baseRun := by
  simp only [subject, beq_iff_eq]
  split
  · exact String.append_empty
  · exact (String.append_assoc ..).symm

theorem isSummary_subject (s : RunStatus) (d : Display) (predicate : String) :
    s.IsSummary d predicate (s.subject d ++ " " ++ predicate) := by
  rw [subject_eq]
  split
  · exact .ofApplication ‹_›
  · exact .ofRun ‹_›

theorem IsSummary.eq_subject (h : s.IsSummary d predicate text) :
    text = s.subject d ++ " " ++ predicate := by
  rw [subject_eq]
  cases h with
  | ofApplication hb => rw [if_pos hb]
  | ofRun hb => rw [if_neg hb]

theorem checkName_eq (s : RunStatus) (d : Display) : s.checkName d =
    if d.applicationName = "" then s.baseRun
    else if s.baseRun = "" then d.applicationName
    else d.applicationName ++ " / " ++ s.baseRun := by
  simp only [checkName, beq_iff_eq]

theorem isNamed_checkName (s : RunStatus) (d : Display) : s.IsNamed d (s.checkName d) := by
  rw [checkName_eq]
  split
  · exact .run ‹_›
  · split
    · exact .application ‹_› ‹_›
    · exact .both ‹_› ‹_›

theorem IsNamed.eq_checkName (h : s.IsNamed d text) : text = s.checkName d := by
  rw [checkName_eq]
  cases h with
  | application ha hb => rw [if_neg ha, if_pos hb]
  | both ha hb => rw [if_neg ha, if_neg hb]
  | run ha => rw [if_pos ha]

theorem commitState_eq (s : RunStatus) : s.commitState =
    if s.stage = "in_progress" then "pending"
    else if s.conclusion = "skipped" ∨ s.conclusion = "neutral" then "success"
    else s.conclusion := by
  simp only [commitState, Bool.or_eq_true, beq_iff_eq]
  rfl

theorem hasState_commitState (s : RunStatus) : s.HasState s.commitState := by
  rw [commitState_eq]
  split
  · exact .started ‹_›
  · split
    · exact .passed ‹_› ‹_›
    · rename_i hs hc
      obtain ⟨hk, hn⟩ := not_or.1 hc
      exact .concluded hs hk hn

theorem HasState.eq_commitState (h : s.HasState text) : text = s.commitState := by
  rw [commitState_eq]
  cases h with
  | started hs => rw [if_pos hs]
  | passed hs hc => rw [if_neg hs, if_pos hc]
  | concluded hs hk hn => rw [if_neg hs, if_neg (not_or.2 ⟨hk, hn⟩)]

end RunStatus

structure Wording where
  name : String
  title : String
  summary : String
deriving DecidableEq, Repr

namespace StatusWrite

structure IsWorded (w : StatusWrite) (x : Wording) : Prop where
  name : w.status.IsNamed w.display x.name
  text : ∃ predicate, w.status.IsWorded x.title predicate ∧
    w.status.IsSummary w.display predicate x.summary

def wording (w : StatusWrite) : Wording :=
  ⟨w.worded.checkName, w.worded.status.title, w.worded.status.summary⟩

theorem isWorded_wording (w : StatusWrite) : w.IsWorded w.wording where
  name := w.status.isNamed_checkName w.display
  text := ⟨w.status.wording.2, w.status.isWorded_wording, w.status.isSummary_subject w.display _⟩

/-- There is one wording of a status. -/
theorem IsWorded.eq_wording {w : StatusWrite} {x : Wording} (h : w.IsWorded x) : x = w.wording := by
  obtain ⟨predicate, htitle, hsummary⟩ := h.text
  have hwording := htitle.wording_eq
  have htitle : x.title = w.status.wording.1 := by rw [hwording]
  have hsummary : x.summary = w.status.subject w.display ++ " " ++ w.status.wording.2 := by
    rw [hwording]
    exact hsummary.eq_subject
  calc x = ⟨x.name, x.title, x.summary⟩ := rfl
    _ = w.wording := by
      rw [h.name.eq_checkName, htitle, hsummary]
      rfl

end StatusWrite
end StatusRelay
