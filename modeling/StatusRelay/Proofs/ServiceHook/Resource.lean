import StatusRelay.Proofs.Payload.Omission
import StatusRelay.Proofs.ServiceHook.Time
import StatusRelay.ServiceHook.Model

namespace StatusRelay.ServiceHook

open Payload

theorem timed_of_timeOfValue {v : Json.Value} {m : Moment} (h : timeOfValue v = .ok m) :
    m.Timed := by
  cases v with
  | str s => exact timed_of_timeOfText h
  | _ => cases h

theorem timeRule_iso {m : Moment} (h : m.Timed) : timeRule (.str m.iso) = .ok m := by
  simp only [timeRule, timeOfValue, timeOfText_iso h]

theorem timed_of_timeRule {v : Json.Value} {m : Moment} (h : timeRule v = .ok m) : m.Timed := by
  unfold timeRule at h
  split at h
  · rename_i hm
    cases h
    exact timed_of_timeOfValue hm
  · cases h

namespace Shapes

open Shape (Regular)

theorem regular_text (name : String) : Regular (text name).2 := .text

theorem regular_whole (name : String) : Regular (whole name).2 := .whole

theorem regular_truth (name : String) : Regular (truth name).2 := .truth

theorem regular_time (name : String) : Regular (time name).2 :=
  .time (timeRule_iso Moment.timed_zero) fun _ _ h ↦ timeRule_iso (timed_of_timeRule h)

theorem regular_href : Regular href := .record (by decide) (by simp [regular_text])

theorem regular_links : Regular links := .record (by decide) (by simp [of, regular_href])

theorem regular_container : Regular container := .record (by decide) (by simp [regular_text])

theorem regular_resourceContainers : Regular resourceContainers :=
  .record (by decide) (by simp [of, regular_container])

theorem regular_user : Regular user :=
  .record (by decide) (by simp [linksField, regular_text, regular_time, regular_links])

theorem regular_project : Regular project :=
  .record (by decide) (by simp [regular_text, regular_whole, regular_time])

theorem regular_repository : Regular repository :=
  .record (by decide) <| by
    simp [of, regular_text, regular_project, Regular.nullable, Regular.text, Regular.whole,
      Regular.truth]

theorem regular_commit : Regular commit :=
  .record (by decide) (by simp [of, regular_text, regular_user])

theorem regular_refUpdate : Regular refUpdate := .record (by decide) (by simp [regular_text])

theorem regular_pullRequest : Regular pullRequest :=
  .record (by decide) <| by
    simp [of, linksField, regular_text, regular_whole, regular_truth, regular_time, regular_links,
      regular_user, regular_repository, regular_commit, Regular.list]

theorem regular_push : Regular push :=
  .record (by decide) <| by
    simp [of, regular_text, regular_whole, regular_time, regular_user, regular_repository,
      regular_commit, regular_refUpdate, Regular.list]

end Shapes

namespace Model

theorem regular_shape (m : Model) : m.shape.Regular := by
  cases m with
  | href => exact Shapes.regular_href
  | links => exact Shapes.regular_links
  | container => exact Shapes.regular_container
  | resourceContainers => exact Shapes.regular_resourceContainers
  | user => exact Shapes.regular_user
  | project => exact Shapes.regular_project
  | repository => exact Shapes.regular_repository
  | commit => exact Shapes.regular_commit
  | refUpdate => exact Shapes.regular_refUpdate
  | pullRequest => exact Shapes.regular_pullRequest
  | push => exact Shapes.regular_push

variable {m : Model} {payload : Json.Value} {d : Decoded}

/-- A dump of what was read is a payload of the same model. Read again it has the same full dump
under either kind of names, and if the fields that were not given are left out, it is the same
resource. -/
theorem dump_reads_back (h : m.decode payload = .ok d) (style : DumpStyle) :
    ∃ d', m.decode (d.dump style) = .ok d' ∧
      (∀ full : DumpStyle, full.onlyGiven = false → d'.dump full = d.dump full) ∧
      (style.onlyGiven = true → d' = d) := by
  refine ⟨d.reread style, ?_, ?_, ?_⟩
  · exact Shape.decode_dump m.regular_shape style (.inl ⟨payload, h⟩)
  · exact fun full hfull ↦ Decoded.dump_reread full hfull d
  · exact fun honly ↦ Decoded.reread_of_onlyGiven honly d

end Model

namespace Sample

def looseProject : Json.Value :=
  .obj [("id", .str "p-1"), ("revision", .str " 1_7.0 "),
    ("last_update_time", .str "2024-02-03t04:05:06.1234567-01:99"), ("unknown", .null)]

def tidyProject : Json.Value :=
  .obj [("id", .str "p-1"), ("revision", .int 17),
    ("lastUpdateTime", .str "2024-02-03T04:05:06.123456-02:39")]

theorem decode_looseProject : ∃ d, Model.project.decode looseProject = .ok d ∧
    d.dump ⟨true, true⟩ = tidyProject := by
  have hrevision : Payload.Scalar.whole (.str " 1_7.0 ") = .ok 17 := by decide
  have htime : timeRule (.str "2024-02-03t04:05:06.1234567-01:99") =
      .ok ⟨⟨2024, 2, 3⟩, 4, 5, 6, 123456, -9540⟩ := by decide
  have hwhole : Shape.whole.decode (.str " 1_7.0 ") = .ok (.whole 17) := by
    rw [Shape.decode, hrevision]
    rfl
  have hmoment : (Shape.time timeRule).decode (.str "2024-02-03t04:05:06.1234567-01:99") =
      .ok (.time ⟨⟨2024, 2, 3⟩, 4, 5, 6, 123456, -9540⟩) := by
    rw [Shape.decode, htime]
  refine ⟨_, Shape.decode_record_eq_ok.2 ⟨_, _, rfl, rfl, .cons (.given rfl rfl) <|
    .cons (.absent rfl) <| .cons (.absent rfl) <| .cons (.absent rfl) <|
    .cons (.given rfl hwhole) <| .cons (.absent rfl) <| .cons (.given rfl hmoment) .nil⟩, ?_⟩
  rfl

end Sample

namespace Model

theorem dump_reads_back_loose : ∃ d, project.decode Sample.looseProject = .ok d ∧
    d.dump ⟨true, true⟩ = Sample.tidyProject ∧ project.decode Sample.tidyProject = .ok d := by
  obtain ⟨d, hd, hdump⟩ := Sample.decode_looseProject
  obtain ⟨d', hd', -, heq⟩ := dump_reads_back hd ⟨true, true⟩
  rw [heq rfl, hdump] at hd'
  exact ⟨d, hd, hdump, hd'⟩

variable {m : Model} {payload : Json.Value} {d : Decoded}

/-- Any set of fields that read as zero, wherever they are, can be deleted from a payload under both
of their names. None of them is there any more, and what is left is a payload of the same model with
the same full dump. -/
theorem zeros_may_be_omitted (h : m.decode payload = .ok d) {byWire : Bool}
    {gone : List Step → Bool} (hz : ∀ path s v, gone path = true →
      m.shape.fieldAt? payload path = some (s, v) → Shape.ReadsAsZero byWire s v) :
    (∀ path, gone path = true → m.shape.fieldAt? (m.shape.without gone payload) path = none) ∧
      ∃ d', m.decode (m.shape.without gone payload) = .ok d' ∧
        d'.dump ⟨byWire, false⟩ = d.dump ⟨byWire, false⟩ :=
  ⟨fun _ hgone ↦ Shape.fieldAt?_without m.regular_shape hgone,
    Shape.decode_without m.regular_shape hz d h⟩

end Model

namespace Sample

def barePush : Json.Value :=
  .obj [("commits", .arr [.obj [("commitId", .str "c-1"), ("author", .obj [("date", .str "")]),
    ("committer", .obj [("name", .str "Ada"), ("date", .str "0001-01-01T00:00:00Z"),
      ("unique_name", .str "")])]]),
    ("refUpdates", .arr []), ("date", .str "0001-01-01T00:00:00"), ("pushId", .int 9)]

def shortPush : Json.Value :=
  .obj [("commits", .arr [.obj [("commitId", .str "c-1"),
    ("committer", .obj [("name", .str "Ada")])]]), ("pushId", .int 9)]

def inCommit (names : List String) : List Step :=
  .member "commits" :: .element 0 :: names.map .member

def zeroPlaces : List (List Step) :=
  [inCommit ["author"], inCommit ["committer", "date"], inCommit ["committer", "unique_name"],
    [.member "ref_updates"], [.member "date"]]

end Sample

namespace Model

theorem zeros_may_be_omitted_bare : ∃ d d', push.decode Sample.barePush = .ok d ∧
    push.decode Sample.shortPush = .ok d' ∧ d'.dump ⟨true, false⟩ = d.dump ⟨true, false⟩ := by
  have hok : (push.decode Sample.barePush).isOk = true := by decide
  cases h : push.decode Sample.barePush with
  | error issues =>
    rw [h] at hok
    cases hok
  | ok d =>
    have htime : timeRule (.str "0001-01-01T00:00:00Z") = .ok .zero := by decide
    have hz : ∀ path s v, Sample.zeroPlaces.contains path = true →
        push.shape.fieldAt? Sample.barePush path = some (s, v) → Shape.ReadsAsZero true s v := by
      intro path s v hmem hat
      simp only [Sample.zeroPlaces, List.contains_eq_mem, decide_eq_true_eq, List.mem_cons,
        List.not_mem_nil, or_false] at hmem
      obtain rfl | rfl | rfl | rfl | rfl := hmem
      · obtain ⟨rfl, rfl⟩ := Prod.mk.inj (Option.some.inj hat)
        exact ⟨_, rfl, rfl⟩
      · obtain ⟨rfl, rfl⟩ := Prod.mk.inj (Option.some.inj hat)
        exact ⟨.time .zero, by rw [Shape.decode, htime], rfl⟩
      all_goals
        obtain ⟨rfl, rfl⟩ := Prod.mk.inj (Option.some.inj hat)
        exact ⟨_, rfl, rfl⟩
    obtain ⟨-, d', hd', hdump⟩ := zeros_may_be_omitted h hz
    exact ⟨d, d', rfl, hd', hdump⟩

end Model
end StatusRelay.ServiceHook
