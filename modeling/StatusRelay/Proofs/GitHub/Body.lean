import StatusRelay.GitHub.Request

namespace StatusRelay

namespace Text

theorem toList_loop (bs : ByteArray) (i : Nat) (acc : Bytes) :
    ByteArray.toList.loop bs i acc = acc.reverse ++ bs.data.toList.drop i := by
  fun_induction ByteArray.toList.loop bs i acc with
  | case1 i acc hi ih =>
    have hlength : i < bs.data.toList.length := hi
    have hget : bs.get! i = bs.data.toList[i] := getElem!_pos bs.data i hi
    rw [ih, hget, List.reverse_cons, List.append_assoc, List.drop_eq_getElem_cons hlength]
    rfl
  | case2 i acc hi =>
    have hlength : bs.data.toList.length ≤ i := Nat.le_of_not_lt hi
    rw [List.drop_eq_nil_of_le hlength, List.append_nil]

theorem toList_toUTF8 (cs : List Char) :
    (String.ofList cs).toUTF8.toList = cs.flatMap String.utf8EncodeChar := by
  have hloop := toList_loop (String.ofList cs).toUTF8 0 []
  rw [List.reverse_nil, List.nil_append, List.drop_zero] at hloop
  exact hloop.trans List.toList_data_toByteArray

/-- Characters of one byte each show no other encoding. -/
theorem reread?_of_bracket (cs : List Char) :
    reread? (String.ofList ('[' :: '[' :: '[' :: '[' :: cs)) =
      some ('[' :: '[' :: '[' :: '[' :: cs) := by
  have hbytes : (String.ofList ('[' :: '[' :: '[' :: '[' :: cs)).toUTF8.toList =
      0x5B :: 0x5B :: 0x5B :: 0x5B :: cs.flatMap String.utf8EncodeChar := toList_toUTF8 _
  have hguess : Encoding.guess
      (0x5B :: 0x5B :: 0x5B :: 0x5B :: cs.flatMap String.utf8EncodeChar) = .utf8 := rfl
  rw [reread?, hbytes]
  simp only [hguess, String.toList_ofList]

end Text

namespace Json.Reader

variable {longest fuel room n : Nat}

theorem value_nested (hroom : room < n) (hf : 2 * room < fuel) :
    value longest fuel room (List.replicate n '[') = .error .nestedTooDeep := by
  induction room generalizing fuel n with
  | zero =>
    obtain ⟨n, rfl⟩ := Nat.exists_eq_add_of_le' hroom
    obtain ⟨fuel, rfl⟩ := Nat.exists_eq_add_of_le' hf
    rfl
  | succ room ih =>
    obtain ⟨n, rfl⟩ := Nat.exists_eq_add_of_le' (Nat.lt_of_le_of_lt (Nat.le_add_left 1 room) hroom)
    obtain ⟨fuel, rfl⟩ := Nat.exists_eq_add_of_le' (show 2 ≤ fuel by omega)
    have hnested : value longest fuel room (List.replicate (n + 1) '[') = .error .nestedTooDeep :=
      ih (by omega) (by omega)
    have hopen : value longest (fuel + 2) (room + 1) (List.replicate (n + 2) '[') =
        (items longest (fuel + 1) room (List.replicate (n + 1) '[')).map
          fun p ↦ (.arr p.1, p.2) := rfl
    rw [hopen, items.eq_2, hnested]
    rfl

end Json.Reader

namespace Body

/-- Whether reading a body fails in a way that no guard catches. -/
def Escapes (b : Body) (fault : Json.ReadFault) : Prop :=
  ∃ text, b = .unread fault text ∧ fault.isCaught = false

theorem not_escapes_json (v : Json.Value) (fault : Json.ReadFault) : ¬ (json v).Escapes fault := by
  rintro ⟨text, h, -⟩
  cases h

theorem escapes_unread_iff {fault fault' : Json.ReadFault} {text : String} :
    (unread fault text).Escapes fault' ↔ fault = fault' ∧ fault.isCaught = false := by
  constructor
  · rintro ⟨text, h, hf⟩
    cases h
    exact ⟨rfl, hf⟩
  · rintro ⟨rfl, hf⟩
    exact ⟨text, rfl, hf⟩

/-- Brackets that open more lists than there is room for. -/
theorem ofText_nested {n : Nat} (h : 1000 < n) :
    ofText (String.ofList (List.replicate n '[')) =
      .unread .nestedTooDeep (String.ofList (List.replicate n '[')) := by
  obtain ⟨n, rfl⟩ := Nat.exists_eq_add_of_le' (show 4 ≤ n by omega)
  have hread : Text.reread? (String.ofList (List.replicate (n + 4) '[')) =
      some (List.replicate (n + 4) '[') := Text.reread?_of_bracket _
  have hwhole : Json.Reader.whole .standard (List.replicate (n + 4) '[') =
      .error .nestedTooDeep := by
    have hfuel : 2 * 1000 < 2 * (List.replicate (n + 4) '[').length + 1 := by
      rw [List.length_replicate]
      omega
    rw [Json.Reader.whole, Json.Limits.standard, Json.Reader.value_nested h hfuel]
    rfl
  have hbody : Json.readBody (String.ofList (List.replicate (n + 4) '[')) =
      .error .nestedTooDeep := by
    rw [Json.readBody, hread]
    exact hwhole
  rw [ofText, hbody]

theorem escapes_nested {n : Nat} (h : 1000 < n) :
    (ofText (String.ofList (List.replicate n '['))).Escapes .nestedTooDeep :=
  ⟨_, ofText_nested h, rfl⟩

end Body

namespace Response

variable {r : Response} {url : String}

theorem reason_of_escapes {fault : Json.ReadFault} (h : r.body.Escapes fault) :
    r.reason = .error (.bodyUnread fault) := by
  obtain ⟨text, hb, hf⟩ := h
  simp only [reason, hb, hf, Bool.false_eq_true, if_false]

theorem exists_reason (h : ∀ fault, ¬ r.body.Escapes fault) : ∃ detail, r.reason = .ok detail := by
  cases hb : r.body with
  | json v => exact ⟨((v.get? "message").filter Json.Value.truthy).map Json.Value.display,
      by simp only [reason, hb]⟩
  | unread fault text =>
    have hf : fault.isCaught = true := by
      rw [← Bool.not_eq_false]
      exact fun hf ↦ h fault ⟨text, hb, hf⟩
    exact ⟨none, by simp only [reason, hb, hf, if_true]⟩

theorem rejection_of_escapes {fault : Json.ReadFault} (h : r.body.Escapes fault) :
    r.rejection url = .bodyUnread fault := by
  rw [rejection, reason_of_escapes h]

theorem rejection_eq {detail : Option String} (h : r.reason = .ok detail) :
    r.rejection url = .rejected url r.status detail := by
  rw [rejection, h]

end Response
end StatusRelay
