import Mathlib.Data.Nat.Digits.Defs
import StatusRelay.App.Token
import StatusRelay.Proofs.Crypto.Pem
import StatusRelay.Proofs.Json.ReadBack
import StatusRelay.Proofs.Time.Calendar

namespace StatusRelay

namespace Moment

def unixFloor (m : Moment) : Int := (m.instant - unixEpoch * 1000000).fdiv 1000000

theorem unixSeconds_eq_unixFloor {m : Moment} (h : m.micro ≤ 999999) :
    m.unixSeconds = m.unixFloor := by
  rw [unixFloor, Int.fdiv_eq_ediv_of_nonneg _ (by decide)]
  simp only [instant, unixSeconds]
  omega

@[simp] theorem localSeconds_truncate (m : Moment) : m.truncate.localSeconds = m.localSeconds := rfl

@[simp] theorem unixSeconds_truncate (m : Moment) : m.truncate.unixSeconds = m.unixSeconds := rfl

def Shows (m : Moment) (offset t : Int) : Prop :=
  m.Valid ∧ m.offset = offset ∧ m.instant = (unixEpoch + t) * 1000000

theorem shows_truncate {m : Moment} (h : m.Valid) : m.truncate.Shows m.offset m.unixSeconds := by
  obtain ⟨hdate, hhour, hminute, hsecond, -, hoffset⟩ := h
  refine ⟨⟨hdate, hhour, hminute, hsecond, Nat.zero_le _, hoffset⟩, rfl, ?_⟩
  simp only [instant, truncate, unixSeconds, seconds, localSeconds]
  omega

theorem shows_later {m e : Moment} {s : Int} (h : m.Valid)
    (he : m.truncate.addSeconds? s = some e) : e.Shows m.offset (m.unixSeconds + s) := by
  obtain ⟨hlocal, hmicro, hoffset, hvalid⟩ := ofLocalSeconds?_spec he
  refine ⟨hvalid (Nat.zero_le _) h.2.2.2.2.2, hoffset, ?_⟩
  rw [localSeconds_truncate] at hlocal
  rw [instant, seconds, hlocal, hmicro, hoffset, unixSeconds, seconds]
  simp only [truncate]
  omega

end Moment

namespace AppToken

def asciiText? (bs : Bytes) : Option String :=
  if bs.all (· < 128) then some (String.ofList (bs.map fun b ↦ Char.ofNat b.toNat)) else none

/-- The value in a part of a token. -/
def partValue? (cs : List Char) : Option Json.Value := do
  let bs ← Base64.decode? Base64.url cs
  let text ← asciiText? bs
  (Json.read text).toOption

theorem asciiText?_asciiBytes {s : String} (h : Text.IsAscii s.toList) :
    asciiText? (asciiBytes s) = some s := by
  have hbyte (c : Char) (hc : c ∈ s.toList) : (UInt8.ofNat c.toNat).toNat = c.toNat := by
    have hascii := h c hc
    rw [UInt8.toNat_ofNat']
    exact Nat.mod_eq_of_lt (by omega)
  have hall : (asciiBytes s).all (· < 128) = true := by
    rw [List.all_eq_true]
    intro b hb
    obtain ⟨c, hc, rfl⟩ := List.mem_map.1 hb
    rw [decide_eq_true_eq, UInt8.lt_iff_toNat_lt, hbyte c hc]
    exact h c hc
  have hchars : (asciiBytes s).map (fun b ↦ Char.ofNat b.toNat) = s.toList := by
    rw [asciiBytes, List.map_map]
    refine (List.map_congr_left fun c hc ↦ ?_).trans (List.map_id s.toList)
    rw [Function.comp_apply, hbyte c hc, Char.ofNat_toNat]
    rfl
  rw [asciiText?, if_pos hall, hchars, String.ofList_toList]

theorem partValue?_part {v : Json.Value} (h : v.Exact)
    (hv : Json.Limits.standard.fault? v = none) :
    partValue? (part (Json.write .compact v)) = some v := by
  have hascii : Text.IsAscii (Json.write .compact v).toList :=
    (Json.isPlain_write Json.Separators.plain_compact h).isAscii
  have hread : Json.read (Json.write .compact v) = .ok v :=
    Json.whole_write Json.Separators.sound_compact h hv
  rw [partValue?, part, Base64.decode?_encode Base64.faithful_url, Option.bind_eq_bind,
    Option.bind_some, asciiText?_asciiBytes hascii, Option.bind_eq_bind, Option.bind_some, hread]
  rfl

theorem exact_header : header.Exact := by
  refine .obj (by decide) ?_
  simp only [List.forall_mem_cons]
  exact ⟨.str _, .str _, fun _ hm ↦ nomatch hm⟩

section Claims

variable {issuer : Json.Value} {now e : Moment} {t : Int}

def claimsAt (issuer : Json.Value) (t : Int) : Json.Value :=
  .obj [("iss", issuer), ("iat", .int t), ("exp", .int (t + 300))]

theorem claims_eq (hnow : now.micro ≤ 999999)
    (he : now.truncate.addSeconds? lifetime = some e) :
    claims issuer now.truncate e = claimsAt issuer now.unixFloor := by
  obtain ⟨hlocal, -, hoffset, -⟩ := Moment.ofLocalSeconds?_spec he
  have hissued : now.truncate.unixSeconds = now.unixFloor :=
    Moment.unixSeconds_eq_unixFloor hnow
  have hexpires : e.unixSeconds = now.unixFloor + 300 := by
    rw [← hissued]
    simp only [Moment.unixSeconds, Moment.seconds, hlocal, hoffset, lifetime]
    omega
  rw [claims, hissued, hexpires, claimsAt]

theorem exact_claimsAt (h : issuer.Exact) : (claimsAt issuer t).Exact := by
  refine .obj (show ["iss", "iat", "exp"].Nodup by decide) ?_
  simp only [List.forall_mem_cons]
  exact ⟨h, .int _, .int _, fun _ hm ↦ nomatch hm⟩

/-- The seconds of the calendar are short numbers. -/
theorem fault?_claimsAt (h : now.Valid)
    (hlate : now.localSeconds + 300 < Date.dayNumber ⟨10000, 1, 1⟩ * 86400) :
    Json.Limits.standard.fault? (claimsAt issuer now.unixFloor) =
      Json.Writer.fault? 4300 999 issuer := by
  have hlimit : Date.dayNumber ⟨10000, 1, 1⟩ * 86400 = 315537897600 := by decide
  have hoffset := h.2.2.2.2.2
  have hfloor := Moment.unixSeconds_eq_unixFloor h.2.2.2.2.1
  have hshort {n : Int} (hn : n.natAbs < 10 ^ 12) :
      Json.Writer.fault? 4300 999 (.int n) = none :=
    Json.Writer.fault?_int_eq_none_iff.2
      (Nat.le_trans (Nat.toDigits_length 10 n.natAbs 12 (by decide) hn) (by decide))
  have hissued : Json.Writer.fault? 4300 999 (.int now.unixFloor) = none := by
    apply hshort
    simp only [Moment.unixSeconds, Moment.seconds, Moment.unixEpoch] at hfloor
    omega
  have hexpires : Json.Writer.fault? 4300 999 (.int (now.unixFloor + 300)) = none := by
    apply hshort
    simp only [Moment.unixSeconds, Moment.seconds, Moment.unixEpoch] at hfloor
    omega
  change (Json.Writer.fault? 4300 999 issuer).or (Option.or (Json.Writer.fault? 4300 999 _)
    (Option.or (Json.Writer.fault? 4300 999 _) none)) = _
  rw [hissued, hexpires, Option.or_none, Option.or_none, Option.or_none]

end Claims

theorem splitOn_point {h c s : List Char} (hh : '.' ∉ h) (hc : '.' ∉ c) (hs : '.' ∉ s) :
    (h ++ '.' :: c ++ '.' :: s).splitOn '.' = [h, c, s] := by
  have hpoints : ∀ l ∈ [h, c, s], '.' ∉ l := by
    simp only [List.forall_mem_cons]
    exact ⟨hh, hc, hs, fun _ hl ↦ nomatch hl⟩
  have htext : h ++ '.' :: c ++ '.' :: s = ['.'].intercalate [h, c, s] := by
    simp [List.intercalate]
  rw [htext, List.splitOn_intercalate '.' hpoints (List.cons_ne_nil _ _)]

def signedText (issuer : Json.Value) (t : Int) : List Char :=
  signedPart (Json.write .compact (claimsAt issuer t))

theorem text_of_create {issuer : Json.Value} {pem : String} {now : Moment} {token : AppToken}
    (hnow : now.micro ≤ 999999) (h : create issuer pem now = .ok token) : ∃ signature,
      token.text = String.ofList
        (signedText issuer now.unixFloor ++ '.' :: Base64.encode Base64.url signature) := by
  rw [create, createWith] at h
  cases he : now.truncate.addSeconds? lifetime with
  | none =>
    rw [he] at h
    cases h
  | some e =>
    rw [he, issue, claims_eq hnow he, Json.dump] at h
    split at h
    · cases h
    · split at h
      · cases h
      · rename_i text htext
        split at htext
        · cases htext
        · obtain rfl := Except.ok.inj htext
          dsimp only at h
          split at h
          · cases h
          · rename_i signature _
            obtain rfl := Except.ok.inj h
            exact ⟨signature, rfl⟩

theorem exists_expiry {now : Moment} (h : now.localSeconds + 300 < Moment.localLimit) :
    ∃ e, now.truncate.addSeconds? lifetime = some e := by
  rw [Moment.addSeconds?, Moment.localSeconds_truncate, lifetime]
  exact Moment.exists_ofLocalSeconds? (by omega) (by omega)

theorem create_eq_ok {issuer : Json.Value} {pem : String} {key : Rsa.PrivateKey} {now e : Moment}
    {signature : Bytes} (hkey : PrivateKey.ofPem pem = .ok key) (hnow : now.micro ≤ 999999)
    (he : now.truncate.addSeconds? lifetime = some e)
    (hv : Json.Limits.standard.fault? (claimsAt issuer now.unixFloor) = none)
    (hsign : Rsa.sign key (asciiBytes (String.ofList (signedText issuer now.unixFloor))) =
      .ok signature) :
    create issuer pem now = .ok
      ⟨String.ofList (signedText issuer now.unixFloor ++ '.' :: Base64.encode Base64.url signature),
        now.truncate, e⟩ := by
  rw [signedText] at hsign
  rw [create, createWith, he, issue, hkey, claims_eq hnow he, Json.dump_eq_ok hv]
  simp only [hsign]
  rfl

theorem create_eq_error {issuer : Json.Value} {pem : String} {key : Rsa.PrivateKey} {now e : Moment}
    {fault : Json.WriteFault} (hkey : PrivateKey.ofPem pem = .ok key) (hnow : now.micro ≤ 999999)
    (he : now.truncate.addSeconds? lifetime = some e)
    (hv : Json.Limits.standard.fault? (claimsAt issuer now.unixFloor) = some fault) :
    create issuer pem now = .error (.unwritten fault) := by
  rw [create, createWith, he, issue, hkey, claims_eq hnow he, Json.dump_eq_error hv]

theorem splitOn_signedText (issuer : Json.Value) (t : Int) (signature : Bytes) :
    (signedText issuer t ++ '.' :: Base64.encode Base64.url signature).splitOn '.' =
      [part (Json.write .compact header), part (Json.write .compact (claimsAt issuer t)),
        Base64.encode Base64.url signature] :=
  splitOn_point (Base64.point_not_mem_encode _) (Base64.point_not_mem_encode _)
    (Base64.point_not_mem_encode _)

theorem verify_of_sign {key : Rsa.PrivateKey} {message signature : Bytes}
    (h : Rsa.sign key message = .ok signature) :
    Rsa.verify key.toPublicKey message signature = true := by
  rw [Rsa.sign] at h
  split at h
  · cases h
  · dsimp only at h
    split at h
    · cases h
      assumption
    · cases h

/-- A token that is made with a key says for which application and when it was issued, in the words
of the claims and of the moments beside it, and its signature is good. The claims depend on the
second only. The application's number has to be short enough to be written out. -/
theorem token_says_and_verifies {id : Int} {pem : String} {key : Rsa.PrivateKey} {now : Moment}
    {signature : Bytes} (hid : (Nat.toDigits 10 id.natAbs).length ≤ 4300)
    (hkey : PrivateKey.ofPem pem = .ok key) (hnow : now.Valid)
    (hlate : now.localSeconds + 300 < Date.dayNumber ⟨10000, 1, 1⟩ * 86400)
    (hsign : Rsa.sign key (asciiBytes (String.ofList (signedText (.int id) now.unixFloor))) =
      .ok signature) :
    ∃ token h c s, create (.int id) pem now = .ok token ∧
      token.text.toList.splitOn '.' = [h, c, s] ∧
      partValue? h = some (.obj [("alg", .str "RS256"), ("typ", .str "JWT")]) ∧
      partValue? c = some (.obj [("iss", .int id), ("iat", .int now.unixFloor),
        ("exp", .int (now.unixFloor + 300))]) ∧
      token.issuedAt.Shows now.offset now.unixFloor ∧
      token.expiresAt.Shows now.offset (now.unixFloor + 300) ∧
      token.issuedAt.instant ≤ now.instant ∧ now.instant < token.issuedAt.instant + 1000000 ∧
      Base64.decode? Base64.url s = some signature ∧
      Rsa.verify key.toPublicKey (asciiBytes (String.ofList (h ++ '.' :: c))) signature = true ∧
      ∀ pem' now' token', now'.Valid → now'.unixFloor = now.unixFloor →
        create (.int id) pem' now' = .ok token' →
          (token'.text.toList.splitOn '.')[1]? = some c := by
  have hmicro : now.micro ≤ 999999 := hnow.2.2.2.2.1
  obtain ⟨e, he⟩ := exists_expiry hlate
  have hv : Json.Limits.standard.fault? (claimsAt (.int id) now.unixFloor) = none :=
    (fault?_claimsAt hnow hlate).trans (Json.Writer.fault?_int_eq_none_iff.2 hid)
  have hcreate := create_eq_ok hkey hmicro he hv hsign
  have hfloor : now.unixSeconds = now.unixFloor := Moment.unixSeconds_eq_unixFloor hmicro
  have hissued := Moment.shows_truncate hnow
  have hexpires := Moment.shows_later hnow he
  rw [hfloor] at hissued hexpires
  refine ⟨_, part (Json.write .compact header),
    part (Json.write .compact (claimsAt (.int id) now.unixFloor)), Base64.encode Base64.url signature,
    hcreate, ?_, partValue?_part exact_header (by decide),
    partValue?_part (exact_claimsAt (.int id)) hv, hissued, hexpires, ?_, ?_,
    Base64.decode?_encode Base64.faithful_url _, verify_of_sign hsign, ?_⟩
  · rw [String.toList_ofList, splitOn_signedText]
  · simp only [Moment.instant, Moment.truncate, Moment.seconds, Moment.localSeconds]
    omega
  · simp only [Moment.instant, Moment.truncate, Moment.seconds, Moment.localSeconds]
    omega
  · intro pem' now' token' hnow' hsame hcreate'
    obtain ⟨signature', htext⟩ := text_of_create hnow'.2.2.2.2.1 hcreate'
    rw [htext, String.toList_ofList, splitOn_signedText, hsame]
    rfl

namespace Sample

def p : Nat := 27704602800689284183699004683555513235111425077517080641973928063427505067

def q : Nat := 56183021373655391023821184914475298482744522353470268620849261848949950777

def secretExponent : Nat :=
  1913488502714251821633868923213079038967423034990282427818845031234666514 * Nat.pow 10 74 +
    99253910902193346217261148144411040748537222117571097491217582255320696993

def key : Rsa.PrivateKey where
  modulus := p * q
  exponent := 65537
  secretExponent
  p
  q
  secretModP := secretExponent % (p - 1)
  secretModQ := secretExponent % (q - 1)
  qInverse := 14900474053920986381289149674196498730986834501110395381608483894628187370

def derNumber (n : Nat) : Bytes :=
  let size := (n.log2 + 1) / 8 + 1
  0x02 :: .ofNat size :: Sha256.bigEndian size n

def keyDer : Bytes :=
  [0x30, 0x82, 0x01, 0x2C] ++ [0, key.modulus, key.exponent, key.secretExponent, key.p, key.q,
    key.secretModP, key.secretModQ, key.qInverse].flatMap derNumber

def pem : String := String.ofList (Pem.written "RSA PRIVATE KEY" keyDer)

def eve : Moment := ⟨⟨1969, 12, 31⟩, 18, 29, 59, 999999, -19800⟩

theorem ofDer?_keyDer : Rsa.PrivateKey.ofDer? keyDer = some key := by decide +kernel

theorem ofPem_pem : PrivateKey.ofPem pem = .ok key :=
  PrivateKey.ofPem_written (List.cons_ne_nil _ _) ofDer?_keyDer

theorem exists_signature (issuer : Json.Value) (h : (Rsa.sign key
      (asciiBytes (String.ofList (signedText issuer eve.unixFloor)))).toOption.isSome = true) :
    ∃ signature, Rsa.sign key
      (asciiBytes (String.ofList (signedText issuer eve.unixFloor))) = .ok signature := by
  cases hs : Rsa.sign key (asciiBytes (String.ofList (signedText issuer eve.unixFloor))) with
  | ok signature => exact ⟨signature, rfl⟩
  | error fault =>
    rw [hs] at h
    cases h

theorem valid_eve : eve.Valid := by decide

theorem eve_before_limit : eve.localSeconds + 300 < Date.dayNumber ⟨10000, 1, 1⟩ * 86400 := by
  decide

end Sample

theorem token_says_and_verifies_before_epoch :
    ∃ token h c s, create (.int 4242) Sample.pem Sample.eve = .ok token ∧
      token.text.toList.splitOn '.' = [h, c, s] ∧
      partValue? c = some (.obj [("iss", .int 4242), ("iat", .int (-1)), ("exp", .int 299)]) := by
  obtain ⟨signature, hsign⟩ := Sample.exists_signature (.int 4242) (by decide +kernel)
  obtain ⟨token, h, c, s, hcreate, hsplit, -, hclaims, -⟩ := token_says_and_verifies (by decide)
    Sample.ofPem_pem Sample.valid_eve Sample.eve_before_limit hsign
  exact ⟨token, h, c, s, hcreate, hsplit, hclaims⟩

/-- A number of 4301 digits makes no token; and a truth value, which counts as a number elsewhere, is
told as such. -/
theorem token_of_other_issuers :
    create (.int (Int.pow 10 4300)) Sample.pem Sample.eve = .error (.unwritten .numberTooLong) ∧
      ∃ token h c s, create (.bool true) Sample.pem Sample.eve = .ok token ∧
        token.text.toList.splitOn '.' = [h, c, s] ∧
        partValue? c =
          some (.obj [("iss", .bool true), ("iat", .int (-1)), ("exp", .int 299)]) := by
  have hmicro : Sample.eve.micro ≤ 999999 := by decide
  obtain ⟨e, he⟩ := exists_expiry Sample.eve_before_limit
  constructor
  · exact create_eq_error Sample.ofPem_pem hmicro he
      ((fault?_claimsAt Sample.valid_eve Sample.eve_before_limit).trans
        (Json.Writer.fault?_pow (Nat.le_refl _)))
  · obtain ⟨signature, hsign⟩ := Sample.exists_signature (.bool true) (by decide +kernel)
    have hv : Json.Limits.standard.fault? (claimsAt (.bool true) Sample.eve.unixFloor) = none :=
      fault?_claimsAt Sample.valid_eve Sample.eve_before_limit
    refine ⟨_, part (Json.write .compact header),
      part (Json.write .compact (claimsAt (.bool true) Sample.eve.unixFloor)),
      Base64.encode Base64.url signature, create_eq_ok Sample.ofPem_pem hmicro he hv hsign, ?_,
      partValue?_part (exact_claimsAt (.bool true)) hv⟩
    rw [String.toList_ofList, splitOn_signedText]

end AppToken
end StatusRelay
