import StatusRelay.Crypto.PrivateKey
import StatusRelay.Proofs.Crypto.Base64

namespace StatusRelay

namespace Base64

variable {a : Alphabet}

theorem length_encode (bs : Bytes) : (encode a bs).length % 4 ≠ 1 := by
  rw [encode_eq_map, List.length_map]
  fun_induction sextets bs with
  | case1 => decide
  | case2 x => simp
  | case3 x y => simp
  | case4 x y z rest ih =>
    simp only [List.length_cons]
    omega

def padding (n : Nat) : List Char := List.replicate ((4 - n % 4) % 4) '='

def encodePadded (a : Alphabet) (bs : Bytes) : List Char :=
  encode a bs ++ padding (encode a bs).length

theorem takeWhile_replicate_pad (k : Nat) :
    (List.replicate k '=').takeWhile (· != '=') = [] ∧
      (List.replicate k '=').dropWhile (· != '=') = List.replicate k '=' := by
  cases k with
  | zero => exact ⟨rfl, rfl⟩
  | succ k => exact ⟨rfl, rfl⟩

theorem mem_encodePadded {bs : Bytes} {c : Char} (h : c ∈ encodePadded a bs) :
    (∃ n < 64, digit a n = c) ∨ c = '=' := by
  rcases List.mem_append.1 h with h | h
  · rw [encode_eq_map] at h
    obtain ⟨n, hn, hc⟩ := List.mem_map.1 h
    exact .inl ⟨n, lt_of_mem_sextets hn, hc⟩
  · exact .inr (List.eq_of_mem_replicate h)

def Alphabet.Padless (a : Alphabet) : Prop := ∀ n < 64, digit a n ≠ '='

theorem decodePadded?_encodePadded (ha : a.Faithful) (hpad : a.Padless) (bs : Bytes) :
    decodePadded? a (encodePadded a bs) = some bs := by
  have hne : ∀ c ∈ encode a bs, (c != '=') = true := by
    intro c hc
    rw [encode_eq_map] at hc
    obtain ⟨n, hn, rfl⟩ := List.mem_map.1 hc
    exact bne_iff_ne.2 (hpad n (lt_of_mem_sextets hn))
  have hlen : (encode a bs).length % 4 ≠ 1 := length_encode bs
  obtain ⟨htake, hdrop⟩ := takeWhile_replicate_pad ((4 - (encode a bs).length % 4) % 4)
  have hgroups : (encodePadded a bs).length % 4 = 0 := by
    rw [encodePadded, padding, List.length_append, List.length_replicate]
    omega
  have hfew : (4 - (encode a bs).length % 4) % 4 ≤ 2 := by omega
  rw [decodePadded?, hgroups, encodePadded, padding, List.takeWhile_append_of_pos hne,
    List.dropWhile_append_of_pos hne, htake, hdrop, List.append_nil, decode?_encode ha]
  simp [hfew]

theorem padless_standard : standard.Padless := by
  unfold Alphabet.Padless
  decide

end Base64

namespace Pem

variable {mark before seen cs : List Char}

theorem findMark_matches (rest : List Char) :
    findMark mark before seen rest (rest ++ cs) = some (before.reverse, cs) := by
  induction rest generalizing seen with
  | nil => cases cs <;> rfl
  | cons m rest ih => rw [List.cons_append, findMark, if_pos (by simp), ih]

/-- A text in which the first character of a mark does not occur is passed by. -/
theorem findMark_append {m : Char} {ms text : List Char} (h : m ∉ text) (before cs : List Char) :
    findMark (m :: ms) before [] (m :: ms) (text ++ cs) =
      findMark (m :: ms) (text.reverse ++ before) [] (m :: ms) cs := by
  induction text generalizing before with
  | nil => rfl
  | cons c text ih =>
    obtain ⟨hc, htext⟩ := not_or.1 (mt List.mem_cons.2 h)
    have hne : ¬ (c == m) = true := fun heq ↦ hc (beq_iff_eq.1 heq).symm
    rw [List.cons_append, findMark, if_neg hne, ih htext, List.reverse_cons, List.append_assoc]

theorem splitAtMark_append {m : Char} {ms text : List Char} (hm : mark = m :: ms) (h : m ∉ text)
    (cs : List Char) : splitAtMark mark (text ++ (mark ++ cs)) = some (text, cs) := by
  subst hm
  rw [splitAtMark, findMark_append h, findMark_matches, List.append_nil, List.reverse_reverse]

theorem splitAtMark_of_not_mem {m : Char} {ms text : List Char} (hm : mark = m :: ms)
    (h : m ∉ text) : splitAtMark mark text = none := by
  subst hm
  have hfind := @findMark_append m ms text h [] []
  rw [List.append_nil] at hfind
  exact hfind

/-- A single line has no empty line behind it. -/
theorem splitAtMark_line {n : Char} {text : List Char} (h : n ∉ text) :
    splitAtMark [n, n] (text ++ [n]) = none := by
  rw [splitAtMark, findMark_append h]
  simp [findMark]

theorem lines_nil : lines [] = [] := by
  have hend : String.Pos.Raw.atEnd "" 0 = true := by decide
  have hsplit : (String.ofList []).splitOn "\n" = [String.Pos.Raw.extract "" 0 0] := by
    rw [String.splitOn, if_neg (by decide), String.splitOnAux, if_pos hend]
    rfl
  rw [lines, hsplit]
  rfl

def written (label : String) (bs : List UInt8) : List Char :=
  "-----BEGIN ".toList ++ (label.toList ++ ("-----".toList ++ ('\n' ::
    (Base64.encodePadded Base64.standard bs ++ '\n' :: ("-----END ".toList ++
      (label.toList ++ "-----\n".toList))))))

/-- The characters of a body are neither blank nor part of a mark. -/
theorem mem_body {bs : List UInt8} {c : Char} (h : c ∈ Base64.encodePadded Base64.standard bs) :
    c ≠ '-' ∧ c ≠ ' ' ∧ c ≠ '\t' ∧ c ≠ '\n' ∧ c ≠ '\r' ∧ Text.isWhiteSpace c = false := by
  have hdigit : ∀ n < 64, Base64.digit Base64.standard n ≠ '-' ∧
      Base64.digit Base64.standard n ≠ ' ' ∧ Base64.digit Base64.standard n ≠ '\t' ∧
      Base64.digit Base64.standard n ≠ '\n' ∧ Base64.digit Base64.standard n ≠ '\r' ∧
      Text.isWhiteSpace (Base64.digit Base64.standard n) = false := by decide
  rcases Base64.mem_encodePadded h with ⟨n, hn, rfl⟩ | rfl
  · exact hdigit n hn
  · decide

theorem toList_begin : "-----BEGIN ".toList = '-' :: "----BEGIN ".toList := by decide

theorem armour?_written {label : String} (hlabel : '-' ∉ label.toList) (bs : List UInt8) :
    armour? (written label bs) = some (⟨label.toList,
      '\n' :: (Base64.encodePadded Base64.standard bs ++ ['\n']), label.toList⟩, ['\n']) := by
  have hbody : '-' ∉ '\n' :: (Base64.encodePadded Base64.standard bs ++ ['\n']) := by
    intro h
    simp only [List.mem_cons, List.mem_append, List.not_mem_nil, or_false] at h
    rcases h with h | h | h
    · cases h
    · exact (mem_body h).1 rfl
    · cases h
  have htext : Base64.encodePadded Base64.standard bs ++ '\n' :: ("-----END ".toList ++
      (label.toList ++ "-----\n".toList)) = (Base64.encodePadded Base64.standard bs ++ ['\n']) ++
        ("-----END ".toList ++ (label.toList ++ "-----\n".toList)) := by
    rw [List.append_assoc]
    rfl
  have hbegin (cs : List Char) : splitAtMark "-----BEGIN ".toList ("-----BEGIN ".toList ++ cs) =
      some ([], cs) := splitAtMark_append toList_begin List.not_mem_nil cs
  have hdashes : "-----".toList = '-' :: "----".toList := by decide
  have hopening (cs : List Char) : splitAtMark "-----".toList
      (label.toList ++ ("-----".toList ++ cs)) = some (label.toList, cs) :=
    splitAtMark_append hdashes hlabel cs
  have hend (cs : List Char) : splitAtMark "-----END ".toList
      ('\n' :: (Base64.encodePadded Base64.standard bs ++ ['\n'] ++ ("-----END ".toList ++ cs))) =
        some ('\n' :: (Base64.encodePadded Base64.standard bs ++ ['\n']), cs) := by
    have hmark : "-----END ".toList = '-' :: "----END ".toList := by decide
    exact splitAtMark_append hmark hbody cs
  have hclosing : splitAtMark "-----".toList (label.toList ++ "-----\n".toList) =
      some (label.toList, ['\n']) := by
    have hlast : "-----\n".toList = "-----".toList ++ ['\n'] := by decide
    rw [hlast]
    exact hopening ['\n']
  unfold armour? written
  rw [hbegin, htext]
  simp only [Option.bind_eq_bind, Option.bind_some]
  rw [hopening]
  simp only [Option.bind_some]
  rw [hend]
  simp only [Option.bind_some]
  rw [hclosing]
  rfl

/-- The body of a block without its outer blanks is not mistaken for headers. -/
theorem splitHeaders_body {bs : List UInt8} (hbs : bs ≠ []) :
    splitHeaders (dropSpace ('\n' :: (Base64.encodePadded Base64.standard bs ++ ['\n']))) =
      ([], Base64.encodePadded Base64.standard bs ++ ['\n']) := by
  have hdrop : dropSpace ('\n' :: (Base64.encodePadded Base64.standard bs ++ ['\n'])) =
      Base64.encodePadded Base64.standard bs ++ ['\n'] := by
    cases henc : Base64.encodePadded Base64.standard bs with
    | nil =>
      have hread := Base64.decodePadded?_encodePadded Base64.faithful_standard
        Base64.padless_standard bs
      rw [henc] at hread
      exact absurd (Option.some.inj hread).symm hbs
    | cons c cs =>
      have hc : c ∈ Base64.encodePadded Base64.standard bs := henc ▸ List.mem_cons_self
      obtain ⟨-, hs, ht, hn, hr, -⟩ := mem_body hc
      rw [dropSpace, List.dropWhile_cons_of_pos rfl, List.cons_append,
        List.dropWhile_cons_of_neg (by simp [hs, ht, hn, hr])]
  have hline : '\n' ∉ Base64.encodePadded Base64.standard bs := fun h ↦ (mem_body h).2.2.2.1 rfl
  have hreturn : '\r' ∉ Base64.encodePadded Base64.standard bs ++ ['\n'] := by
    intro h
    rcases List.mem_append.1 h with h | h
    · exact (mem_body h).2.2.2.2.1 rfl
    · exact absurd h (by decide)
  rw [hdrop, splitHeaders, splitAtMark_line hline, splitAtMark_of_not_mem rfl hreturn]
  rfl

theorem block?_written {label : List Char} (hne : label ≠ []) {bs : List UInt8} (hbs : bs ≠ []) :
    Armour.block? ⟨label, '\n' :: (Base64.encodePadded Base64.standard bs ++ ['\n']), label⟩ =
      some ⟨String.ofList label, [], bs⟩ := by
  have hfilter : (Base64.encodePadded Base64.standard bs ++ ['\n']).filter
      (!Text.isWhiteSpace ·) = Base64.encodePadded Base64.standard bs := by
    rw [List.filter_append, List.filter_eq_self.2 fun c hc ↦ by rw [(mem_body hc).2.2.2.2.2]; rfl]
    exact List.append_nil _
  have hopen : (label.isEmpty || label != label) = false := by
    cases label with
    | nil => exact absurd rfl hne
    | cons c cs => simp
  rw [Armour.block?, hopen, splitHeaders_body hbs]
  simp only [lines_nil, hfilter, Base64.decodePadded?_encodePadded Base64.faithful_standard
    Base64.padless_standard]
  rfl

theorem armours_written {label : String} (hlabel : '-' ∉ label.toList) (bs : List UInt8)
    (fuel : Nat) : armours (fuel + 1) (written label bs) = [⟨label.toList,
      '\n' :: (Base64.encodePadded Base64.standard bs ++ ['\n']), label.toList⟩] := by
  have hend : armour? ['\n'] = none := by
    unfold armour?
    rw [splitAtMark_of_not_mem toList_begin (by decide)]
    rfl
  have hrest : armours fuel ['\n'] = [] := by
    cases fuel with
    | zero => rfl
    | succ fuel => rw [armours, hend]
  rw [armours, armour?_written hlabel]
  simp only [hrest]

theorem blocks?_written {label : String} (hlabel : '-' ∉ label.toList) (hne : label.toList ≠ [])
    {bs : List UInt8} (hbs : bs ≠ []) :
    blocks? (String.ofList (written label bs)) = some [⟨label, [], bs⟩] := by
  have hbegin : "-----BEGIN ".toList ≠ [] := by decide
  have hwritten : written label bs ≠ [] := List.append_ne_nil_of_left_ne_nil hbegin _
  obtain ⟨n, hn⟩ := Nat.exists_eq_succ_of_ne_zero (mt List.eq_nil_of_length_eq_zero hwritten)
  rw [blocks?, String.toList_ofList, hn, armours_written hlabel, List.mapM_cons,
    block?_written hne hbs, String.ofList_toList]
  rfl

end Pem

/-- A key for RSA is loaded from its armour. -/
theorem PrivateKey.ofPem_written {bs : List UInt8} {key : Rsa.PrivateKey} (hbs : bs ≠ [])
    (h : Rsa.PrivateKey.ofDer? bs = some key) :
    ofPem (String.ofList (Pem.written "RSA PRIVATE KEY" bs)) = .ok key := by
  have hblocks : Pem.blocks? (String.ofList (Pem.written "RSA PRIVATE KEY" bs)) =
      some [⟨"RSA PRIVATE KEY", [], bs⟩] := Pem.blocks?_written (by decide) (by decide) hbs
  have hlabel : labels.contains "RSA PRIVATE KEY" = true := by decide
  have hfind : ([⟨"RSA PRIVATE KEY", [], bs⟩] : List Pem.Block).find?
      (fun b ↦ labels.contains b.label) = some ⟨"RSA PRIVATE KEY", [], bs⟩ :=
    List.find?_cons_of_pos hlabel
  have hplain : encryptionFault? ⟨"RSA PRIVATE KEY", [], bs⟩ = none := rfl
  have hopen : ofBlock ⟨"RSA PRIVATE KEY", [], bs⟩ = ofRsaDer bs := by
    rw [ofBlock, hplain]
    rfl
  rw [ofPem, hblocks, Option.bind_some, hfind]
  simp only [hopen, ofRsaDer, h]

end StatusRelay
