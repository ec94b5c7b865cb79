import StatusRelay.Proofs.Settings.KeyText
import StatusRelay.Settings.Derived

namespace StatusRelay.Settings

open Json (Value Members)
open Payload (Checked)
open EnvFile (Quotes PlainName LineOver Whole bindings unifyLineEnds)

def IsKeyName (name : String) : Prop := Text.lower name = "github_private_key"

inductive Carrier where
  | given
  | environment
  | file (quotes : Quotes)
deriving DecidableEq, Repr

/-- The sources have one text for the private key, on a carrier that none before it overrules. -/
inductive Sources.Bring (s : Sources) : Carrier → List Char → Prop
  | given (before after : Members) {name : String} {text : List Char}
      (hs : s.given = before ++ (name, .str (String.ofList text)) :: after) (hn : IsKeyName name)
      (ho : ∀ m ∈ before ++ after, ¬ IsKeyName m.1) : s.Bring .given text
  | environment (before after : Table String) {name : String} {text : List Char}
      (hg : ∀ m ∈ s.given, ¬ IsKeyName m.1)
      (hs : s.environment = before ++ (name, String.ofList text) :: after) (hn : IsKeyName name)
      (ho : ∀ e ∈ before ++ after, ¬ IsKeyName e.1) : s.Bring .environment text
  | file (before after : List Char) {content : String} {name text : List Char} {quotes : Quotes}
      (hg : ∀ m ∈ s.given, ¬ IsKeyName m.1) (he : ∀ e ∈ s.environment, ¬ IsKeyName e.1)
      (hs : s.file = some content)
      (hc : content.toList = before ++ (name ++ '=' :: (quotes.around text ++ after)))
      (hw : Whole (unifyLineEnds before)) (hp : PlainName name) (hl : LineOver after)
      (hn : IsKeyName (String.ofList name))
      (ho : ∀ b ∈ bindings (unifyLineEnds before) ++ bindings (unifyLineEnds after),
        ¬ IsKeyName (String.ofList b.1)) : s.Bring (.file quotes) text

theorem eq_of_mem_append_cons {α : Type} {before after : List α} {a x : α}
    (hx : x ∈ before ++ a :: after) (hn : x ∉ before ++ after) : x = a := by
  simp only [List.mem_append, List.mem_cons, not_or] at hx hn
  tauto

variable {s : Sources}

theorem fold_default (name : String) : Reading.default.fold name = Text.lower name := rfl

theorem variableName_default :
    Reading.default.variableName "github_private_key" = "github_private_key" := by
  decide +kernel

theorem value_default (text : String) : Reading.default.value text = .str text := rfl

/-- Names as they are compared, by the options that settings are read with unless told otherwise. -/
theorem table_default (entries : List (String × Option String)) :
    Reading.default.table entries =
      Table.ofPairs (entries.map fun e ↦ (Text.lower e.1, e.2)) := by
  have hall : entries.filter (fun e ↦ !(Reading.default.skipsEmpty && e.2 == some "")) =
      entries := List.filter_eq_self.2 fun _ _ ↦ rfl
  rw [Reading.table, hall]
  rfl

/-- A name that all entries agree on has their value. -/
theorem get?_table {entries : List (String × Option String)} {v : Option String}
    (hkey : ∃ e ∈ entries, IsKeyName e.1) (hall : ∀ e ∈ entries, IsKeyName e.1 → e.2 = v) :
    (Reading.default.table entries).get? "github_private_key" = some v := by
  rw [table_default]
  refine Table.get?_ofPairs ?_ ?_
  · obtain ⟨e, he, hname⟩ := hkey
    rw [Table.keys, List.map_map]
    exact List.mem_map.2 ⟨e, he, hname⟩
  · intro d hd hname
    obtain ⟨e, he, rfl⟩ := List.mem_map.1 hd
    exact hall e he hname

theorem get?_table_of_none {entries : List (String × Option String)}
    (hnone : ∀ e ∈ entries, ¬ IsKeyName e.1) :
    (Reading.default.table entries).get? "github_private_key" = none := by
  rw [table_default]
  refine Table.get?_ofPairs_of_not_mem fun hmem ↦ ?_
  rw [Table.keys, List.map_map] at hmem
  obtain ⟨e, he, hname⟩ := List.mem_map.1 hmem
  exact hnone e he hname

theorem given?_eq_none (hg : ∀ m ∈ s.given, ¬ IsKeyName m.1) :
    s.given? .default "github_private_key" = none := by
  have hfind : s.given.find? (fun m ↦ Reading.default.fold m.1 == "github_private_key") = none :=
    List.find?_eq_none.2 fun m hm heq ↦ hg m hm (beq_iff_eq.1 heq)
  rw [Sources.given?, hfind]
  rfl

theorem environment_eq_none (he : ∀ e ∈ s.environment, ¬ IsKeyName e.1) :
    (s.environmentVariables .default).get? "github_private_key" = none := by
  refine get?_table_of_none fun e hmem ↦ ?_
  obtain ⟨d, hd, rfl⟩ := List.mem_map.1 hmem
  exact he d hd

/-- What comes of a text on its way, where only the settings file does anything to it. -/
def Carrier.Reads : Carrier → List Char → List Char → Prop
  | .file quotes, text, v => '\r' ∉ quotes.around text ∧ '$' ∉ v ∧ ∀ after, LineOver after →
      EnvFile.value (quotes.around text ++ after) = .ok (v, after)
  | _, text, v => v = text

theorem lineOver_unify {after : List Char} (h : LineOver after) :
    LineOver (unifyLineEnds after) := by
  cases after with
  | nil => exact h
  | cons c rest =>
    have hc := h c rfl
    rw [EnvFile.isLineEnd, Bool.or_eq_true, beq_iff_eq, beq_iff_eq] at hc
    have hhead : ∃ tail, unifyLineEnds (c :: rest) = '\n' :: tail := by
      obtain rfl | rfl := hc
      · exact ⟨_, EnvFile.unifyLineEnds_cons (by decide) rest⟩
      · by_cases hfeed : rest.head? = some '\n'
        · obtain ⟨tail, rfl⟩ := List.head?_eq_some_iff.1 hfeed
          exact ⟨_, rfl⟩
        · exact ⟨_, EnvFile.unifyLineEnds_return hfeed⟩
    obtain ⟨tail, htail⟩ := hhead
    rw [htail]
    rintro d ⟨⟩
    rfl

theorem bindings_file {before name text v after : List Char} {quotes : Quotes}
    (hw : Whole (unifyLineEnds before)) (hp : PlainName name) (hl : LineOver after)
    (hv : Carrier.Reads (.file quotes) text v) :
    bindings (unifyLineEnds (before ++ (name ++ '=' :: (quotes.around text ++ after)))) =
      bindings (unifyLineEnds before) ++ (name, some v) :: bindings (unifyLineEnds after) := by
  obtain ⟨hreturn, -, hread⟩ := hv
  have hover := lineOver_unify hl
  have hline : unifyLineEnds (name ++ '=' :: (quotes.around text ++ after)) =
      name ++ '=' :: (quotes.around text ++ unifyLineEnds after) := by
    rw [EnvFile.unifyLineEnds_of_not_mem hp.not_return,
      EnvFile.unifyLineEnds_cons (by decide), EnvFile.unifyLineEnds_of_not_mem hreturn]
  have hsplit : unifyLineEnds (before ++ (name ++ '=' :: (quotes.around text ++ after))) =
      unifyLineEnds before ++ unifyLineEnds (name ++ '=' :: (quotes.around text ++ after)) := by
    obtain _ | ⟨c, name⟩ := name
    · exact absurd rfl hp.ne_nil
    · refine EnvFile.unifyLineEnds_append ?_ _ _
      rintro rfl
      exact absurd (hp.plain _ List.mem_cons_self).2.2.2 (by decide)
  rw [hsplit, hline, hw, EnvFile.bindings_line hp (hread _ hover) hover,
    EnvFile.bindings_tail hover]

theorem find?_given {before after : Members} {name text : String}
    (hs : s.given = before ++ (name, .str text) :: after) (hn : IsKeyName name)
    (ho : ∀ m ∈ before ++ after, ¬ IsKeyName m.1) :
    s.find? .default "github_private_key" = some (.str text) := by
  have hbefore : before.find? (fun m ↦ Reading.default.fold m.1 == "github_private_key") = none :=
    List.find?_eq_none.2 fun m hm heq ↦ ho m (List.mem_append_left _ hm) (beq_iff_eq.1 heq)
  have hname : (Reading.default.fold name == "github_private_key") = true := beq_iff_eq.2 hn
  have hgiven : s.given? .default "github_private_key" = some (.str text) := by
    rw [Sources.given?, hs, List.find?_append, hbefore, Option.none_or, List.find?, hname]
    rfl
  simp only [Sources.find?, hgiven]

theorem find?_environment {before after : Table String} {name text : String}
    (hg : ∀ m ∈ s.given, ¬ IsKeyName m.1) (hs : s.environment = before ++ (name, text) :: after)
    (hn : IsKeyName name) (ho : ∀ e ∈ before ++ after, ¬ IsKeyName e.1) :
    s.find? .default "github_private_key" = some (.str text) := by
  have hfound : (s.environmentVariables .default).get? "github_private_key" = some (some text) := by
    have hmem : (name, text) ∈ s.environment := hs ▸ List.mem_append_right _ List.mem_cons_self
    refine get?_table ⟨(name, some text), List.mem_map_of_mem hmem, hn⟩ ?_
    intro e he hname
    obtain ⟨d, hd, rfl⟩ := List.mem_map.1 he
    rw [hs] at hd
    rw [eq_of_mem_append_cons hd fun h ↦ ho d h hname]
  simp only [Sources.find?, given?_eq_none hg, variableName_default, hfound, value_default]

theorem find?_file {content : String} (hg : ∀ m ∈ s.given, ¬ IsKeyName m.1)
    (he : ∀ e ∈ s.environment, ¬ IsKeyName e.1) (hs : s.file = some content)
    {before after : List (List Char × Option (List Char))} {name v : List Char}
    (hb : bindings (unifyLineEnds content.toList) = before ++ (name, some v) :: after)
    (hv : '$' ∉ v) (hn : IsKeyName (String.ofList name))
    (ho : ∀ b ∈ before ++ after, ¬ IsKeyName (String.ofList b.1)) :
    s.find? .default "github_private_key" = some (.str (String.ofList v)) := by
  have hread : EnvFile.read s.environment content =
      EnvFile.resolve s.environment (before ++ (name, some v) :: after) :=
    congrArg (EnvFile.resolve s.environment) hb
  have hfile : s.fileVariables .default =
      Reading.default.table (EnvFile.read s.environment content) := by
    simp only [Sources.fileVariables, hs]
    exact if_pos rfl
  have hfound : (s.fileVariables .default).get? "github_private_key" =
      some (some (String.ofList v)) := by
    have honly : ∀ b ∈ before ++ (name, some v) :: after, IsKeyName (String.ofList b.1) →
        b = (name, some v) := fun b hmem hname ↦
      eq_of_mem_append_cons hmem fun h ↦ ho b h hname
    obtain ⟨hkey, hall⟩ := EnvFile.resolve_only (P := IsKeyName) s.environment hv honly
      (List.mem_append_right _ List.mem_cons_self)
    obtain ⟨e, hmem, hname⟩ := List.mem_map.1 hkey
    rw [hfile, hread]
    exact get?_table ⟨e, hmem, hname ▸ hn⟩ hall
  simp only [Sources.find?, given?_eq_none hg, variableName_default, environment_eq_none he,
    hfound, value_default]

/-- The text on its carrier is the value that the settings find for the private key. -/
theorem Sources.Bring.find?_eq {carrier : Carrier} {text v : List Char} (h : s.Bring carrier text)
    (hv : carrier.Reads text v) :
    s.find? .default "github_private_key" = some (.str (String.ofList v)) := by
  cases h with
  | given before after hs hn ho =>
    obtain rfl : v = text := hv
    exact find?_given hs hn ho
  | environment before after hg hs hn ho =>
    obtain rfl : v = text := hv
    exact find?_environment hg hs hn ho
  | file before after hg he hs hc hw hp hl hn ho =>
    exact find?_file hg he hs (hc ▸ bindings_file hw hp hl hv) hv.2.1 hn ho

/-- A key may be written as it is where it is read as it is, and flattened everywhere. -/
def Carrier.Holds (k text : List Char) : Carrier → Prop
  | .file _ => text = flatten k
  | _ => text = k ∨ text = flatten k

/-- A key comes to the settings as it was flattened, or with its line feeds. -/
theorem IsKeyText.exists_reads {k text : List Char} (h : IsKeyText k) {carrier : Carrier}
    (ht : carrier.Holds k text) : ∃ v, carrier.Reads text v ∧ unflatten v = k := by
  have hflat : unflatten (flatten k) = k := unflatten_flatten h.not_mark
  cases carrier with
  | given | environment =>
    obtain rfl | rfl := ht
    · exact ⟨_, rfl, h.unflatten_eq⟩
    · exact ⟨_, rfl, hflat⟩
  | file quotes =>
    obtain rfl := ht
    have hreturn : '\r' ∉ quotes.around (flatten k) := by
      have hmem : '\r' ∉ flatten k := h.not_mem_flatten (by decide)
      cases quotes <;> simp [Quotes.around, hmem]
    refine ⟨readQuoted k quotes, ⟨hreturn, ?_, fun after ↦ h.value_around quotes⟩, ?_⟩
    · cases quotes with
      | double => exact h.not_mem (by decide)
      | _ => exact h.not_mem_flatten (by decide)
    · cases quotes with
      | double => exact h.unflatten_eq
      | _ => exact hflat

theorem ofGiven_default (h : ∀ name ∈ s.given.keys, name ∉ Reading.optionNames) :
    Reading.ofGiven s.given = .ok .default := by
  have hnone {name : String} (hname : name ∈ Reading.optionNames) : s.given.get? name = none :=
    Table.get?_of_not_mem fun hmem ↦ h name hmem hname
  have hfile : s.given.get? "_env_file" = none := hnone (by decide)
  have hprefix : s.given.get? "_env_prefix" = none := hnone (by decide)
  have hcase : s.given.get? "_case_sensitive" = none := hnone (by decide)
  have hempty : s.given.get? "_env_ignore_empty" = none := hnone (by decide)
  have hnull : s.given.get? "_env_parse_none_str" = none := hnone (by decide)
  simp only [Reading.ofGiven, Reading.flag, Reading.text?, hfile, hprefix, hcase, hempty, hnull]
  rfl

theorem map_both_ok {α β γ δ : Type} {f : α × β × γ → δ} {u : δ → δ} {b b' : β}
    (h : ∀ a c, f (a, b, c) = u (f (a, b', c))) (a : Checked α) (c : Checked γ) :
    Checked.map f (.both a (.both (.ok b) c)) =
      Checked.map u (Checked.map f (.both a (.both (.ok b') c))) := by
  cases a with
  | ok a =>
    cases c with
    | ok c => exact congrArg Except.ok (h a c)
    | error is => rfl
  | error is => cases c <;> rfl

/-- The private key has no part in the check of the other settings. -/
theorem checked_ok (r : Reading) (k d : String) : checked s r (.ok k) =
    (checked s r (.ok d)).map fun t ↦ { t with privateKey := k } :=
  map_both_ok (fun _ _ ↦ rfl) _ _

def withKey (k : String) : Checked Settings → Except Failure Settings
  | .ok t => .ok { t with privateKey := k }
  | .error issues => .error (.invalid "Settings" issues)

theorem load_of_find? {text : String} (hr : Reading.ofGiven s.given = .ok .default)
    (hf : s.find? .default "github_private_key" = some (.str text)) :
    load s = withKey (unflattenKey text) (checked s .default (.ok default.privateKey)) := by
  have hkey : checkedKey s .default = .ok (.ok (unflattenKey text)) := by
    simp only [checkedKey, hf]
    rfl
  simp only [load, hr, hkey, checked_ok .default (unflattenKey text) default.privateKey]
  cases checked s .default (.ok default.privateKey) <;> rfl

theorem identity_of_key {t : Settings} (hid : t.appId ≠ 0) (hkey : t.privateKey ≠ "") :
    t.identity = .ok ⟨t.appId, t.privateKey⟩ := by
  simp [identity, hid, hkey]

def keyVariable : String := "GITHUB_PRIVATE_KEY"

theorem isKeyName_variable : IsKeyName keyVariable := by
  unfold IsKeyName
  decide +kernel

theorem plainName_variable : PlainName keyVariable.toList := .of_all (by decide) (by decide)

def Carrier.sources (appId : Int) (text : List Char) : Carrier → Sources
  | given =>
    ⟨[("github_app_id", .int appId), ("github_private_key", .str (String.ofList text))], [], none⟩
  | environment =>
    ⟨[("github_app_id", .int appId)], [(keyVariable, String.ofList text)], none⟩
  | file quotes =>
    ⟨[("github_app_id", .int appId)], [],
      some (String.ofList (keyVariable.toList ++ '=' :: quotes.around text))⟩

theorem lower_names : ∀ name ∈ names, Text.lower name = name := by decide +kernel

section Sources

variable (carrier : Carrier) (appId : Int) {text v : List Char}

theorem given?_sources {name : String} (hne : name ≠ "github_private_key") :
    (carrier.sources appId text).given? .default name =
      if name = "github_app_id" then some (.int appId) else none := by
  have hid : Text.lower "github_app_id" = "github_app_id" := lower_names _ (by decide)
  have hkey : Text.lower "github_private_key" = "github_private_key" := lower_names _ (by decide)
  by_cases hname : name = "github_app_id"
  · subst hname
    cases carrier <;> simp [Carrier.sources, Sources.given?, fold_default, hid]
  · cases carrier <;>
      simp [Carrier.sources, Sources.given?, fold_default, hid, hkey, hname, Ne.symm hname,
        Ne.symm hne]

theorem environment_sources : (carrier.sources appId text).environmentVariables .default =
    if carrier = .environment then [("github_private_key", some (String.ofList text))] else [] := by
  have hkey : Text.lower keyVariable = "github_private_key" := isKeyName_variable
  cases carrier <;>
    simp [Carrier.sources, Sources.environmentVariables, table_default, Table.ofPairs, Table.put,
      hkey]

theorem file_sources (hv : carrier.Reads text v) :
    (carrier.sources appId text).fileVariables .default =
      match carrier with
      | .file _ => [("github_private_key", some (String.ofList v))]
      | _ => [] := by
  have hkey : Text.lower keyVariable = "github_private_key" := isKeyName_variable
  cases carrier with
  | given | environment => rfl
  | file quotes =>
    have hb : bindings (unifyLineEnds ([] ++ (keyVariable.toList ++ '=' ::
        (quotes.around text ++ [])))) = [] ++ (keyVariable.toList, some v) :: [] :=
      bindings_file EnvFile.whole_nil plainName_variable (fun _ hc ↦ nomatch hc) hv
    rw [List.nil_append, List.append_nil, List.nil_append] at hb
    have hread : EnvFile.read [] (String.ofList (keyVariable.toList ++ '=' :: quotes.around text)) =
        [(keyVariable, some (String.ofList v))] := by
      rw [EnvFile.read, String.toList_ofList, hb]
      simp only [EnvFile.resolve, List.foldl, Option.map_some, Table.put,
        EnvFile.expand_of_not_mem hv.2.1, String.ofList_toList]
    have hfile : (Carrier.sources appId text (.file quotes)).fileVariables .default =
        Reading.default.table (EnvFile.read []
          (String.ofList (keyVariable.toList ++ '=' :: quotes.around text))) := rfl
    rw [hfile, hread, table_default]
    simp only [List.map, Table.ofPairs, List.foldl, Table.put, hkey]

theorem find?_sources (hv : carrier.Reads text v) {name : String} (h : name ∈ names)
    (hne : name ≠ "github_private_key") : (carrier.sources appId text).find? .default name =
      if name = "github_app_id" then some (.int appId) else none := by
  have hname : Reading.default.variableName name = name := by
    rw [Reading.variableName, fold_default]
    exact (congrArg Text.lower (String.empty_append ..)).trans (lower_names name h)
  have henv : ((carrier.sources appId text).environmentVariables .default).get? name = none := by
    rw [environment_sources]
    split
    · simp [Table.get?_cons, hne]
    · rfl
  have hfile : ((carrier.sources appId text).fileVariables .default).get? name = none := by
    rw [file_sources carrier appId hv]
    split
    · simp [Table.get?_cons, hne]
    · rfl
  simp only [Sources.find?, given?_sources carrier appId hne, hname, henv, hfile]
  split <;> simp_all

theorem unknown_sources (hv : carrier.Reads text v) :
    (carrier.sources appId text).unknown .default = [] := by
  have hfile : (carrier.sources appId text).unknownInFile .default = [] := by
    rw [Sources.unknownInFile, file_sources carrier appId hv]
    split
    · have hknown : names.contains "github_private_key" = true := by decide
      simp only [List.filterMap, hknown, Bool.true_or, Bool.or_true, if_true]
    · rfl
  have hnames : ∀ key ∈ ["github_app_id", "github_private_key"],
      names.contains (Reading.default.fold key) = true := by decide +kernel
  rw [Sources.unknown, hfile, List.nil_append, Sources.unknownGiven, List.filter_eq_nil_iff]
  intro key hkey
  have hmem : key ∈ ["github_app_id", "github_private_key"] := by
    cases carrier with
    | given => exact hkey
    | environment | file => exact List.mem_append_left ["github_private_key"] hkey
  simp only [hnames key hmem, Bool.true_or, Bool.not_true, Bool.false_eq_true, not_false_iff]

theorem checked_sources (hv : carrier.Reads text v) :
    checked (carrier.sources appId text) .default (.ok default.privateKey) =
      .ok { default with appId := appId } := by
  have happ : setting (carrier.sources appId text) .default "github_app_id"
      Payload.Scalar.whole default.appId = .ok appId := by
    rw [setting, find?_sources carrier appId hv (by decide) (by decide)]
    rfl
  have hother {α : Type} {name : String} {check : Value → Except Payload.Problem α} {dflt : α}
      (h : name ∈ names) (hne : name ≠ "github_private_key") (hid : name ≠ "github_app_id") :
      setting (carrier.sources appId text) .default name check dflt = .ok dflt := by
    rw [setting, find?_sources carrier appId hv h hne, if_neg hid]
  have hunknown : rejectUnknown (carrier.sources appId text) .default = .ok () := by
    rw [rejectUnknown, unknown_sources carrier appId hv]
    rfl
  simp (disch := decide) only [checked, happ, hother, hunknown]
  rfl

theorem bring_sources : (carrier.sources appId text).Bring carrier text := by
  have hkey : IsKeyName "github_private_key" := lower_names _ (by decide)
  have hid : ¬ IsKeyName "github_app_id" := by
    rw [IsKeyName, lower_names _ (by decide)]
    decide
  have hgiven : ∀ m ∈ [("github_app_id", Value.int appId)], ¬ IsKeyName m.1 := by
    intro m hm
    rwa [List.mem_singleton.1 hm]
  cases carrier with
  | given => exact .given [_] [] rfl hkey hgiven
  | environment =>
    exact .environment [] [] hgiven rfl isKeyName_variable fun _ he ↦ nomatch he
  | file quotes =>
    refine .file [] [] hgiven (fun _ he ↦ nomatch he) rfl ?_ EnvFile.whole_nil
      plainName_variable (fun _ hc ↦ nomatch hc) ?_ fun _ hb ↦ nomatch hb
    · rw [String.toList_ofList, List.append_nil]
      rfl
    · rw [String.ofList_toList]
      exact isKeyName_variable

theorem load_sources (hv : carrier.Reads text v) : load (carrier.sources appId text) =
    .ok { default with appId := appId, privateKey := String.ofList (unflatten v) } := by
  have hoptions : ∀ name ∈ (carrier.sources appId text).given.keys,
      name ∉ Reading.optionNames := by
    have hnone : ∀ name ∈ ["github_app_id", "github_private_key"],
        name ∉ Reading.optionNames := by decide
    intro name hname
    refine hnone name ?_
    cases carrier with
    | given => exact hname
    | environment | file => exact List.mem_append_left ["github_private_key"] hname
  rw [load_of_find? (ofGiven_default hoptions)
    ((bring_sources carrier appId).find?_eq hv), checked_sources carrier appId hv, unflattenKey,
    String.toList_ofList]
  rfl

end Sources

/-- A private key survives every carrier: whichever of them has it, flattened or as it is, the
settings are the others with this key. Reading a flattened text is exact where it had no mark before,
and reading it again changes nothing. -/
theorem private_key_survives :
    (∀ text, unflattenKey (unflattenKey text) = unflattenKey text) ∧
    (∀ text, ¬ mark <:+: text.toList → unflattenKey (flattenKey text) = text) ∧
    ∀ (k : String) (carrier : Carrier) (text : List Char), IsKeyText k.toList →
      carrier.Holds k.toList text →
        (∀ s : Sources, s.Bring carrier text →
          (∀ name ∈ s.given.keys, name ∉ Reading.optionNames) →
            load s = withKey k (checked s .default (.ok default.privateKey)) ∧
            ∀ t, load s = .ok t → t.privateKey = k ∧
              (t.appId ≠ 0 → t.identity = .ok ⟨t.appId, k⟩)) ∧
        ∀ appId, load (carrier.sources appId text) =
          .ok { default with appId := appId, privateKey := k } := by
  refine ⟨unflattenKey_unflattenKey, fun _ ↦ unflattenKey_flattenKey, ?_⟩
  intro k carrier text hk ht
  obtain ⟨v, hv, hkey⟩ := hk.exists_reads ht
  have hne : k ≠ "" := by
    rintro rfl
    cases hk.begins
  refine ⟨?_, ?_⟩
  · intro s hs hoptions
    have hload : load s = withKey k (checked s .default (.ok default.privateKey)) := by
      rw [load_of_find? (ofGiven_default hoptions) (hs.find?_eq hv), unflattenKey,
        String.toList_ofList, hkey, String.ofList_toList]
    refine ⟨hload, ?_⟩
    intro t ht
    have htkey : t.privateKey = k := by
      rw [hload] at ht
      cases hc : checked s .default (.ok default.privateKey) with
      | ok t' =>
        rw [hc] at ht
        exact congrArg Settings.privateKey (Except.ok.inj ht).symm
      | error issues =>
        rw [hc] at ht
        cases ht
    exact ⟨htkey, fun hid ↦ htkey ▸ identity_of_key hid (htkey ▸ hne)⟩
  · intro appId
    rw [load_sources carrier appId hv, hkey, String.ofList_toList]

namespace Sample

def keyText : String := "-----BEGIN KEY-----\nQUJD\n-----END KEY-----\n"

def lineBefore : List Char := "GITHUB_APP_ID=7\n".toList

def lineAfter : List Char := "\r\nlog_url = 'https://ci' # shown\r\n".toList

/-- A file that has the key in double quotes, between the settings of an App and of a link. -/
def keyFile : Sources where
  given := [("debug", .bool false)]
  environment := [("NAMESPACE", "ci")]
  file := some (String.ofList (lineBefore ++ ("GitHub_Private_Key".toList ++ '=' ::
    (Quotes.double.around (flatten keyText.toList) ++ lineAfter))))

theorem isKeyText_keyText : IsKeyText keyText.toList where
  chars := List.all_eq_true.1 (by decide)
  begins := by decide
  ends := ⟨"-----BEGIN KEY-----\nQUJD\n-----END KEY----".toList, .inr (by decide)⟩

theorem whole_lineBefore : Whole (unifyLineEnds lineBefore) := by
  have hline : unifyLineEnds lineBefore =
      "GITHUB_APP_ID".toList ++ '=' :: (['7'] ++ ['\n']) := by decide
  have hname : PlainName "GITHUB_APP_ID".toList := .of_all (by decide) (by decide)
  have hbare : EnvFile.Bare ['7'] := by
    constructor
    · rintro c ⟨⟩
      decide
    · rintro c ⟨⟩
      decide
    · decide
    · exact List.forall_mem_singleton.2 (by decide)
  rw [hline]
  refine EnvFile.whole_line (v := ['7']) rfl hname fun rest ↦ EnvFile.value_bare hbare ?_ ?_
  · exact List.cons_ne_nil _ _
  · rintro c ⟨⟩
    rfl

theorem bring_keyFile : keyFile.Bring (.file .double) (flatten keyText.toList) := by
  have hgiven : ∀ m ∈ keyFile.given, ¬ IsKeyName m.1 := by
    unfold IsKeyName
    decide +kernel
  have henvironment : ∀ e ∈ keyFile.environment, ¬ IsKeyName e.1 := by
    unfold IsKeyName
    decide +kernel
  have hname : IsKeyName (String.ofList "GitHub_Private_Key".toList) := by
    unfold IsKeyName
    decide +kernel
  have hplain : PlainName "GitHub_Private_Key".toList := .of_all (by decide) (by decide)
  refine .file lineBefore lineAfter hgiven henvironment rfl (String.toList_ofList ..)
    whole_lineBefore hplain ?_ hname ?_
  · rintro c ⟨⟩
    rfl
  · unfold IsKeyName
    decide +kernel

end Sample

theorem private_key_survives_double_quotes :
    IsKeyText Sample.keyText.toList ∧
      (Carrier.file .double).Holds Sample.keyText.toList (flatten Sample.keyText.toList) ∧
      Sample.keyFile.Bring (.file .double) (flatten Sample.keyText.toList) ∧
      ∃ t, load Sample.keyFile = .ok t ∧ t.identity = .ok ⟨7, Sample.keyText⟩ := by
  have hoptions : ∀ name ∈ Sample.keyFile.given.keys, name ∉ Reading.optionNames := by decide
  have hid : (load Sample.keyFile).toOption.map (·.appId) = some 7 := by decide +kernel
  refine ⟨Sample.isKeyText_keyText, rfl, Sample.bring_keyFile, ?_⟩
  obtain ⟨-, hsettings⟩ := (private_key_survives.2.2 Sample.keyText (.file .double) _
    Sample.isKeyText_keyText rfl).1 Sample.keyFile Sample.bring_keyFile hoptions
  cases hload : load Sample.keyFile with
  | error e =>
    rw [hload] at hid
    cases hid
  | ok t =>
    rw [hload] at hid
    have happ : t.appId = 7 := Option.some.inj hid
    have hidentity := (hsettings t hload).2 (by rw [happ]; decide)
    exact ⟨t, rfl, happ ▸ hidentity⟩

end StatusRelay.Settings
