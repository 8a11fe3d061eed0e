import ApiShell.Proofs.Checked
import ApiShell.Proofs.Config.Loading
import ApiShell.Proofs.Config.TimeToLive
import ApiShell.Proofs.Equality
import ApiShell.Proofs.Host.AllOrNothing
import ApiShell.Proofs.Text.Utf8
import ApiShell.Proofs.Yaml.Writer

/-!
# Configurations that are saved

A configuration is saved in plain form and checked anew when it is loaded, so it comes back only if it
passes both.  `IsStable` says which ones do: the time to live of each API can be read, and what is kept
beside the known settings are values that JSON has, under other names.  Nothing else that a file can
give is lost (`load_save_iff`).
-/

namespace ApiShell

/-! ### The settings of an API -/

namespace ApiConfig

variable {a : ApiConfig} {location : List String} {fields : List (Scalar × Value)} {v w : Value}

/-- The settings are those that the fields of a mapping give. -/
structure IsGivenBy (a : ApiConfig) (fields : List (Scalar × Value)) (location : List String) :
    Prop where
  apispec : ∃ v, Value.field? fields "apispec" = some v ∧
    Checked.text (location ++ ["apispec"]) v = .ok a.apispec
  url : textSetting fields location "url" "" = .ok a.url
  auth : textSetting fields location "auth" "" = .ok a.auth
  cacheTtl : ttlSetting fields location = .ok a.cacheTtl
  output : textSetting fields location "output" "json" = .ok a.output
  headers : headersSetting fields location = .ok a.headers
  apiKeyHeader : textSetting fields location "api_key_header" defaultKeyHeader = .ok a.apiKeyHeader
  extra : extraSettings fields location = .ok a.extra

theorem check_eq_ok_iff :
    check location (.mapping fields) = .ok a ↔ a.IsGivenBy fields location := by
  constructor
  · intro h
    obtain ⟨_, _, h₇, hextra, rfl⟩ := Checked.next_eq_ok_iff.1 h
    obtain ⟨_, _, h₆, hkey, rfl⟩ := Checked.next_eq_ok_iff.1 h₇
    obtain ⟨_, _, h₅, hheaders, rfl⟩ := Checked.next_eq_ok_iff.1 h₆
    obtain ⟨_, _, h₄, houtput, rfl⟩ := Checked.next_eq_ok_iff.1 h₅
    obtain ⟨_, _, h₃, httl, rfl⟩ := Checked.next_eq_ok_iff.1 h₄
    obtain ⟨_, _, h₂, hauth, rfl⟩ := Checked.next_eq_ok_iff.1 h₃
    obtain ⟨_, _, h₁, hurl, rfl⟩ := Checked.next_eq_ok_iff.1 h₂
    obtain ⟨_, hspec, rfl⟩ := map_eq_ok_iff.1 h₁
    refine ⟨?_, hurl, hauth, httl, houtput, hheaders, hkey, hextra⟩
    cases hfield : Value.field? fields "apispec" with
    | none =>
      rw [hfield] at hspec
      cases hspec
    | some v =>
      rw [hfield] at hspec
      exact ⟨v, rfl, hspec⟩
  · rintro ⟨⟨v, hfield, hspec⟩, hurl, hauth, httl, houtput, hheaders, hkey, hextra⟩
    rw [check]
    simp only [hfield, hspec, hurl, hauth, httl, houtput, hheaders, hkey, hextra]
    rfl

/-- No two headers and no two extra settings have one name. -/
structure HasDistinctNames (a : ApiConfig) : Prop where
  headers : (a.headers.map Prod.fst).Nodup
  extra : (a.extra.map Prod.fst).Nodup

/-- What passes the check has distinct names. -/
theorem hasDistinctNames_of_check (h : check location v = .ok a) : a.HasDistinctNames := by
  cases v with
  | mapping fields =>
    have hgiven := check_eq_ok_iff.1 h
    constructor
    · have hheaders := hgiven.headers
      unfold headersSetting at hheaders
      split at hheaders
      · exact Checked.nodup_of_mapping hheaders
      · rw [← Except.ok.inj hheaders]
        exact List.nodup_nil
    · obtain ⟨made, -, hmade⟩ := map_eq_ok_iff.1 hgiven.extra
      rw [← hmade]
      exact Entries.nodup_ofList made
  | _ => cases h

/-- Saving keeps the settings: the time to live can be read, and the others are values that JSON has,
under other names than the known ones. -/
structure IsStable (a : ApiConfig) : Prop where
  ttl : ∃ d, a.ttl = .ok d
  extra : ∀ e ∈ a.extra, e.1 ∉ knownNames ∧ e.2.IsJson

/-! ### What is saved of them -/

/-- The fields of the known settings. -/
def knownFields (a : ApiConfig) : List (String × Value) :=
  [("apispec", .text a.apispec), ("url", .text a.url), ("auth", .text a.auth),
    ("cache_ttl", .text a.cacheTtl), ("output", .text a.output),
    ("headers", .ofFields (a.headers.map fun h => (h.1, .text h.2))),
    ("api_key_header", .text a.apiKeyHeader)]

theorem toValue_eq (a : ApiConfig) : a.toValue = .ofFields (a.knownFields ++ a.extra) := rfl

theorem map_fst_knownFields (a : ApiConfig) : a.knownFields.map Prod.fst = knownNames := rfl

/-- Settings of other names are saved beside the known ones. -/
theorem HasDistinctNames.nodup (h : a.HasDistinctNames) (hextra : ∀ e ∈ a.extra, e.1 ∉ knownNames) :
    ((a.knownFields ++ a.extra).map Prod.fst).Nodup := by
  rw [List.map_append, map_fst_knownFields]
  refine List.Nodup.append (by decide) h.extra ?_
  intro name hknown hname
  obtain ⟨e, he, rfl⟩ := List.mem_map.1 hname
  exact hextra e he hknown

theorem HasDistinctNames.isJson_headers (h : a.HasDistinctNames) :
    Value.IsJson (.ofFields (a.headers.map fun h => (h.1, .text h.2))) := by
  rw [Value.isJson_ofFields, List.map_map]
  refine ⟨h.headers, fun e he => ?_⟩
  obtain ⟨header, -, rfl⟩ := List.mem_map.1 he
  trivial

theorem HasDistinctNames.isJson_toValue (h : a.HasDistinctNames)
    (hextra : ∀ e ∈ a.extra, e.1 ∉ knownNames ∧ e.2.IsJson) : a.toValue.IsJson := by
  rw [toValue_eq, Value.isJson_ofFields]
  refine ⟨h.nodup fun e he => (hextra e he).1, fun e he => ?_⟩
  rcases List.mem_append.1 he with hknown | hother
  · simp only [knownFields, List.mem_cons, List.not_mem_nil, or_false] at hknown
    rcases hknown with rfl | rfl | rfl | rfl | rfl | rfl | rfl
    case inr.inr.inr.inr.inr.inl => exact h.isJson_headers
    all_goals trivial
  · exact (hextra e hother).2

/-- Of fields under texts, those of other names than the known ones are kept. -/
theorem extraSettings_textFields (entries : List (String × Value)) (location : List String) :
    extraSettings (Value.textFields entries) location =
      .ok (Entries.ofList (entries.filter fun e => e.1 ∉ knownNames)) := by
  have hknown : ∀ e ∈ entries, (!isKnown (Value.textFields entries) (.text e.1)) =
      decide (e.1 ∉ knownNames) := by
    intro e he
    have hsome : (Value.field? (Value.textFields entries) e.1).isSome = true := by
      rw [Value.field?_textFields, Entries.get?, Option.isSome_map, List.find?_isSome]
      exact ⟨e, he, beq_self_eq_true e.1⟩
    simp [isKnown, Checked.text, hsome]
  have hfilter : (Value.textFields entries).filter
        (fun f => !isKnown (Value.textFields entries) f.1) =
      Value.textFields (entries.filter fun e => e.1 ∉ knownNames) := by
    show List.filter _ (List.map _ entries) = _
    rw [List.filter_map]
    exact congrArg _ (List.filter_congr hknown)
  rw [extraSettings, hfilter, map_eq_ok_iff]
  refine ⟨_, Checked.each_eq_ok_iff.2 ?_, rfl⟩
  rw [Value.textFields, List.forall₂_map_left_iff, List.forall₂_same]
  exact fun e _ => rfl

/-- The fields that are saved for settings of other names are the only ones of such names. -/
theorem filter_saved (h : ∀ e ∈ a.extra, e.1 ∉ knownNames) :
    (a.knownFields ++ a.extra).filter (fun e => e.1 ∉ knownNames) = a.extra := by
  have hknown : a.knownFields.filter (fun e => e.1 ∉ knownNames) = [] := by
    rw [List.filter_eq_nil_iff]
    intro e he
    have hname : e.1 ∈ knownNames := map_fst_knownFields a ▸ List.mem_map_of_mem he
    simpa using hname
  have hextra : a.extra.filter (fun e => e.1 ∉ knownNames) = a.extra :=
    List.filter_eq_self.2 fun e he => decide_eq_true (h e he)
  rw [List.filter_append, hknown, hextra, List.nil_append]

/-- A text is kept as time to live if it can be read as one. -/
theorem ttlSetting_of_text {text : String}
    (hfield : Value.field? fields "cache_ttl" = some (.text text)) :
    ttlSetting fields location = .ok text ↔ ∃ d, Time.durationOfText text = .ok d := by
  have hread : Time.durationOf (.text text) = Time.durationOfText text := rfl
  unfold ttlSetting
  rw [hfield]
  dsimp only
  rw [hread]
  cases Time.durationOfText text with
  | ok d => exact iff_of_true rfl ⟨d, rfl⟩
  | error e =>
    refine iff_of_false (fun h => ?_) fun ⟨d, h⟩ => ?_
    · cases h
    · cases h

theorem exists_ttl_iff : (∃ d, a.ttl = .ok d) ↔ ∃ d, Time.durationOfText a.cacheTtl = .ok d :=
  exists_congr fun _ => mapError_eq_ok_iff

/-- Stable settings come back from what is saved of them. -/
theorem IsStable.check_toValue (h : a.IsStable) (hnames : a.HasDistinctNames)
    (location : List String) : check location a.toValue = .ok a := by
  have hfield {name : String} {v : Value}
      (hget : Entries.get? (a.knownFields ++ a.extra) name = some v) :
      Value.field? (Value.textFields (a.knownFields ++ a.extra)) name = some v := by
    rw [Value.field?_textFields, hget]
  have htext {name default text : String}
      (hget : Entries.get? (a.knownFields ++ a.extra) name = some (.text text)) :
      textSetting (Value.textFields (a.knownFields ++ a.extra)) location name default = .ok text := by
    rw [textSetting, hfield hget]
    rfl
  rw [toValue_eq, Value.ofFields_eq, check_eq_ok_iff]
  refine ⟨⟨.text a.apispec, hfield rfl, rfl⟩, htext rfl, htext rfl, ?_, htext rfl, ?_, htext rfl, ?_⟩
  · exact (ttlSetting_of_text (hfield rfl)).2 (exists_ttl_iff.1 h.ttl)
  · rw [headersSetting, hfield rfl]
    have hkeys : ((a.headers.map fun h => (h.1, Value.text h.2)).map Prod.fst).Nodup := by
      rw [List.map_map]
      exact hnames.headers
    refine (Checked.mapping_ofFields_eq_ok_iff hkeys).2 ?_
    rw [List.forall₂_map_left_iff, List.forall₂_same]
    exact fun _ _ => ⟨rfl, rfl⟩
  · rw [extraSettings_textFields, filter_saved fun e he => (h.extra e he).1,
      Entries.ofList_of_nodup hnames.extra]

/-- They run into no defect. -/
theorem IsStable.defect?_toValue (h : a.IsStable) : defect? a.toValue = none := by
  obtain ⟨d, hd⟩ := exists_ttl_iff.1 h.ttl
  rw [Option.eq_none_iff_forall_ne_some]
  intro defect hdefect
  obtain ⟨hfield, hfails, -⟩ := defect?_eq_some_iff.1 hdefect
  obtain rfl := Option.some.inj hfield
  cases hd.symm.trans hfails

/-- Settings that are read from a value that JSON has are such values under other names. -/
theorem extra_of_check (hw : w.IsJson) (h : check location w = .ok a) :
    ∀ e ∈ a.extra, e.1 ∉ knownNames ∧ e.2.IsJson := by
  cases w with
  | mapping fields =>
    obtain ⟨entries, rfl⟩ := hw.2.exists_textFields
    have hextra := (check_eq_ok_iff.1 h).extra
    rw [extraSettings_textFields] at hextra
    intro e he
    rw [← Except.ok.inj hextra] at he
    obtain ⟨hmem, hname⟩ := List.mem_filter.1 (Entries.mem_of_mem_ofList he)
    exact ⟨of_decide_eq_true hname, (Value.isJson_ofFields.1 hw).2 e hmem⟩
  | _ => cases h

/-- Settings that come back from what is saved of them are stable. -/
theorem isStable_of_check (hnames : a.HasDistinctNames) (hplain : a.toValue.plain = .ok w)
    (h : check location w = .ok a) : a.IsStable := by
  have hextra := extra_of_check (Value.isJson_of_plain hplain) h
  refine ⟨exists_ttl_iff.2 ?_, hextra⟩
  -- Since no other setting has its name, the time to live is saved as the text that it is.
  have hkeys := hnames.nodup fun e he => (hextra e he).1
  have hkeeps : w.getD "cache_ttl" = .text a.cacheTtl :=
    (Value.keepsKeys_ofFields hkeys).getD_eq hplain trivial
  obtain ⟨entries, rfl, -⟩ := Value.plain_ofFields hkeys hplain
  have hgiven := check_eq_ok_iff.1 h
  have hfield : Value.field? (Value.textFields entries) "cache_ttl" = some (.text a.cacheTtl) := by
    rw [Value.getD_ofFields] at hkeeps
    rw [Value.field?_textFields]
    cases hget : Entries.get? entries "cache_ttl" with
    | none =>
      rw [hget] at hkeeps
      cases hkeeps
    | some v =>
      rw [hget] at hkeeps
      exact congrArg some hkeeps
  exact (ttlSetting_of_text hfield).1 hgiven.cacheTtl

end ApiConfig

/-! ### Configurations -/

namespace Config

variable {c : Config} {v w : Value} {host : Host} {path : Host.Path}

/-- No two APIs have one name, and the settings of each have distinct names. -/
structure HasDistinctNames (c : Config) : Prop where
  apis : (c.apis.map Prod.fst).Nodup
  settings : ∀ api ∈ c.apis, api.2.HasDistinctNames

/-- What passes the check has distinct names. -/
theorem hasDistinctNames_of_check (h : check v = .ok c) : c.HasDistinctNames := by
  unfold check at h
  split at h
  · split at h
    · obtain ⟨apis, hapis, rfl⟩ := map_eq_ok_iff.1 h
      refine ⟨Checked.nodup_of_mapping hapis, fun api hapi => ?_⟩
      obtain ⟨_, _, hcheck⟩ := Checked.exists_of_mem_mapping hapis hapi
      exact ApiConfig.hasDistinctNames_of_check hcheck
    · obtain rfl := Except.ok.inj h
      exact ⟨List.nodup_nil, fun _ hapi => absurd hapi List.not_mem_nil⟩
  · cases h

theorem hasDistinctNames_empty : empty.HasDistinctNames :=
  ⟨List.nodup_nil, fun _ hapi => absurd hapi List.not_mem_nil⟩

theorem hasDistinctNames_of_load (h : load host path = .ok c) : c.HasDistinctNames := by
  rcases host.isFile_cases path with ⟨-, content, holds⟩ | hnone | ⟨hlong, -⟩
  · rw [load_of_holds holds] at h
    split at h
    · cases h
    · rcases parse_eq_ok_iff.1 h with ⟨-, rfl⟩ | ⟨fields, -, -, hcheck⟩
      · exact hasDistinctNames_empty
      · exact hasDistinctNames_of_check hcheck
  · rw [load_of_isFile_eq_false hnone] at h
    obtain rfl := Except.ok.inj h
    exact hasDistinctNames_empty
  · rw [load_of_isFile_eq_error hlong] at h
    cases h

/-- Saving keeps the settings of every API. -/
def IsStable (c : Config) : Prop := ∀ api ∈ c.apis, api.2.IsStable

/-- The fields of the APIs. -/
def apiFields (c : Config) : List (String × Value) := c.apis.map fun api => (api.1, api.2.toValue)

theorem toValue_eq (c : Config) : c.toValue = .ofFields [("apis", .ofFields c.apiFields)] := rfl

theorem map_fst_apiFields (c : Config) : c.apiFields.map Prod.fst = c.apis.map Prod.fst := by
  rw [apiFields, List.map_map]
  rfl

/-- What is saved of settings that JSON has is a value that JSON has. -/
theorem HasDistinctNames.isJson_toValue (h : c.HasDistinctNames)
    (hextra : ∀ api ∈ c.apis, ∀ e ∈ api.2.extra, e.1 ∉ ApiConfig.knownNames ∧ e.2.IsJson) :
    c.toValue.IsJson := by
  have hapis : Value.IsJson (.ofFields c.apiFields) := by
    refine Value.isJson_ofFields.2 ⟨map_fst_apiFields c ▸ h.apis, fun e he => ?_⟩
    obtain ⟨api, hapi, rfl⟩ := List.mem_map.1 he
    exact (h.settings api hapi).isJson_toValue (hextra api hapi)
  rw [toValue_eq, Value.isJson_ofFields]
  exact ⟨List.nodup_singleton _, fun e he => List.mem_singleton.1 he ▸ hapis⟩

/-- A stable configuration comes back from what is saved of it. -/
theorem IsStable.parse_eq (h : c.IsStable) (hnames : c.HasDistinctNames) {place : String}
    {text : List Char} (hread : Yaml.read text = .ok c.toValue) : parse place text = .ok c := by
  refine parse_eq_ok_iff.2 (.inr ⟨_, hread, ?_, ?_⟩)
  · show (Value.textFields c.apiFields).findSome? (fun api => ApiConfig.defect? api.2) = none
    rw [List.findSome?_eq_none_iff]
    intro f hf
    obtain ⟨e, he, rfl⟩ := List.mem_map.1 hf
    obtain ⟨api, hapi, rfl⟩ := List.mem_map.1 he
    exact (h api hapi).defect?_toValue
  · show (Checked.mapping ApiConfig.check ["apis"] (.ofFields c.apiFields)).map Config.mk = .ok c
    refine map_eq_ok_iff.2 ⟨c.apis, ?_, rfl⟩
    refine (Checked.mapping_ofFields_eq_ok_iff (map_fst_apiFields c ▸ hnames.apis)).2 ?_
    rw [apiFields, List.forall₂_map_left_iff, List.forall₂_same]
    exact fun api hapi => ⟨rfl, (h api hapi).check_toValue (hnames.settings api hapi) _⟩

/-- A configuration that comes back from what is saved of it is stable. -/
theorem isStable_of_parse (hnames : c.HasDistinctNames) (hplain : c.toValue.plain = .ok w)
    {place : String} {text : List Char} (hread : Yaml.read text = .ok w)
    (hparse : parse place text = .ok c) : c.IsStable := by
  have hone : ([("apis", Value.ofFields c.apiFields)].map Prod.fst).Nodup := List.nodup_singleton _
  obtain ⟨entries, rfl, hall⟩ := Value.plain_ofFields hone hplain
  obtain ⟨⟨name, apis⟩, _, ⟨rfl, happis⟩, hrest, rfl⟩ := List.forall₂_cons_left_iff.1 hall
  obtain rfl := List.forall₂_nil_left_iff.1 hrest
  obtain ⟨saved, rfl, hsaved⟩ := Value.plain_ofFields (map_fst_apiFields c ▸ hnames.apis) happis
  rcases parse_eq_ok_iff.1 hparse with ⟨hnull, -⟩ | ⟨fields, hfields, -, hcheck⟩
  · rw [hread] at hnull
    cases hnull
  · rw [hread] at hfields
    cases hfields
    obtain ⟨apis, hchecked, rfl⟩ := map_eq_ok_iff.1 hcheck
    have hkeys : (saved.map Prod.fst).Nodup := by
      rw [Value.map_fst_eq_of_forall₂ hsaved, map_fst_apiFields]
      exact hnames.apis
    have hback := (Checked.mapping_ofFields_eq_ok_iff hkeys).1 hchecked
    rw [apiFields, List.forall₂_map_left_iff] at hsaved
    intro api hapi
    obtain ⟨e, ⟨-, hapiPlain⟩, -, hapiCheck⟩ := exists_of_forall₂_of_forall₂ hsaved hback hapi
    exact ApiConfig.isStable_of_check (hnames.settings api hapi) hapiPlain hapiCheck

/-- A configuration has a text that is read as the configuration exactly if it is stable. -/
theorem exists_parse_text_iff (hnames : c.HasDistinctNames)
    (hundoes : ∀ v, c.toValue.plain = .ok v → Yaml.read (Yaml.write false v).toList = .ok v)
    (place : String) : (∃ s, c.text = .ok s ∧ parse place (Text.plainBreaks s.toList) = .ok c) ↔
      c.IsStable := by
  constructor
  · rintro ⟨s, htext, hparse⟩
    obtain ⟨v, hplain, rfl⟩ := map_eq_ok_iff.1 htext
    rw [Yaml.plainBreaks_write (Value.isJson_of_plain hplain)] at hparse
    exact isStable_of_parse hnames hplain (hundoes v hplain) hparse
  · intro h
    have hjson := hnames.isJson_toValue fun api hapi => (h api hapi).extra
    refine ⟨_, map_eq_ok_iff.2 ⟨_, hjson.plain_eq, rfl⟩, ?_⟩
    rw [Yaml.plainBreaks_write hjson]
    exact h.parse_eq hnames (hundoes _ hjson.plain_eq)

variable {hazards : Host.Hazards} {token : String}

/-- Where every step of a replacement succeeds, the text of the configuration is put at the path, and
it is what is loaded from there. -/
theorem load_save (hpath : path.IsProper) (htoken : '/' ∉ token.toList)
    (hunused : Host.IsUnused hazards token path host)
    (hreplaces : Host.Replaces hazards token path host) {s : String} (htext : c.text = .ok s) :
    ∃ host', (c.save hazards token path).on host = (.ok (), host') ∧
      load host' path = parse path.text (Text.plainBreaks s.toList) := by
  have hsave : (c.save hazards token path).on host =
      (Host.replace hazards token path (Text.utf8 s.toList)).on host := by
    rw [save, htext]
  have hend := Host.ending_on_replace hpath htoken hunused (Text.utf8 s.toList)
  rw [← hsave] at hend
  have hreturns := hend.returns_iff.2 hreplaces
  refine ⟨((c.save hazards token path).on host).2, Prod.ext hreturns rfl, ?_⟩
  rw [load_of_holds ⟨hreplaces.1.named, hend.find_of_returns hreturns⟩, Text.ofUtf8?_utf8]

/-- A configuration that is loaded after it was saved is stable. -/
theorem isStable_of_load_save (hnames : c.HasDistinctNames)
    (hundoes : ∀ v, c.toValue.plain = .ok v → Yaml.read (Yaml.write false v).toList = .ok v)
    (hpath : path.IsProper) (htoken : '/' ∉ token.toList)
    (hunused : Host.IsUnused hazards token path host)
    (hreplaces : Host.Replaces hazards token path host) {host' : Host}
    (hsave : (c.save hazards token path).on host = (.ok (), host'))
    (hload : load host' path = .ok c) : c.IsStable := by
  cases htext : c.text with
  | error defect =>
    rw [save, htext] at hsave
    cases hsave
  | ok s =>
    obtain ⟨host'', hsave', hload'⟩ := load_save hpath htoken hunused hreplaces htext
    rw [hsave] at hsave'
    cases hsave'
    exact (exists_parse_text_iff hnames hundoes path.text).1 ⟨s, htext, hload'.symm.trans hload⟩

/-- The configuration of a single API. -/
def single (ttl : String) (extra : List (String × Value)) : Config :=
  ⟨[("shop", { ApiConfig.keepingTtl ttl with extra })]⟩

/-- What its file holds. -/
def singleFields (settings : List (Scalar × Value)) : List (Scalar × Value) :=
  [(.text "apis", .mapping [(.text "shop", .mapping settings)])]

/-- Where its file stands. -/
def singlePath : Host.Path := .ofText "c"

/-- A host that has a text in this file. -/
def hostHolding (text : String) : Host :=
  ⟨[], [], ⟨[([], .directory), (["c"], .file (Text.utf8 text.toList))]⟩, "Linux"⟩

/-- Settings with one that is not known. -/
def withRetries : String := "apis:\n shop:\n  apispec: shop.yaml\n  retries: 3\n"

/-- Settings with a truth value as time to live, which counts as one second. -/
def withTruth : String := "apis:\n shop:\n  apispec: shop.yaml\n  cache_ttl: true\n"

theorem load_hostHolding {text : String} {fields : List (Scalar × Value)}
    (hread : Yaml.read (Text.plainBreaks text.toList) = .ok (.mapping fields))
    (hdefect : defect? (withApis fields) = none) (hcheck : check (withApis fields) = .ok c) :
    load (hostHolding text) singlePath = .ok c := by
  have holds : (hostHolding text).Holds singlePath (Text.utf8 text.toList) := ⟨by decide, rfl⟩
  rw [load_of_holds holds, Text.ofUtf8?_utf8]
  exact parse_eq_ok_iff.2 (.inr ⟨fields, hread, hdefect, hcheck⟩)

theorem load_withRetries : load (hostHolding withRetries) singlePath =
    .ok (single "24h" [("retries", .int 3)]) := by
  have hread : Yaml.read (Text.plainBreaks withRetries.toList) = .ok (.mapping (singleFields
      [(.text "apispec", .text "shop.yaml"), (.text "retries", .int 3)])) :=
    eq_ok_of_toOption (by decide +kernel)
  exact load_hostHolding hread rfl rfl

theorem load_withTruth : load (hostHolding withTruth) singlePath = .ok (single "True" []) := by
  have hread : Yaml.read (Text.plainBreaks withTruth.toList) =
      .ok (.mapping (singleFields (ApiConfig.withTtl (.bool true)))) :=
    eq_ok_of_toOption (by decide +kernel)
  exact load_hostHolding hread rfl rfl

theorem isUnused_hostHolding (text : String) :
    Host.IsUnused {} "t" singlePath (hostHolding text) := by
  have hmissing : (Host.made {} singlePath (hostHolding text)).find (Host.beside singlePath "t") =
      .error .missing := rfl
  intro node
  rw [hmissing]
  exact nofun

theorem replaces_hostHolding (text : String) :
    Host.Replaces {} "t" singlePath (hostHolding text) := by
  refine ⟨⟨by decide, rfl, rfl, rfl, by decide⟩, by simp [Host.FillFails], ?_⟩
  rintro (hrename | hdots | hdirectory)
  · exact hrename rfl
  · exact absurd hdots (by decide)
  · cases hdirectory

/-- What is written for a value that JSON has is read back if the value is. -/
theorem undoes_of_isJson (hjson : c.toValue.IsJson)
    (hread : Yaml.read (Yaml.write false c.toValue).toList = .ok c.toValue) (v : Value)
    (hplain : c.toValue.plain = .ok v) : Yaml.read (Yaml.write false v).toList = .ok v := by
  obtain rfl := Except.ok.inj (hjson.plain_eq.symm.trans hplain)
  exact hread

theorem extra_withRetries : ∀ api ∈ (single "24h" [("retries", .int 3)]).apis, ∀ e ∈ api.2.extra,
    e.1 ∉ ApiConfig.knownNames ∧ e.2.IsJson := by
  intro api hapi e he
  rw [List.mem_singleton.1 hapi] at he
  rw [List.mem_singleton.1 he]
  exact ⟨by decide, trivial⟩

theorem isStable_withRetries : (single "24h" [("retries", .int 3)]).IsStable := by
  have hday : Time.durationOfText "24h" = .ok ⟨86400000000⟩ := eq_ok_of_toOption (by decide +kernel)
  intro api hapi
  refine ⟨ApiConfig.exists_ttl_iff.2 ?_, extra_withRetries api hapi⟩
  rw [List.mem_singleton.1 hapi]
  exact ⟨_, hday⟩

/-- What is written for these settings is read back. -/
theorem undoes_withRetries (v : Value)
    (hplain : (single "24h" [("retries", .int 3)]).toValue.plain = .ok v) :
    Yaml.read (Yaml.write false v).toList = .ok v :=
  undoes_of_isJson ((hasDistinctNames_of_load load_withRetries).isJson_toValue extra_withRetries)
    (eq_ok_of_toOption (by decide +kernel)) v hplain

end Config

end ApiShell
