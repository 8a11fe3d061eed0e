import ApiShell.Json.Plain
import ApiShell.Proofs.Entries
import ApiShell.Proofs.Run

/-!
# Values that JSON has

A value that JSON has is its own plain form: it holds nothing but null, truth values, finite
numbers, texts, lists, and mappings from texts in which no key stands twice.
-/

namespace ApiShell

/-- A scalar that JSON has. -/
def Scalar.IsJson : Scalar → Prop
  | .null | .bool _ | .int _ | .text _ => True
  | .float x => (Decimal.dyadic? x).isSome = true
  | .date _ | .moment _ | .bytes _ => False

/-- A scalar that JSON has is its own plain form. -/
theorem Scalar.IsJson.plain_eq {s : Scalar} (h : s.IsJson) : s.plain = .ok s := by
  cases s with
  | float x => exact congrArg Except.ok (if_pos h)
  | date d => exact h.elim
  | moment m => exact h.elim
  | bytes bs => exact h.elim
  | _ => rfl

/-- The plain form of a scalar is one that JSON has. -/
theorem Scalar.isJson_of_plain {s t : Scalar} (h : s.plain = .ok t) : t.IsJson := by
  cases s with
  | float x =>
    obtain rfl := Except.ok.inj h
    split
    · assumption
    · trivial
  | bytes bs =>
    obtain ⟨text, -, rfl⟩ := map_eq_ok_iff.1 h
    trivial
  | _ =>
    obtain rfl := Except.ok.inj h
    trivial

/-! ### Values without plain form -/

theorem plainBytes_eq_error {bs : List UInt8} {defect : Defect} (h : plainBytes bs = .error defect) :
    defect = .notPlain := by
  unfold plainBytes at h
  split at h
  · cases h
  · exact (Except.error.inj h).symm

theorem Scalar.plain_eq_error {s : Scalar} {defect : Defect} (h : s.plain = .error defect) :
    defect = .notPlain := by
  cases s with
  | bytes bs =>
    cases hbytes : plainBytes bs with
    | error d =>
      rw [Scalar.plain, hbytes] at h
      exact (Except.error.inj h).symm.trans (plainBytes_eq_error hbytes)
    | ok text =>
      rw [Scalar.plain, hbytes] at h
      cases h
  | _ => cases h

theorem Scalar.plainKey_eq_error {s : Scalar} {defect : Defect} (h : s.plainKey = .error defect) :
    defect = .notPlain := by
  cases s with
  | bytes bs => exact plainBytes_eq_error h
  | _ => cases h

theorem mapM_plain_eq_error {ms : List Scalar} {defect : Defect}
    (h : ms.mapM Scalar.plain = .error defect) : defect = .notPlain := by
  induction ms with
  | nil => cases h
  | cons m ms ih =>
    rw [List.mapM_cons] at h
    rcases bind_eq_error_iff.1 h with hm | ⟨_, -, h⟩
    · exact Scalar.plain_eq_error hm
    rcases bind_eq_error_iff.1 h with hms | ⟨_, -, h⟩
    · exact ih hms
    · cases h

namespace Value

mutual

/-- Only bytes that are no text keep a value from having a plain form. -/
theorem plain_eq_error : ∀ {v : Value} {defect : Defect}, v.plain = .error defect →
    defect = .notPlain
  | .scalar s, _, h => by
    rw [plain] at h
    exact Scalar.plain_eq_error (map_eq_error_iff.1 h)
  | .set ms, _, h => by
    rw [plain] at h
    exact mapM_plain_eq_error (map_eq_error_iff.1 h)
  | .pair a b, _, h => by
    rw [plain] at h
    rcases bind_eq_error_iff.1 h with ha | ⟨_, -, h⟩
    · exact plain_eq_error ha
    rcases bind_eq_error_iff.1 h with hb | ⟨_, -, h⟩
    · exact plain_eq_error hb
    · cases h
  | .list items, _, h => by
    rw [plain] at h
    exact plainItems_eq_error (map_eq_error_iff.1 h)
  | .mapping fields, _, h => by
    rw [plain] at h
    exact plainFields_eq_error (map_eq_error_iff.1 h)

theorem plainItems_eq_error : ∀ {items : List Value} {defect : Defect},
    plainItems items = .error defect → defect = .notPlain
  | [], _, h => by cases h
  | v :: vs, _, h => by
    rw [plainItems] at h
    rcases bind_eq_error_iff.1 h with hv | ⟨_, -, h⟩
    · exact plain_eq_error hv
    rcases bind_eq_error_iff.1 h with hvs | ⟨_, -, h⟩
    · exact plainItems_eq_error hvs
    · cases h

theorem plainFields_eq_error : ∀ {fields : List (Scalar × Value)} {defect : Defect},
    plainFields fields = .error defect → defect = .notPlain
  | [], _, h => by cases h
  | (k, v) :: fs, _, h => by
    rw [plainFields] at h
    rcases bind_eq_error_iff.1 h with hk | ⟨_, -, h⟩
    · exact Scalar.plainKey_eq_error hk
    rcases bind_eq_error_iff.1 h with hv | ⟨_, -, h⟩
    · exact plain_eq_error hv
    rcases bind_eq_error_iff.1 h with hfs | ⟨_, -, h⟩
    · exact plainFields_eq_error hfs
    · cases h

end

/-! ### Fields under texts -/

/-- Fields whose keys are texts. -/
def textFields (fields : List (String × Value)) : List (Scalar × Value) :=
  fields.map fun f => (.text f.1, f.2)

theorem ofFields_eq (fields : List (String × Value)) : ofFields fields = mapping (textFields fields) :=
  rfl

@[simp] theorem textFields_nil : textFields [] = [] := rfl

@[simp] theorem textFields_cons (key : String) (v : Value) (fields : List (String × Value)) :
    textFields ((key, v) :: fields) = (.text key, v) :: textFields fields := rfl

theorem textFields_injective : Function.Injective textFields :=
  List.map_injective_iff.2 fun _ _ h => Prod.ext (Scalar.text.inj (Prod.mk.inj h).1)
    (Prod.mk.inj h).2

/-- A field under a text is looked up like an entry. -/
theorem field?_textFields (fields : List (String × Value)) (key : String) :
    field? (textFields fields) key = Entries.get? fields key := by
  rw [field?, Entries.get?, textFields, List.find?_map, Option.map_map]
  rfl

/-- The keys of fields under texts. -/
theorem map_fst_textFields (fields : List (String × Value)) :
    (textFields fields).map Prod.fst = (fields.map Prod.fst).map Scalar.text := by
  rw [textFields, List.map_map, List.map_map]
  rfl

/-! ### Values that JSON has -/

mutual

/-- A value that JSON has. -/
def IsJson : Value → Prop
  | .scalar s => s.IsJson
  | .set _ => False
  | .pair _ _ => False
  | .list items => AreJson items
  | .mapping fields => (fields.map Prod.fst).Nodup ∧ HaveJson fields

/-- Values that JSON has. -/
def AreJson : List Value → Prop
  | [] => True
  | v :: vs => IsJson v ∧ AreJson vs

/-- Fields that JSON has. -/
def HaveJson : List (Scalar × Value) → Prop
  | [] => True
  | (k, v) :: fs => (∃ key, k = .text key) ∧ IsJson v ∧ HaveJson fs

end

theorem areJson_iff {items : List Value} : AreJson items ↔ ∀ v ∈ items, IsJson v := by
  induction items with
  | nil => exact ⟨fun _ v hv => absurd hv List.not_mem_nil, fun _ => trivial⟩
  | cons v vs ih => rw [List.forall_mem_cons, ← ih, AreJson]

/-- Fields that JSON has stand under texts. -/
theorem HaveJson.exists_textFields {fields : List (Scalar × Value)} (h : HaveJson fields) :
    ∃ entries, fields = textFields entries := by
  induction fields with
  | nil => exact ⟨[], rfl⟩
  | cons f fs ih =>
    obtain ⟨k, v⟩ := f
    obtain ⟨⟨key, rfl⟩, -, hrest⟩ := h
    obtain ⟨entries, rfl⟩ := ih hrest
    exact ⟨(key, v) :: entries, rfl⟩

theorem haveJson_textFields {entries : List (String × Value)} :
    HaveJson (textFields entries) ↔ ∀ e ∈ entries, IsJson e.2 := by
  induction entries with
  | nil => exact ⟨fun _ e he => absurd he List.not_mem_nil, fun _ => trivial⟩
  | cons e entries ih =>
    rw [List.forall_mem_cons, ← ih]
    exact ⟨fun h => ⟨h.2.1, h.2.2⟩, fun h => ⟨⟨e.1, rfl⟩, h.1, h.2⟩⟩

/-- A mapping that JSON has is made of entries with different keys. -/
theorem isJson_ofFields {entries : List (String × Value)} :
    IsJson (ofFields entries) ↔ (entries.map Prod.fst).Nodup ∧ ∀ e ∈ entries, IsJson e.2 := by
  rw [ofFields_eq, IsJson, map_fst_textFields, haveJson_textFields,
    List.nodup_map_iff fun _ _ => Scalar.text.inj]

mutual

/-- A value that JSON has is its own plain form. -/
theorem IsJson.plain_eq : ∀ {v : Value}, IsJson v → v.plain = .ok v
  | .scalar s, h => by rw [plain, Scalar.IsJson.plain_eq h]; rfl
  | .set _, h => h.elim
  | .pair _ _, h => h.elim
  | .list items, h => by rw [plain, AreJson.plainItems_eq h]; rfl
  | .mapping fields, ⟨hkeys, h⟩ => by
    obtain ⟨entries, rfl⟩ := h.exists_textFields
    rw [map_fst_textFields] at hkeys
    rw [plain, HaveJson.plainFields_eq h rfl]
    show Except.ok (ofFields (Entries.ofList entries)) = _
    rw [Entries.ofList_of_nodup (hkeys.of_map _)]
    rfl

/-- Values that JSON has are their own plain forms. -/
theorem AreJson.plainItems_eq : ∀ {items : List Value}, AreJson items → plainItems items = .ok items
  | [], _ => rfl
  | v :: vs, ⟨hv, hvs⟩ => by
    rw [plainItems, IsJson.plain_eq hv, AreJson.plainItems_eq hvs]
    rfl

/-- Fields that JSON has keep their keys and their values in plain form. -/
theorem HaveJson.plainFields_eq : ∀ {fields : List (Scalar × Value)}
    {entries : List (String × Value)}, HaveJson fields → fields = textFields entries →
      plainFields fields = .ok entries
  | [], [], _, _ => rfl
  | (_, v) :: fs, (key, _) :: entries, ⟨_, hv, hfs⟩, heq => by
    obtain ⟨hfirst, hrest⟩ := List.cons.inj heq
    obtain ⟨rfl, rfl⟩ := Prod.mk.inj hfirst
    rw [plainFields, Scalar.plainKey, IsJson.plain_eq hv, HaveJson.plainFields_eq hfs hrest]
    rfl

end

mutual

/-- A plain form is a value that JSON has. -/
theorem isJson_of_plain : ∀ {v w : Value}, v.plain = .ok w → w.IsJson
  | .scalar s, _, h => by
    rw [plain] at h
    obtain ⟨t, ht, rfl⟩ := map_eq_ok_iff.1 h
    exact Scalar.isJson_of_plain ht
  | .set ms, _, h => by
    rw [plain] at h
    obtain ⟨ts, hts, rfl⟩ := map_eq_ok_iff.1 h
    refine areJson_iff.2 fun v hv => ?_
    obtain ⟨t, ht, rfl⟩ := List.mem_map.1 hv
    obtain ⟨m, -, hm⟩ := exists_mem_of_forall₂ (mapM_eq_ok_iff.1 hts) ht
    exact Scalar.isJson_of_plain hm
  | .pair a b, _, h => by
    rw [plain] at h
    obtain ⟨a', ha, h⟩ := bind_eq_ok_iff.1 h
    obtain ⟨b', hb, h⟩ := bind_eq_ok_iff.1 h
    cases h
    exact ⟨isJson_of_plain ha, isJson_of_plain hb, trivial⟩
  | .list items, _, h => by
    rw [plain] at h
    obtain ⟨ws, hws, rfl⟩ := map_eq_ok_iff.1 h
    exact areJson_of_plainItems hws
  | .mapping fields, _, h => by
    rw [plain] at h
    obtain ⟨entries, hentries, rfl⟩ := map_eq_ok_iff.1 h
    exact isJson_ofFields.2 ⟨Entries.nodup_ofList entries, fun e he =>
      isJson_of_plainFields hentries e (Entries.mem_of_mem_ofList he)⟩

theorem areJson_of_plainItems : ∀ {vs ws : List Value}, plainItems vs = .ok ws → AreJson ws
  | [], _, h => by
    cases h
    trivial
  | v :: vs, _, h => by
    rw [plainItems] at h
    obtain ⟨w, hw, h⟩ := bind_eq_ok_iff.1 h
    obtain ⟨ws, hws, h⟩ := bind_eq_ok_iff.1 h
    cases h
    exact ⟨isJson_of_plain hw, areJson_of_plainItems hws⟩

theorem isJson_of_plainFields : ∀ {fields : List (Scalar × Value)}
    {entries : List (String × Value)}, plainFields fields = .ok entries →
      ∀ e ∈ entries, e.2.IsJson
  | [], _, h => by
    cases h
    exact fun e he => absurd he List.not_mem_nil
  | (k, v) :: fs, _, h => by
    rw [plainFields] at h
    obtain ⟨key, -, h⟩ := bind_eq_ok_iff.1 h
    obtain ⟨w, hw, h⟩ := bind_eq_ok_iff.1 h
    obtain ⟨rest, hrest, h⟩ := bind_eq_ok_iff.1 h
    cases h
    exact List.forall_mem_cons.2 ⟨isJson_of_plain hw, isJson_of_plainFields hrest⟩

end

theorem getD_ofFields (entries : List (String × Value)) (key : String) :
    (ofFields entries).getD key = (Entries.get? entries key).getD null :=
  congrArg (Option.getD · null) (field?_textFields entries key)

/-- The fields of a value that JSON has are such values. -/
theorem IsJson.getD {v : Value} (h : v.IsJson) (key : String) : (v.getD key).IsJson := by
  cases v with
  | mapping fields =>
    obtain ⟨entries, rfl⟩ := h.2.exists_textFields
    rw [← ofFields_eq, getD_ofFields]
    cases hfield : Entries.get? entries key with
    | none => exact trivial
    | some v => exact (isJson_ofFields.1 h).2 _ (Entries.mem_of_get? hfield)
  | _ => exact trivial

/-! ### Mappings whose keys are kept -/

/-- An entry and its plain form: the key is the same, and the value is the plain one. -/
def IsPlainEntry (e e' : String × Value) : Prop := e.1 = e'.1 ∧ e.2.plain = .ok e'.2

theorem plainFields_textFields {entries entries' : List (String × Value)}
    (h : plainFields (textFields entries) = .ok entries') :
    List.Forall₂ IsPlainEntry entries entries' := by
  induction entries generalizing entries' with
  | nil =>
    cases h
    exact .nil
  | cons e entries ih =>
    rw [textFields_cons, plainFields] at h
    obtain ⟨key, hkey, h⟩ := bind_eq_ok_iff.1 h
    obtain ⟨v, hv, h⟩ := bind_eq_ok_iff.1 h
    obtain ⟨rest, hrest, h⟩ := bind_eq_ok_iff.1 h
    cases h
    exact .cons ⟨Except.ok.inj hkey, hv⟩ (ih hrest)

/-- Entries and their plain forms have the same keys. -/
theorem map_fst_eq_of_forall₂ {entries entries' : List (String × Value)}
    (h : List.Forall₂ IsPlainEntry entries entries') :
    entries'.map Prod.fst = entries.map Prod.fst :=
  Entries.map_fst_eq_of_forall₂ h fun _ _ he => he.1.symm

/-- A mapping from different texts keeps its keys in plain form. -/
theorem plain_ofFields {entries : List (String × Value)} {v : Value}
    (hkeys : (entries.map Prod.fst).Nodup) (h : (ofFields entries).plain = .ok v) :
    ∃ entries', v = ofFields entries' ∧ List.Forall₂ IsPlainEntry entries entries' := by
  rw [ofFields_eq, plain] at h
  obtain ⟨entries', hentries, rfl⟩ := map_eq_ok_iff.1 h
  have hall := plainFields_textFields hentries
  rw [Entries.ofList_of_nodup (map_fst_eq_of_forall₂ hall ▸ hkeys)]
  exact ⟨entries', rfl, hall⟩

/-- A value that has the same keys in plain form: a mapping from different texts, or a value without
fields that JSON has. -/
def KeepsKeys : Value → Prop
  | .mapping fields => ∃ entries, fields = textFields entries ∧ (entries.map Prod.fst).Nodup
  | v => v.IsJson

theorem IsJson.keepsKeys {v : Value} (h : v.IsJson) : v.KeepsKeys := by
  cases v with
  | mapping fields =>
    obtain ⟨entries, rfl⟩ := h.2.exists_textFields
    exact ⟨entries, rfl, (isJson_ofFields.1 h).1⟩
  | _ => exact h

theorem keepsKeys_ofFields {entries : List (String × Value)} (h : (entries.map Prod.fst).Nodup) :
    (ofFields entries).KeepsKeys := ⟨entries, rfl, h⟩

/-- In plain form such a value is the value itself, or its values are replaced by their plain forms.
-/
theorem KeepsKeys.plain_cases {v w : Value} (h : v.KeepsKeys) (hplain : v.plain = .ok w) :
    ((∀ fields, v ≠ .mapping fields) ∧ w = v) ∨ ∃ entries entries', v = ofFields entries ∧
      w = ofFields entries' ∧ List.Forall₂ IsPlainEntry entries entries' := by
  cases v with
  | mapping fields =>
    obtain ⟨entries, rfl, hkeys⟩ := h
    obtain ⟨entries', rfl, hall⟩ := plain_ofFields hkeys hplain
    exact .inr ⟨entries, entries', rfl, rfl, hall⟩
  | _ => exact .inl ⟨nofun, Except.ok.inj (hplain.symm.trans (IsJson.plain_eq h))⟩

theorem get?_plain_of_forall₂ {entries entries' : List (String × Value)}
    (h : List.Forall₂ IsPlainEntry entries entries') (key : String) :
    ((Entries.get? entries key).getD null).plain =
      .ok ((Entries.get? entries' key).getD null) := by
  induction h with
  | nil => rfl
  | @cons e e' entries entries' he _ ih =>
    rw [Entries.get?_cons, Entries.get?_cons, ← he.1]
    by_cases hkey : e.1 = key
    · rw [if_pos hkey, if_pos hkey]
      exact he.2
    · rw [if_neg hkey, if_neg hkey]
      exact ih

/-- A field of the plain form is the plain form of the field. -/
theorem KeepsKeys.getD_plain {v w : Value} (h : v.KeepsKeys) (hplain : v.plain = .ok w)
    (key : String) : (v.getD key).plain = .ok (w.getD key) := by
  obtain ⟨hv, rfl⟩ | ⟨entries, entries', rfl, rfl, hall⟩ := h.plain_cases hplain
  · cases w with
    | mapping fields => exact absurd rfl (hv fields)
    | _ => rfl
  · rw [getD_ofFields, getD_ofFields]
    exact get?_plain_of_forall₂ hall key

/-- A field that JSON has is the same in plain form. -/
theorem KeepsKeys.getD_eq {v w : Value} (h : v.KeepsKeys) (hplain : v.plain = .ok w) {key : String}
    (hfield : (v.getD key).IsJson) : w.getD key = v.getD key :=
  Except.ok.inj ((h.getD_plain hplain key).symm.trans hfield.plain_eq)

end Value

end ApiShell
