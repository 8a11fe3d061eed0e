import ApiShell.Cache.Entry
import ApiShell.Proofs.Json.Plain
import ApiShell.Proofs.Time.Stamp

/-!
# Entries that are read back

An entry is stored with its document in plain form and with its moments as texts.  These texts are
read as the same moments, so what is read back is the entry with the plain form for its document.  A
document of values that JSON has is its own plain form, and then what is read back is the entry
itself.
-/

namespace ApiShell.Cache.Entry

open ApiShell (Value)

/-! ### Stored forms -/

/-- The fields under which an entry is stored. -/
def storedFields (e : Entry) : List (String × Value) :=
  [("key", .text e.key), ("location", .text e.location), ("openapi_version", .text e.version),
    ("document", .ofFields e.document), ("created_at", .text e.createdAt.shortText),
    ("expires_at", .text e.expiresAt.shortText)]

/-- An entry is stored with its document in plain form and its moments as texts. -/
theorem plain_eq_map (e : Entry) :
    e.plain = (Value.plainFields (Value.textFields e.document)).map fun fields =>
      .ofFields (storedFields { e with document := Entries.ofList fields }) := by
  unfold plain
  rw [Value.ofFields_eq, Value.plain]
  simp only [Value.textFields_cons, Value.textFields_nil, Value.plainFields, Value.plain,
    Scalar.plainKey, Scalar.plain, Value.ofFields_eq]
  cases Value.plainFields (Value.textFields e.document) with
  | error defect => rfl
  | ok fields => rfl

/-- A mapping from different texts passes the check of a document as it is. -/
theorem checkDocument_ofFields {fields : List (String × Value)}
    (h : (fields.map Prod.fst).Nodup) :
    Spec.Description.checkDocument (.ofFields fields) = .ok fields := by
  have heach (location : List String) (entries : List (String × Value)) :
      Checked.each (fun f => Checked.next ((Checked.key location f.1).map Prod.mk) (.ok f.2))
        (Value.textFields entries) = .ok entries := by
    induction entries with
    | nil => rfl
    | cons e entries ih =>
      rw [Value.textFields_cons, Checked.each, ih]
      rfl
  rw [Value.ofFields_eq, Spec.Description.checkDocument, Checked.mapping, heach]
  exact congrArg Except.ok (Entries.ofList_of_nodup h)

/-- What is read back of an entry in stored form is the entry. -/
theorem check_storedFields {e : Entry} (hkeys : (e.document.map Prod.fst).Nodup)
    (hcreated : e.createdAt.IsUniversal) (hexpires : e.expiresAt.IsUniversal) :
    check (.ofFields e.storedFields) = .ok e := by
  have hmoment {m : Time.Moment} (hm : m.IsUniversal) (location : List String) :
      Checked.moment location (.text m.shortText) = .ok m := by
    unfold Checked.moment
    dsimp only
    rw [hm.momentOfText?_shortText]
  have hfield {α : Type} (name : String) (v : Value) (check : List String → Value → Checked α)
      (hget : Entries.get? e.storedFields name = some v) :
      field (Value.textFields e.storedFields) name check = check [name] v := by
    rw [field, Value.field?_textFields, hget]
  rw [Value.ofFields_eq, check, hfield "key" _ _ rfl, hfield "location" _ _ rfl,
    hfield "openapi_version" _ _ rfl, hfield "document" _ _ rfl, hfield "created_at" _ _ rfl,
    hfield "expires_at" _ _ rfl, checkDocument_ofFields hkeys, hmoment hcreated, hmoment hexpires]
  rfl

/-- What is read back of an entry that has a stored form is the entry with the plain form of its
document. -/
theorem exists_check_of_plain {e : Entry} {v : Value} (h : e.plain = .ok v)
    (hcreated : e.createdAt.IsUniversal) (hexpires : e.expiresAt.IsUniversal) :
    ∃ document, (Value.ofFields e.document).plain = .ok (.ofFields document) ∧ v.isNull = false ∧
      check v = .ok { e with document } := by
  rw [plain_eq_map] at h
  obtain ⟨fields, hfields, rfl⟩ := map_eq_ok_iff.1 h
  have hnodup := Entries.nodup_ofList fields
  refine ⟨Entries.ofList fields, ?_, rfl, check_storedFields hnodup hcreated hexpires⟩
  rw [Value.ofFields_eq, Value.plain, hfields]
  rfl

/-! ### Entries of JSON values -/

/-- An entry whose document JSON has and whose moments are moments of universal time. -/
structure IsStorable (e : Entry) : Prop where
  document : (Value.ofFields e.document).IsJson
  createdAt : e.createdAt.IsUniversal
  expiresAt : e.expiresAt.IsUniversal

/-- The document of such an entry is its own plain form. -/
theorem IsStorable.plain_eq {e : Entry} (h : e.IsStorable) :
    e.plain = .ok (.ofFields e.storedFields) := by
  have hdocument := Value.isJson_ofFields.1 h.document
  rw [plain_eq_map, Value.HaveJson.plainFields_eq (Value.haveJson_textFields.2 hdocument.2) rfl]
  show Except.ok (Value.ofFields (storedFields { e with document := Entries.ofList e.document })) = _
  rw [Entries.ofList_of_nodup hdocument.1]

/-- What is read back of such an entry is the entry. -/
theorem IsStorable.check_storedFields {e : Entry} (h : e.IsStorable) :
    check (.ofFields e.storedFields) = .ok e :=
  Entry.check_storedFields (Value.isJson_ofFields.1 h.document).1 h.createdAt h.expiresAt

/-! ### Entries that are made -/

/-- The entry of a description keeps it until its time is over. -/
theorem of_make {now : Time.Moment} {d : Spec.Description} {ttl : Time.Duration} {e : Entry}
    (h : make now d ttl = .ok e) :
    e.key = keyOf d.location ∧ e.description = d ∧ e.createdAt = now ∧
      e.expiresAt.IsUniversal ∧ e.expiresAt.instant = now.instant + ttl.micros := by
  unfold make at h
  split at h
  · rename_i expiresAt hexpires
    obtain ⟨huniversal, hinstant⟩ := Time.Moment.of_ofInstant? hexpires
    obtain rfl := Except.ok.inj h
    exact ⟨rfl, rfl, rfl, huniversal, hinstant⟩
  · cases h

/-- The entry of a description that has a plain form has a stored form. -/
theorem exists_plain_of_make {now : Time.Moment} {d : Spec.Description} {ttl : Time.Duration}
    {e : Entry} {w : Value} (h : make now d ttl = .ok e) (hd : d.value.plain = .ok w) :
    ∃ v, e.plain = .ok v := by
  obtain ⟨-, rfl, -⟩ := of_make h
  rw [Spec.Description.value, Value.ofFields_eq, Value.plain] at hd
  obtain ⟨fields, hfields, -⟩ := map_eq_ok_iff.1 hd
  refine ⟨_, (plain_eq_map e).trans (map_eq_ok_iff.2 ⟨fields, hfields, rfl⟩)⟩

/-- The entry of a description of JSON values can be stored. -/
theorem isStorable_of_make {now : Time.Moment} {d : Spec.Description} {ttl : Time.Duration}
    {e : Entry} (h : make now d ttl = .ok e) (hnow : now.IsUniversal) (hd : d.value.IsJson) :
    e.IsStorable := by
  obtain ⟨-, hdescription, hcreated, hexpires, -⟩ := of_make h
  have hdocument : e.document = d.document := congrArg Spec.Description.document hdescription
  refine ⟨?_, hcreated ▸ hnow, hexpires⟩
  rw [hdocument]
  exact hd

/-- The time of an entry is over behind the moment until which it is kept. -/
theorem isExpired_eq {e : Entry} (h : e.expiresAt.IsUniversal) (now : Time.Moment) :
    e.isExpired now = .ok (decide (e.expiresAt.instant < now.instant)) := by
  unfold isExpired
  rw [h.offset]
  rfl

end ApiShell.Cache.Entry
