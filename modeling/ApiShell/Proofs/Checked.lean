import ApiShell.Checked
import ApiShell.Proofs.Entries
import ApiShell.Proofs.Json.Plain
import ApiShell.Proofs.Run

/-!
# Checks read backwards

What passes the check of a list or of a mapping passes it member by member, and what the check gives has
no key twice.
-/

namespace ApiShell.Checked

variable {α β : Type} {location : List String}

/-- All members of a list pass a check when each of them does. -/
theorem each_eq_ok_iff {check : α → Checked β} {as : List α} {bs : List β} :
    each check as = .ok bs ↔ List.Forall₂ (fun a b => check a = .ok b) as bs := by
  induction as generalizing bs with
  | nil =>
    rw [each, List.forall₂_nil_left_iff]
    exact ⟨fun h => (Except.ok.inj h).symm, fun h => h ▸ rfl⟩
  | cons a as ih =>
    rw [each, next_eq_ok_iff, List.forall₂_cons_left_iff]
    constructor
    · rintro ⟨g, rest, hg, hrest, rfl⟩
      obtain ⟨b, hb, rfl⟩ := map_eq_ok_iff.1 hg
      exact ⟨b, rest, hb, ih.1 hrest, rfl⟩
    · rintro ⟨b, rest, hb, hrest, rfl⟩
      exact ⟨_, rest, map_eq_ok_iff.2 ⟨b, hb, rfl⟩, ih.2 hrest, rfl⟩

/-- The keys that a mapping is checked to have are different. -/
theorem nodup_of_mapping {check : List String → Value → Checked α} {v : Value}
    {bs : List (String × α)} (h : mapping check location v = .ok bs) :
    (bs.map Prod.fst).Nodup := by
  unfold mapping at h
  split at h
  · obtain ⟨fields, -, rfl⟩ := map_eq_ok_iff.1 h
    exact Entries.nodup_ofList fields
  · cases h

/-- What a mapping is checked to have under its keys has passed the check. -/
theorem exists_of_mem_mapping {check : List String → Value → Checked α} {v : Value}
    {bs : List (String × α)} (h : mapping check location v = .ok bs) {b : String × α}
    (hb : b ∈ bs) : ∃ place w, check place w = .ok b.2 := by
  unfold mapping at h
  split at h
  · next fields =>
    obtain ⟨made, hmade, rfl⟩ := map_eq_ok_iff.1 h
    obtain ⟨f, -, hf⟩ := exists_mem_of_forall₂ (each_eq_ok_iff.1 hmade) (Entries.mem_of_mem_ofList hb)
    obtain ⟨g, a, hg, ha, rfl⟩ := next_eq_ok_iff.1 hf
    obtain ⟨key, -, rfl⟩ := map_eq_ok_iff.1 hg
    exact ⟨_, _, ha⟩
  · cases h

/-- Mappings from different texts pass a check entry by entry, and keep their keys. -/
theorem mapping_ofFields_eq_ok_iff {check : List String → Value → Checked α}
    {entries : List (String × Value)} (hkeys : (entries.map Prod.fst).Nodup)
    {bs : List (String × α)} : mapping check location (.ofFields entries) = .ok bs ↔
      List.Forall₂ (fun e b => b.1 = e.1 ∧ check (location ++ [e.1]) e.2 = .ok b.2) entries bs := by
  have hentry (e : String × Value) (b : String × α) :
      next ((key location (.text e.1)).map Prod.mk) (check (location ++ [keyText (.text e.1)]) e.2) =
        .ok b ↔ b.1 = e.1 ∧ check (location ++ [e.1]) e.2 = .ok b.2 := by
    rw [next_eq_ok_iff]
    constructor
    · rintro ⟨g, a, hg, ha, rfl⟩
      cases hg
      exact ⟨rfl, ha⟩
    · rintro ⟨hb, ha⟩
      exact ⟨_, b.2, rfl, ha, Prod.ext hb.symm rfl⟩
  have hmade (made : List (String × α)) :
      each (fun f => next ((key location f.1).map Prod.mk) (check (location ++ [keyText f.1]) f.2))
        (Value.textFields entries) = .ok made ↔
      List.Forall₂ (fun e b => b.1 = e.1 ∧ check (location ++ [e.1]) e.2 = .ok b.2) entries made := by
    rw [each_eq_ok_iff, Value.textFields, List.forall₂_map_left_iff]
    exact ⟨fun h => h.imp fun _ _ => (hentry _ _).1, fun h => h.imp fun _ _ => (hentry _ _).2⟩
  have hnodup {made : List (String × α)} (h : List.Forall₂
      (fun e b => b.1 = e.1 ∧ check (location ++ [e.1]) e.2 = .ok b.2) entries made) :
      Entries.ofList made = made := by
    have hsame := Entries.map_fst_eq_of_forall₂ h fun _ _ hb => hb.1
    exact Entries.ofList_of_nodup (hsame ▸ hkeys)
  rw [Value.ofFields_eq, mapping, map_eq_ok_iff]
  constructor
  · rintro ⟨made, hall, rfl⟩
    have hforall := (hmade made).1 hall
    rwa [hnodup hforall]
  · intro h
    exact ⟨bs, (hmade bs).2 h, hnodup h⟩

end ApiShell.Checked
