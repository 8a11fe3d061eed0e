import ApiShell.Entries
import Mathlib.Data.List.Forall2
import Mathlib.Data.List.Induction
import Mathlib.Data.List.Nodup

/-!
# Entries with different keys

Where no two entries have one key, looking up the key of an entry finds the entry, and putting the
entries one after the other gives them back.  Putting and taking away change what is found under one
key and nothing else.
-/

namespace ApiShell.Entries

variable {α β : Type}

/-- What is told apart from the others by its key is found by its key. -/
theorem find?_eq_some_of_nodup {key : β → String} {as : List β} {a : β} (h : (as.map key).Nodup)
    (ha : a ∈ as) : as.find? (key · == key a) = some a := by
  induction as with
  | nil => cases ha
  | cons b as ih =>
    rw [List.map_cons, List.nodup_cons] at h
    rcases List.mem_cons.1 ha with rfl | ha
    · exact List.find?_cons_of_pos (beq_self_eq_true (key a))
    · have hne : key b ≠ key a := fun heq => h.1 (heq ▸ List.mem_map_of_mem ha)
      rw [List.find?_cons_of_neg (by simpa using hne), ih h.2 ha]

theorem get?_of_mem {entries : List (String × α)} {key : String} {a : α}
    (h : (entries.map Prod.fst).Nodup) (ha : (key, a) ∈ entries) : get? entries key = some a := by
  rw [get?, find?_eq_some_of_nodup h ha, Option.map_some]

theorem get?_of_notMem {entries : List (String × α)} {key : String}
    (h : key ∉ entries.map Prod.fst) : get? entries key = none := by
  rw [get?, Option.map_eq_none_iff, List.find?_eq_none]
  intro e he hkey
  exact h (beq_iff_eq.1 hkey ▸ List.mem_map_of_mem he)

/-- What is found stands in the entries. -/
theorem mem_of_get? {entries : List (String × α)} {key : String} {a : α}
    (h : get? entries key = some a) : (key, a) ∈ entries := by
  obtain ⟨e, he, rfl⟩ := Option.map_eq_some_iff.1 h
  have hkey := List.find?_some he
  rw [beq_iff_eq] at hkey
  rw [← hkey]
  exact List.mem_of_find?_eq_some he

/-- Entries that do not have the key are passed over. -/
theorem get?_append_of_notMem {entries : List (String × α)} {key : String}
    (h : key ∉ entries.map Prod.fst) (others : List (String × α)) :
    get? (entries ++ others) key = get? others key := by
  have hnone : entries.find? (·.1 == key) = none := Option.map_eq_none_iff.1 (get?_of_notMem h)
  rw [get?, List.find?_append, hnone, Option.none_or, ← get?]

/-- What stands in the entries after one is put stood there before or is the new one. -/
theorem mem_of_mem_put {entries : List (String × α)} {key : String} {a : α} {e : String × α}
    (h : e ∈ put entries key a) : e ∈ entries ∨ e = (key, a) := by
  rw [put] at h
  split at h
  · obtain ⟨d, hd, rfl⟩ := List.mem_map.1 h
    by_cases hkey : d.1 == key
    · rw [if_pos hkey]
      exact .inr rfl
    · rw [if_neg hkey]
      exact .inl hd
  · exact (List.mem_append.1 h).imp_right List.mem_singleton.1

/-- An entry under a new key comes last. -/
theorem put_of_notMem {entries : List (String × α)} {key : String} (a : α)
    (h : key ∉ entries.map Prod.fst) : put entries key a = entries ++ [(key, a)] := by
  rw [put, if_neg]
  intro hany
  obtain ⟨e, he, hkey⟩ := List.any_eq_true.1 hany
  exact h (beq_iff_eq.1 hkey ▸ List.mem_map_of_mem he)

/-- An entry under a key that is there replaces the old one. -/
theorem put_of_mem {entries : List (String × α)} {key : String} (a : α)
    (h : key ∈ entries.map Prod.fst) :
    put entries key a = entries.map fun e => if e.1 == key then (key, a) else e := by
  obtain ⟨e, he, hkey⟩ := List.mem_map.1 h
  have hany : entries.any (·.1 == key) = true := List.any_eq_true.2 ⟨e, he, beq_iff_eq.2 hkey⟩
  rw [put, if_pos hany]

/-- Entries with different keys leave themselves behind. -/
theorem ofList_of_nodup {entries : List (String × α)} (h : (entries.map Prod.fst).Nodup) :
    ofList entries = entries := by
  induction entries using List.reverseRecOn with
  | nil => rfl
  | append_singleton entries e ih =>
    rw [List.map_append, List.map_singleton, List.nodup_append_comm, List.singleton_append,
      List.nodup_cons] at h
    have hbefore := ih h.2
    unfold ofList at hbefore ⊢
    rw [List.foldl_append, hbefore, List.foldl_cons, List.foldl_nil, put_of_notMem e.2 h.1]

/-- Putting an entry keeps the keys different. -/
theorem nodup_put {entries : List (String × α)} (h : (entries.map Prod.fst).Nodup) (key : String)
    (a : α) : ((put entries key a).map Prod.fst).Nodup := by
  by_cases hkey : key ∈ entries.map Prod.fst
  · have hkeys : (put entries key a).map Prod.fst = entries.map Prod.fst := by
      rw [put_of_mem a hkey, List.map_map]
      refine List.map_congr_left fun e _ => ?_
      by_cases heq : e.1 == key
      · exact (congrArg Prod.fst (if_pos heq)).trans (beq_iff_eq.1 heq).symm
      · exact congrArg Prod.fst (if_neg heq)
    rw [hkeys]
    exact h
  · rw [put_of_notMem a hkey, List.map_append, List.map_singleton, List.nodup_append_comm]
    exact List.nodup_cons.2 ⟨hkey, h⟩

/-- What a list of assignments leaves behind has different keys. -/
theorem nodup_ofList (assignments : List (String × α)) :
    ((ofList assignments).map Prod.fst).Nodup := by
  induction assignments using List.reverseRecOn with
  | nil => exact List.nodup_nil
  | append_singleton assignments e ih =>
    unfold ofList at ih ⊢
    rw [List.foldl_append]
    exact nodup_put ih e.1 e.2

/-- What assignments leave behind stands among them. -/
theorem mem_of_mem_ofList {assignments : List (String × α)} {e : String × α}
    (h : e ∈ ofList assignments) : e ∈ assignments := by
  induction assignments using List.reverseRecOn with
  | nil => cases h
  | append_singleton assignments a ih =>
    unfold ofList at ih h
    rw [List.foldl_append] at h
    rcases mem_of_mem_put h with h | rfl
    · exact List.mem_append_left _ (ih h)
    · exact List.mem_append_right _ (List.mem_singleton.2 rfl)

/-- Entries that correspond under the same keys have the same keys. -/
theorem map_fst_eq_of_forall₂ {R : String × α → String × β → Prop} {as : List (String × α)}
    {bs : List (String × β)} (h : List.Forall₂ R as bs) (hkey : ∀ a b, R a b → b.1 = a.1) :
    bs.map Prod.fst = as.map Prod.fst := by
  induction h with
  | nil => rfl
  | cons hab _ ih => rw [List.map_cons, List.map_cons, hkey _ _ hab, ih]

/-! ### What is found after a change -/

theorem get?_cons (e : String × α) (entries : List (String × α)) (key : String) :
    get? (e :: entries) key = if e.1 = key then some e.2 else get? entries key := by
  by_cases h : e.1 = key
  · have hfirst : (e :: entries).find? (·.1 == key) = some e :=
      List.find?_cons_of_pos (beq_iff_eq.2 h)
    rw [get?, hfirst, if_pos h, Option.map_some]
  · rw [get?, List.find?_cons_of_neg (by simpa using h), if_neg h, ← get?]

/-- Replacing the entry under a key changes what is found there and nothing else. -/
theorem get?_replace (entries : List (String × α)) (key other : String) (a : α) :
    get? (entries.map fun e => if e.1 == key then (key, a) else e) other =
      if other = key then (get? entries key).map fun _ => a else get? entries other := by
  induction entries with
  | nil => exact (ite_self none).symm
  | cons e entries ih =>
    rw [List.map_cons, get?_cons, get?_cons, get?_cons, ih]
    grind

theorem get?_put (entries : List (String × α)) (key other : String) (a : α) :
    get? (put entries key a) other = if other = key then some a else get? entries other := by
  by_cases h : key ∈ entries.map Prod.fst
  · obtain ⟨e, he, hkey⟩ := List.mem_map.1 h
    have hfound : (get? entries key).isSome := by
      rw [get?, Option.isSome_map]
      exact List.find?_isSome.2 ⟨e, he, beq_iff_eq.2 hkey⟩
    obtain ⟨b, hb⟩ := Option.isSome_iff_exists.1 hfound
    rw [put_of_mem a h, get?_replace, hb, Option.map_some]
  · rw [put_of_notMem a h]
    by_cases hother : other = key
    · rw [hother, if_pos rfl, get?_append_of_notMem h, get?_cons, if_pos rfl]
    · rw [if_neg hother, get?, List.find?_append, List.find?_cons_of_neg
        (by simpa using Ne.symm hother), List.find?_nil, Option.or_none, ← get?]

theorem get?_erase (entries : List (String × α)) (key other : String) :
    get? (erase entries key) other = if other = key then none else get? entries other := by
  induction entries with
  | nil => exact (ite_self none).symm
  | cons e entries ih =>
    by_cases h : e.1 = key
    · rw [erase, List.filter_cons_of_neg (by simpa using h), ← erase, ih, get?_cons]
      grind
    · rw [erase, List.filter_cons_of_pos (by simpa using h), ← erase, get?_cons, ih, get?_cons]
      grind

end ApiShell.Entries
