import ApiShell.Proofs.Json.Tree
import ApiShell.Proofs.Yaml.LayoutNodes
import ApiShell.Proofs.Yaml.Numerals

/-!
# The values of JSON texts

The node of a JSON value is constructed to that value part by part: a string says the same if nothing is
folded in it, a number if its spelling is one of YAML, a word if it is null or a truth value
(`SaysSame`).  A mapping keeps the last of the fields with one key, so where no key is repeated it has
the fields of the JSON mapping, and a difference in one field shows in the whole (`construct_layout_iff`).

With the conditions under which the text is scanned and its keys are found, this says which texts both
formats share.  `IsShared` puts the three together, as a condition on the characters and on each part of
the text, and `read_text_iff` is the main statement.
-/

namespace ApiShell.Yaml

open Json (Key Layout Items Members Page Part Numeral piecesText)

/-- A part that says in YAML what it says in JSON. -/
def SaysSame : Part → Prop
  | .gap _ | .key _ => True
  | .word w _ => w.1 ∈ ["null", "true", "false"]
  | .number n => IsSpelledNumber n
  | .string ps => IsUnfolded (piecesText ps)

/-! ### Scalars -/

/-- A scalar has a value if its tag is one of a scalar. -/
theorem construct_scalar (fuel : ℕ) (tag text : String) :
    construct (fuel + 1) (.scalar tag text) =
      if scalarTags.contains tag then Value.scalar <$> scalarOf tag text else unknown := by
  have hflat : flatPairs (fuel + 1) (.scalar tag text) = unknown := by
    rw [flatPairs]
    exact fun _ _ h => nomatch h
  rw [construct.eq_def]
  show (if scalarTags.contains tag = true then Value.scalar <$> scalarOf tag text else _) = _
  refine if_congr Iff.rfl rfl ?_
  dsimp only
  rw [hflat]
  split
  · rfl
  split
  · rfl
  split
  · rfl
  split <;> rfl

theorem construct_scalar_eq_ok_iff {fuel : ℕ} {tag text : String} {s : Scalar} :
    construct (fuel + 1) (.scalar tag text) = .ok (.scalar s) ↔
      scalarTags.contains tag = true ∧ scalarOf tag text = .ok s := by
  rw [construct_scalar]
  by_cases htag : scalarTags.contains tag = true
  · rw [if_pos htag, and_iff_right htag]
    cases scalarOf tag text with
    | error => exact ⟨(fun h => nomatch h), (fun h => nomatch h)⟩
    | ok s' => simp [Functor.map, Except.map]
  · rw [if_neg htag]
    exact ⟨(fun h => nomatch h), fun h => absurd h.1 htag⟩

theorem construct_text (fuel : ℕ) (text : String) :
    construct (fuel + 1) (.scalar (standardTag "str") text) = .ok (.text text) :=
  construct_scalar_eq_ok_iff.2 ⟨by decide, rfl⟩

theorem scalarOf_word_iff {w : String × Value} {s : Scalar} (h : w ∈ Json.wordValues) (hs : w.2 = .scalar s) :
    scalarTags.contains (implicitTag w.1) = true ∧ scalarOf (implicitTag w.1) w.1 = .ok s ↔
      w.1 ∈ ["null", "true", "false"] := by
  simp only [Json.wordValues, List.mem_cons, List.not_mem_nil, or_false] at h
  rcases h with rfl | rfl | rfl | rfl | rfl | rfl <;> obtain rfl := Value.scalar.inj hs
  · exact iff_of_true ⟨by decide, rfl⟩ (by decide)
  · exact iff_of_true ⟨by decide, rfl⟩ (by decide)
  · exact iff_of_true ⟨by decide, rfl⟩ (by decide)
  · exact iff_of_false (fun h => by cases h.2) (by decide)
  · exact iff_of_false (fun h => by cases h.2) (by decide)
  · exact iff_of_false (fun h => by cases h.2) (by decide)

/-! ### Keys -/

/-- A simple key has no breaks, so nothing is folded in it. -/
theorem foldedText_of_isSimple {k : Key} (h : IsSimple k) : foldedText k.pieces = Json.stringOf k.pieces := by
  have hbreaks : ∀ c ∈ piecesText k.pieces, isBreak c = false := fun c hc =>
    h.1 c (List.mem_append_left _ hc)
  refine (foldedText_eq_iff _).2 (isUnfolded_intro (fun hline => ?_) (.inr hbreaks))
  exact absurd (hbreaks _ hline) (by decide)

/-- The keys of members are texts. -/
theorem exists_text_of_mem_memberNodes : ∀ (members : Members) {p : Node × Node}, p ∈ memberNodes members →
    ∃ text, p.1 = .scalar (standardTag "str") text
  | .last _ _ _ _, _, hp => ⟨_, congrArg Prod.fst (List.mem_singleton.1 hp)⟩
  | .more key _ v _ others, p, hp => by
    rcases List.mem_cons.1 hp with rfl | hp
    · exact ⟨_, rfl⟩
    · exact exists_text_of_mem_memberNodes others hp

/-- Texts as keys bring in no other mappings. -/
theorem flatPairs_of_texts {pairs : List (Node × Node)} (tag : String) (fuel : ℕ)
    (h : ∀ p ∈ pairs, ∃ text, p.1 = .scalar (standardTag "str") text) :
    flatPairs (fuel + 1) (.mapping tag pairs) = .ok pairs := by
  have hmerge : pairs.filter (fun p => p.1.tag == standardTag "merge") = [] := by
    refine List.filter_eq_nil_iff.2 fun p hp => ?_
    obtain ⟨text, htext⟩ := h p hp
    rw [htext]
    exact (by decide : ¬ (standardTag "str" == standardTag "merge") = true)
  have hown : pairs.filter (fun p => !(p.1.tag == standardTag "merge")) = pairs := by
    refine List.filter_eq_self.2 fun p hp => ?_
    rw [Bool.not_eq_true', ← Bool.not_eq_true]
    exact List.filter_eq_nil_iff.1 hmerge p hp
  rw [flatPairs]
  dsimp only
  rw [hmerge, hown]
  refine congrArg Except.ok ((List.map_congr_left fun p hp => ?_).trans (List.map_id pairs))
  obtain ⟨text, htext⟩ := h p hp
  obtain ⟨k, v⟩ := p
  obtain rfl := htext
  rfl

/-! ### Collections -/

theorem construct_sequence (fuel : ℕ) (items : List Node) :
    construct (fuel + 1) (.sequence (standardTag "seq") items) = Value.list <$> constructAll fuel items := by
  rw [construct.eq_def]
  rfl

theorem construct_mapping {pairs : List (Node × Node)} (fuel : ℕ)
    (h : ∀ p ∈ pairs, ∃ text, p.1 = .scalar (standardTag "str") text) :
    construct (fuel + 1) (.mapping (standardTag "map") pairs) =
      constructPairs fuel pairs >>= fun fields => pure (.mapping (Value.fieldsOf fields)) := by
  rw [construct.eq_def]
  show (flatPairs (fuel + 1) (.mapping (standardTag "map") pairs) >>= _) = _
  rw [flatPairs_of_texts (standardTag "map") fuel h]
  rfl

theorem constructAll_cons_eq_ok_iff {fuel : ℕ} {n : Node} {ns : List Node} {v : Value} {vs : List Value} :
    constructAll (fuel + 1) (n :: ns) = .ok (v :: vs) ↔
      construct fuel n = .ok v ∧ constructAll fuel ns = .ok vs := by
  rw [constructAll, bind_eq_ok_iff]
  constructor
  · rintro ⟨v', hv, h⟩
    obtain ⟨vs', hvs, h⟩ := bind_eq_ok_iff.1 h
    obtain ⟨rfl, rfl⟩ := List.cons.inj (Except.ok.inj h)
    exact ⟨hv, hvs⟩
  · rintro ⟨hv, hvs⟩
    exact ⟨v, hv, bind_eq_ok_iff.2 ⟨vs, hvs, rfl⟩⟩

theorem constructPairs_cons_eq_ok_iff {fuel : ℕ} {text : String} {n : Node} {ps : List (Node × Node)}
    {fields : List (Scalar × Value)} :
    constructPairs (fuel + 2) ((.scalar (standardTag "str") text, n) :: ps) = .ok fields ↔
      ∃ v fs, construct (fuel + 1) n = .ok v ∧ constructPairs (fuel + 1) ps = .ok fs ∧
        fields = (.text text, v) :: fs := by
  rw [constructPairs, construct_text]
  show (construct (fuel + 1) n >>= _) = _ ↔ _
  rw [bind_eq_ok_iff]
  constructor
  · rintro ⟨v, hv, h⟩
    obtain ⟨fs, hfs, h⟩ := bind_eq_ok_iff.1 h
    exact ⟨v, fs, hv, hfs, (Except.ok.inj h).symm⟩
  · rintro ⟨v, fs, hv, hfs, rfl⟩
    exact ⟨v, hv, bind_eq_ok_iff.2 ⟨fs, hfs, rfl⟩⟩

theorem constructPairs_cons_eq_ok_cons_iff {fuel : ℕ} {text : String} {n : Node}
    {ps : List (Node × Node)} {v : Value} {fs : List (Scalar × Value)} :
    constructPairs (fuel + 2) ((.scalar (standardTag "str") text, n) :: ps) = .ok ((.text text, v) :: fs) ↔
      construct (fuel + 1) n = .ok v ∧ constructPairs (fuel + 1) ps = .ok fs := by
  rw [constructPairs_cons_eq_ok_iff]
  constructor
  · rintro ⟨v', fs', hv, hfs, heq⟩
    obtain ⟨hfield, rfl⟩ := List.cons.inj heq
    obtain ⟨-, rfl⟩ := Prod.mk.inj hfield
    exact ⟨hv, hfs⟩
  · rintro ⟨hv, hfs⟩
    exact ⟨v, fs, hv, hfs, rfl⟩

/-- Assignments to distinct texts are all left behind. -/
theorem fieldsOf_of_nodup {fields : List (Scalar × Value)} {keys : List String}
    (hfields : fields.map Prod.fst = keys.map .text) (hkeys : keys.Nodup) :
    Value.fieldsOf fields = fields := by
  obtain ⟨entries, rfl, rfl⟩ :
      ∃ entries, fields = Value.textFields entries ∧ entries.map Prod.fst = keys := by
    clear hkeys
    induction fields generalizing keys with
    | nil =>
      obtain rfl : keys = [] := List.map_eq_nil_iff.1 hfields.symm
      exact ⟨[], rfl, rfl⟩
    | cons f fields ih =>
      obtain ⟨k, v⟩ := f
      cases keys with
      | nil => cases hfields
      | cons key keys =>
        obtain ⟨rfl, hrest⟩ := List.cons.inj hfields
        obtain ⟨entries, rfl, rfl⟩ := ih hrest
        exact ⟨(key, v) :: entries, rfl, rfl⟩
  rw [Value.fieldsOf_textFields, Entries.ofList_of_nodup hkeys]

/-! ### Layouts -/

theorem weight_pos (n : Node) : 0 < n.weight := by
  cases n <;> exact Nat.succ_pos _

/-- The fields of members have their keys, which are simple. -/
theorem map_fst_of_constructPairs : ∀ (members : Members) {fuel : ℕ} {fields : List (Scalar × Value)},
    pairWeights (memberNodes members) ≤ fuel → (∀ p ∈ members.parts, IsSimplePart p) →
      constructPairs fuel (memberNodes members) = .ok fields → fields.map Prod.fst = members.keys.map .text
  | .last key before v after, fuel, fields, hfuel, hsimple, h => by
    rw [Json.forall_parts_lastMember] at hsimple
    have hpos := weight_pos (layoutNode v)
    simp only [memberNodes, pairWeights, Node.weight] at hfuel
    obtain ⟨fuel, rfl⟩ := Nat.exists_eq_add_of_le' (show 2 ≤ fuel by omega)
    obtain ⟨w, fs, -, hfs, rfl⟩ := constructPairs_cons_eq_ok_iff.1 h
    obtain rfl := Except.ok.inj hfs
    rw [foldedText_of_isSimple hsimple.1]
    rfl
  | .more key before v after others, fuel, fields, hfuel, hsimple, h => by
    rw [Json.forall_parts_moreMember] at hsimple
    have hpos := weight_pos (layoutNode v)
    simp only [memberNodes, pairWeights, Node.weight] at hfuel
    obtain ⟨fuel, rfl⟩ := Nat.exists_eq_add_of_le' (show 2 ≤ fuel by omega)
    obtain ⟨w, fs, -, hfs, rfl⟩ := constructPairs_cons_eq_ok_iff.1 h
    rw [foldedText_of_isSimple hsimple.1, List.map_cons,
      map_fst_of_constructPairs others (by omega) hsimple.2.2.2.2 hfs]
    rfl

mutual

/-- The node of a value has this value exactly if each part says the same in both formats. -/
theorem construct_layout_iff : ∀ (t : Layout) {fuel : ℕ}, (layoutNode t).weight ≤ fuel →
    (∀ p ∈ t.parts, IsSimplePart p) → t.HasDistinctKeys →
      (construct fuel (layoutNode t) = .ok t.value ↔ ∀ p ∈ t.parts, SaysSame p)
  | .word w hw, fuel, hfuel, _, _ => by
    obtain ⟨fuel, rfl⟩ := Nat.exists_eq_succ_of_ne_zero (Nat.ne_of_gt hfuel)
    obtain ⟨s, hs⟩ : ∃ s, w.2 = .scalar s := by
      simp only [Json.wordValues, List.mem_cons, List.not_mem_nil, or_false] at hw
      rcases hw with rfl | rfl | rfl | rfl | rfl | rfl <;> exact ⟨_, rfl⟩
    rw [Layout.parts, List.forall_mem_singleton, Layout.value, hs]
    exact construct_scalar_eq_ok_iff.trans (scalarOf_word_iff hw hs)
  | .number n, fuel, hfuel, _, _ => by
    obtain ⟨fuel, rfl⟩ := Nat.exists_eq_succ_of_ne_zero (Nat.ne_of_gt hfuel)
    rw [Layout.parts, List.forall_mem_singleton]
    exact construct_scalar_eq_ok_iff.trans (scalarOf_numeral_iff n)
  | .string ps, fuel, hfuel, _, _ => by
    obtain ⟨fuel, rfl⟩ := Nat.exists_eq_succ_of_ne_zero (Nat.ne_of_gt hfuel)
    rw [Layout.parts, List.forall_mem_singleton, layoutNode, construct_text, SaysSame,
      ← foldedText_eq_iff]
    simp [Layout.value]
  | .emptyList gap, fuel, hfuel, _, _ => by
    obtain ⟨fuel, rfl⟩ := Nat.exists_eq_add_of_le' (show 2 ≤ fuel from hfuel)
    rw [Layout.parts, List.forall_mem_singleton, layoutNode, construct_sequence]
    exact iff_of_true rfl trivial
  | .list items, fuel, hfuel, hsimple, hdistinct => by
    obtain ⟨fuel, rfl⟩ := Nat.exists_eq_succ_of_ne_zero (show fuel ≠ 0 from Nat.ne_of_gt (by
      rw [layoutNode, Node.weight] at hfuel
      omega))
    rw [layoutNode, Node.weight] at hfuel
    have hitems := constructAll_items_iff items (Nat.le_of_succ_le_succ hfuel) hsimple hdistinct
    rw [Layout.parts, ← hitems, layoutNode, construct_sequence, Layout.value]
    cases constructAll fuel (itemNodes items) with
    | error => exact ⟨(fun h => nomatch h), (fun h => nomatch h)⟩
    | ok vs => simp [Functor.map, Except.map]
  | .emptyMapping gap, fuel, hfuel, _, _ => by
    obtain ⟨fuel, rfl⟩ := Nat.exists_eq_add_of_le' (show 2 ≤ fuel from hfuel)
    have hnone : ∀ p ∈ ([] : List (Node × Node)), ∃ text, p.1 = .scalar (standardTag "str") text := by simp
    rw [Layout.parts, List.forall_mem_singleton, layoutNode, construct_mapping (fuel + 1) hnone]
    exact iff_of_true rfl trivial
  | .mapping members, fuel, hfuel, hsimple, hdistinct => by
    rw [layoutNode, Node.weight] at hfuel
    obtain ⟨fuel, rfl⟩ := Nat.exists_eq_succ_of_ne_zero (show fuel ≠ 0 by omega)
    have hfuel' := Nat.le_of_succ_le_succ hfuel
    have hmembers := constructPairs_members_iff members hfuel' hsimple hdistinct.2
    have hkeys := fieldsOf_of_nodup members.map_fst_fields hdistinct.1
    rw [Layout.parts, ← hmembers, layoutNode, Layout.value, hkeys,
      construct_mapping fuel fun p hp => exists_text_of_mem_memberNodes members hp]
    cases hfields : constructPairs fuel (memberNodes members) with
    | error => exact ⟨(fun h => nomatch h), (fun h => nomatch h)⟩
    | ok fields =>
      have hsame := fieldsOf_of_nodup (map_fst_of_constructPairs members hfuel' hsimple hfields) hdistinct.1
      show Except.ok (Value.mapping (Value.fieldsOf fields)) = _ ↔ _
      rw [hsame]
      simp

theorem constructAll_items_iff : ∀ (items : Items) {fuel : ℕ}, weights (itemNodes items) ≤ fuel →
    (∀ p ∈ items.parts, IsSimplePart p) → items.HaveDistinctKeys →
      (constructAll fuel (itemNodes items) = .ok items.values ↔ ∀ p ∈ items.parts, SaysSame p)
  | .last before item after, fuel, hfuel, hsimple, hdistinct => by
    simp only [itemNodes, weights] at hfuel
    obtain ⟨fuel, rfl⟩ := Nat.exists_eq_add_of_le' (show 2 ≤ fuel by omega)
    rw [Json.forall_parts_lastItem] at hsimple ⊢
    have hitem := construct_layout_iff item (show (layoutNode item).weight ≤ fuel + 1 by omega)
      hsimple.2.1 hdistinct
    rw [itemNodes, Items.values, constructAll_cons_eq_ok_iff, hitem]
    simp [SaysSame, constructAll]
  | .more before item after others, fuel, hfuel, hsimple, hdistinct => by
    simp only [itemNodes, weights] at hfuel
    obtain ⟨fuel, rfl⟩ := Nat.exists_eq_succ_of_ne_zero (show fuel ≠ 0 by omega)
    rw [Json.forall_parts_moreItem] at hsimple ⊢
    have hitem := construct_layout_iff item (show (layoutNode item).weight ≤ fuel by omega)
      hsimple.2.1 hdistinct.1
    have hothers := constructAll_items_iff others (show weights (itemNodes others) ≤ fuel by omega)
      hsimple.2.2.2 hdistinct.2
    rw [itemNodes, Items.values, constructAll_cons_eq_ok_iff, hitem, hothers]
    simp [SaysSame]

theorem constructPairs_members_iff : ∀ (members : Members) {fuel : ℕ},
    pairWeights (memberNodes members) ≤ fuel → (∀ p ∈ members.parts, IsSimplePart p) →
      members.HaveDistinctKeys →
        (constructPairs fuel (memberNodes members) = .ok members.fields ↔ ∀ p ∈ members.parts, SaysSame p)
  | .last key before v after, fuel => by
    intro hfuel hsimple hdistinct
    have hpos := weight_pos (layoutNode v)
    simp only [memberNodes, pairWeights, Node.weight] at hfuel
    obtain ⟨fuel, rfl⟩ := Nat.exists_eq_add_of_le' (show 2 ≤ fuel by omega)
    rw [Json.forall_parts_lastMember] at hsimple ⊢
    have hv := construct_layout_iff v (show (layoutNode v).weight ≤ fuel + 1 by omega) hsimple.2.2.1 hdistinct
    rw [memberNodes, foldedText_of_isSimple hsimple.1, Members.fields,
      constructPairs_cons_eq_ok_cons_iff, hv]
    simp [SaysSame, constructPairs]
  | .more key before v after others, fuel => by
    intro hfuel hsimple hdistinct
    have hpos := weight_pos (layoutNode v)
    simp only [memberNodes, pairWeights, Node.weight] at hfuel
    obtain ⟨fuel, rfl⟩ := Nat.exists_eq_add_of_le' (show 2 ≤ fuel by omega)
    rw [Json.forall_parts_moreMember] at hsimple ⊢
    have hv := construct_layout_iff v (show (layoutNode v).weight ≤ fuel + 1 by omega) hsimple.2.2.1 hdistinct.1
    have hothers := constructPairs_members_iff others
      (show pairWeights (memberNodes others) ≤ fuel + 1 by omega) hsimple.2.2.2.2 hdistinct.2
    rw [memberNodes, foldedText_of_isSimple hsimple.1, Members.fields,
      constructPairs_cons_eq_ok_cons_iff, hv, hothers]
    simp [SaysSame]

end

/-! ### Pages -/

instance : DecidableRel Apart := fun _ _ => inferInstanceAs (Decidable (_ ∧ _))

instance (cs : List Char) : Decidable (IsUnfolded cs) :=
  decidable_of_iff ('\u0085' ∉ cs ∧ cs.IsChain Apart) ⟨fun h => ⟨h.1, h.2⟩, fun h => ⟨h.1, h.2⟩⟩

/-- A part that YAML reads as JSON does. -/
def IsSharedPart : Part → Prop
  | .gap gap => '\t' ∉ gap.1
  | .key k => IsSimple k ∧ '\t' ∉ k.before.1 ∧ '\t' ∉ k.after.1
  | .word w _ => w.1 ∈ ["null", "true", "false"]
  | .number n => IsSpelledNumber n
  | .string ps => hasMark (piecesText ps ++ ['"']) = false ∧ IsUnfolded (piecesText ps)

instance : DecidablePred IsSharedPart
  | .gap gap => inferInstanceAs (Decidable ('\t' ∉ gap.1))
  | .key k => inferInstanceAs (Decidable (IsSimple k ∧ '\t' ∉ k.before.1 ∧ '\t' ∉ k.after.1))
  | .word w _ => inferInstanceAs (Decidable (w.1 ∈ _))
  | .number n => inferInstanceAs (Decidable (IsSpelledNumber n))
  | .string _ => inferInstanceAs (Decidable (_ ∧ _))

/-- A text that YAML reads as JSON does. -/
def IsShared (p : Page) : Prop :=
  (∀ c ∈ p.text, isAllowed c = true) ∧ ∀ q ∈ p.parts, IsSharedPart q

instance : DecidablePred IsShared := fun _ =>
  @instDecidableAnd _ _ (List.decidableBAll _ _) (List.decidableBAll _ _)

theorem isSharedPart_iff (q : Part) : IsSharedPart q ↔ CanScan q ∧ IsSimplePart q ∧ SaysSame q := by
  cases q with
  | gap gap => simp [IsSharedPart, CanScan, IsSimplePart, SaysSame]
  | word w hw => simp [IsSharedPart, CanScan, IsSimplePart, SaysSame]
  | number n => simp [IsSharedPart, CanScan, IsSimplePart, SaysSame]
  | string ps => simp [IsSharedPart, CanScan, IsSimplePart, SaysSame]
  | key k =>
    -- Without a break there is no mark behind one.
    have hmark (h : IsSimple k) : hasMark (piecesText k.pieces ++ ['"']) = false :=
      (hasMark_text (fun d hd => h.1 d (List.mem_append_left _ hd)) ['"']).trans (by decide)
    constructor
    · rintro ⟨hsimple, hbefore, hafter⟩
      exact ⟨⟨hbefore, hmark hsimple, hafter⟩, hsimple, trivial⟩
    · rintro ⟨⟨hbefore, -, hafter⟩, hsimple, -⟩
      exact ⟨hsimple, hbefore, hafter⟩

theorem forall_parts_page {P : Part → Prop} (p : Page) (hgap : ∀ gap, P (.gap gap)) :
    (∀ q ∈ p.parts, P q) ↔ ∀ q ∈ p.layout.parts, P q := by
  rw [Page.parts, List.forall_mem_cons, List.forall_mem_append, List.forall_mem_singleton]
  exact ⟨fun h => h.2.1, fun h => ⟨hgap _, h, hgap _⟩⟩

theorem isShared_iff (p : Page) : IsShared p ↔
    ((∀ c ∈ p.text, isAllowed c = true) ∧ ∀ q ∈ p.parts, CanScan q) ∧
      (∀ q ∈ p.layout.parts, IsSimplePart q) ∧ ∀ q ∈ p.layout.parts, SaysSame q := by
  have hparts : (∀ q ∈ p.parts, IsSharedPart q) ↔
      (∀ q ∈ p.parts, CanScan q) ∧ (∀ q ∈ p.parts, IsSimplePart q) ∧ ∀ q ∈ p.parts, SaysSame q := by
    simp only [isSharedPart_iff, ← forall₂_and]
  rw [IsShared, hparts, @forall_parts_page IsSimplePart p fun _ => trivial,
    @forall_parts_page SaysSame p fun _ => trivial, and_assoc]

/-- What is scanned and has simple keys is read as the value of its node. -/
theorem read_text_of_simple {p : Page} (hbrackets : isBracketed p.layout = true)
    (hscan : (∀ c ∈ p.text, isAllowed c = true) ∧ ∀ q ∈ p.parts, CanScan q)
    (hsimple : ∀ q ∈ p.layout.parts, IsSimplePart q) :
    read p.text =
      construct ((layoutNode p.layout).weight * ((layoutNode p.layout).weight + 2)) (layoutNode p.layout) := by
  obtain ⟨-, htokens⟩ := (ofText_text p hbrackets).resolve_right fun h => h.1 hscan
  have hnode := ofTokens?_layout p.layout
  rw [ifSimple, if_pos hsimple] at hnode
  rw [read, htokens]
  show (Node.ofTokens? (layoutTokens p.layout) >>= _) = _
  rw [hnode]
  rfl

/-- A list or mapping without repeated keys has in YAML the value that it has in JSON exactly if its
text is shared by both formats. -/
theorem read_text_iff (p : Page) (hbrackets : isBracketed p.layout = true)
    (hdistinct : p.layout.HasDistinctKeys) : read p.text = .ok p.layout.value ↔ IsShared p := by
  rw [isShared_iff]
  rcases ofText_text p hbrackets with ⟨hscan, htokens⟩ | ⟨hscan, t, htokens⟩
  · rw [and_iff_right hscan]
    by_cases hsimple : ∀ q ∈ p.layout.parts, IsSimplePart q
    · have hfuel : (layoutNode p.layout).weight ≤
          (layoutNode p.layout).weight * ((layoutNode p.layout).weight + 2) :=
        Nat.le_mul_of_pos_right _ (Nat.succ_pos _)
      rw [read_text_of_simple hbrackets hscan hsimple,
        construct_layout_iff p.layout hfuel hsimple hdistinct, and_iff_right hsimple]
    · have hnode := ofTokens?_layout p.layout
      rw [ifSimple, if_neg hsimple] at hnode
      refine iff_of_false (fun h => ?_) fun h => hsimple h.1
      rw [read, htokens] at h
      change (Node.ofTokens? (layoutTokens p.layout) >>= _) = _ at h
      rw [hnode] at h
      cases h
  · refine iff_of_false (fun h => ?_) fun h => hscan h.1
    rw [read, htokens] at h
    cases h

end ApiShell.Yaml
