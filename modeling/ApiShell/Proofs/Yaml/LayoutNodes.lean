import ApiShell.Proofs.Yaml.LayoutTokens
import ApiShell.Yaml.Reader

/-!
# The nodes of JSON texts

The tokens of a JSON value are put together to `layoutNode`: sequences and mappings as they are nested,
strings as folded texts, numbers and words as plain texts with the tag that their spelling implies.
What can fail are keys only.  In front of a key that is not simple there is no key token; its text is
read as a pair without a value, and the colon behind it is misplaced (`flowPairs_noKey`).  So reading a
value gives its node if all keys in it are simple and fails otherwise (`ifSimple`); this is proved along
the layout, with twice as much fuel as there are tokens (`node_layout`).
-/

namespace ApiShell.Yaml

open Json (Key Layout Items Members Page Part Numeral)

/-- A part that is no key, or a simple one. -/
def IsSimplePart : Part → Prop
  | .key k => IsSimple k
  | _ => True

instance : DecidablePred IsSimplePart
  | .key k => inferInstanceAs (Decidable (IsSimple k))
  | .gap _ | .word _ _ | .number _ | .string _ => .isTrue trivial

mutual

/-- The node of a value. -/
def layoutNode : Layout → Node
  | .word w _ => .scalar (implicitTag w.1) w.1
  | .number n => .scalar (implicitTag (String.ofList n.text)) (String.ofList n.text)
  | .string ps => .scalar (standardTag "str") (foldedText ps)
  | .emptyList _ => .sequence (standardTag "seq") []
  | .list items => .sequence (standardTag "seq") (itemNodes items)
  | .emptyMapping _ => .mapping (standardTag "map") []
  | .mapping members => .mapping (standardTag "map") (memberNodes members)

/-- The nodes of items. -/
def itemNodes : Items → List Node
  | .last _ item _ => [layoutNode item]
  | .more _ item _ items => layoutNode item :: itemNodes items

/-- The nodes of members. -/
def memberNodes : Members → List (Node × Node)
  | .last key _ v _ => [(.scalar (standardTag "str") (foldedText key.pieces), layoutNode v)]
  | .more key _ v _ members =>
    (.scalar (standardTag "str") (foldedText key.pieces), layoutNode v) :: memberNodes members

end

section

variable {rest : List Token} {handles : List (String × String)}
  {anchors : List (String × Option Node)}

theorem node_scalar (block entries : Bool) (fuel : ℕ) (plain : Bool) (text : String) :
    node block entries (fuel + 1) ⟨.scalar plain text :: rest, handles, anchors⟩ =
      .ok (.scalar (Reading.scalarTag none plain text) text, ⟨rest, handles, anchors⟩) := by
  rw [node]
  rfl

theorem node_sequence (block entries : Bool) (fuel : ℕ) :
    node block entries (fuel + 1) ⟨.flowSequenceStart :: rest, handles, anchors⟩ =
      (flowItems true fuel ⟨rest, handles, anchors⟩).map fun r =>
        (.sequence (standardTag "seq") r.1, r.2) := by
  rw [node]
  show (flowItems true fuel ⟨rest, handles, anchors⟩ >>= _) = _
  cases flowItems true fuel ⟨rest, handles, anchors⟩ <;> rfl

theorem node_mapping (block entries : Bool) (fuel : ℕ) :
    node block entries (fuel + 1) ⟨.flowMappingStart :: rest, handles, anchors⟩ =
      (flowPairs true fuel ⟨rest, handles, anchors⟩).map fun r =>
        (.mapping (standardTag "map") r.1, r.2) := by
  rw [node]
  show (flowPairs true fuel ⟨rest, handles, anchors⟩ >>= _) = _
  cases flowPairs true fuel ⟨rest, handles, anchors⟩ <;> rfl

theorem flowItems_end (first : Bool) (fuel : ℕ) :
    flowItems first (fuel + 1) ⟨.flowSequenceEnd :: rest, handles, anchors⟩ =
      .ok ([], ⟨rest, handles, anchors⟩) := by
  rw [flowItems]
  rfl

theorem flowPairs_end (first : Bool) (fuel : ℕ) :
    flowPairs first (fuel + 1) ⟨.flowMappingEnd :: rest, handles, anchors⟩ =
      .ok ([], ⟨rest, handles, anchors⟩) := by
  rw [flowPairs]
  rfl

/-- The comma in front of an entry that is not the first one. -/
def comma (first : Bool) : List Token := if first then [] else [.flowEntry]

/-- A token that begins a value. -/
def BeginsNode (ts : List Token) : Prop :=
  ∃ t more, ts = t :: more ∧
    ((∃ plain text, t = .scalar plain text) ∨ t = .flowSequenceStart ∨ t = .flowMappingStart)

/-- An item that is no pair. -/
theorem flowItems_node (first : Bool) (fuel : ℕ) (h : BeginsNode rest) :
    flowItems first (fuel + 1) ⟨comma first ++ rest, handles, anchors⟩ =
      node false false fuel ⟨rest, handles, anchors⟩ >>= fun r =>
        (flowItems false fuel r.2).map fun r' => (r.1 :: r'.1, r'.2) := by
  obtain ⟨t, more, rfl, ht⟩ := h
  have hitem : flowItems first (fuel + 1) ⟨comma first ++ t :: more, handles, anchors⟩ =
      node false false fuel ⟨t :: more, handles, anchors⟩ >>= fun r =>
        flowItems false fuel r.2 >>= fun r' => pure (r.1 :: r'.1, r'.2) := by
    rw [flowItems]
    rcases ht with ⟨plain, text, rfl⟩ | rfl | rfl <;> cases first <;> rfl
  rw [hitem]
  cases node false false fuel ⟨t :: more, handles, anchors⟩ with
  | error => rfl
  | ok r =>
    show (flowItems false fuel r.2 >>= _) = (flowItems false fuel r.2).map _
    cases flowItems false fuel r.2 <;> rfl

/-- A pair whose key is simple. -/
theorem flowPairs_key (first : Bool) (fuel : ℕ) (text : String) (h : BeginsNode rest) :
    flowPairs first (fuel + 4) ⟨comma first ++ .key :: .scalar false text :: .value :: rest, handles,
        anchors⟩ =
      node false false (fuel + 1) ⟨rest, handles, anchors⟩ >>= fun r =>
        (flowPairs false (fuel + 3) r.2).map fun r' =>
          ((.scalar (standardTag "str") text, r.1) :: r'.1, r'.2) := by
  obtain ⟨t, more, rfl, ht⟩ := h
  have hvalue : flowValue [.flowEntry, .flowMappingEnd] (fuel + 3)
      ⟨.value :: t :: more, handles, anchors⟩ =
        node false false (fuel + 1) ⟨t :: more, handles, anchors⟩ := by
    rw [flowValue]
    show nodeOrEmpty false false _ (fuel + 2) ⟨t :: more, handles, anchors⟩ = _
    rw [nodeOrEmpty]
    rcases ht with ⟨plain, text, rfl⟩ | rfl | rfl <;> rfl
  have hpair : flowPairs first (fuel + 4) ⟨comma first ++ .key :: .scalar false text :: .value ::
        t :: more, handles, anchors⟩ =
      flowValue [.flowEntry, .flowMappingEnd] (fuel + 3) ⟨.value :: t :: more, handles, anchors⟩ >>=
        fun r => flowPairs false (fuel + 3) r.2 >>= fun r' =>
          pure ((.scalar (standardTag "str") text, r.1) :: r'.1, r'.2) := by
    have hkey : nodeOrEmpty false false [.value, .flowEntry, .flowMappingEnd] (fuel + 3)
        ⟨.scalar false text :: .value :: t :: more, handles, anchors⟩ =
          .ok (.scalar (standardTag "str") text, ⟨.value :: t :: more, handles, anchors⟩) := by
      rw [nodeOrEmpty]
      exact node_scalar false false (fuel + 1) false text
    rw [flowPairs]
    cases first
    all_goals
      show (nodeOrEmpty false false [.value, .flowEntry, .flowMappingEnd] (fuel + 3)
        ⟨.scalar false text :: .value :: t :: more, handles, anchors⟩ >>= _) = _
      rw [hkey]
      rfl
  rw [hpair, hvalue]
  cases node false false (fuel + 1) ⟨t :: more, handles, anchors⟩ with
  | error => rfl
  | ok r =>
    show (flowPairs false (fuel + 3) r.2 >>= _) = (flowPairs false (fuel + 3) r.2).map _
    cases flowPairs false (fuel + 3) r.2 <;> rfl

/-- A key that is not simple is a pair without a value, and a colon cannot stand behind that. -/
theorem flowPairs_noKey (first : Bool) (fuel : ℕ) (text : String) :
    flowPairs first (fuel + 2) ⟨comma first ++ .scalar false text :: .value :: rest, handles, anchors⟩ =
      Reading.misplaced := by
  have hcolon : flowPairs false (fuel + 1) ⟨.value :: rest, handles, anchors⟩ = Reading.misplaced := by
    rw [flowPairs]
    rfl
  have hentry : flowPairs first (fuel + 2)
      ⟨comma first ++ .scalar false text :: .value :: rest, handles, anchors⟩ =
        node false false (fuel + 1) ⟨.scalar false text :: .value :: rest, handles, anchors⟩ >>=
          fun r => flowPairs false (fuel + 1) r.2 >>= fun r' => pure ((r.1, .empty) :: r'.1, r'.2) := by
    rw [flowPairs]
    cases first <;> rfl
  rw [hentry, node_scalar]
  show (flowPairs false (fuel + 1) ⟨.value :: rest, handles, anchors⟩ >>= fun r' =>
    pure ((Node.scalar (standardTag "str") text, Node.empty) :: r'.1, r'.2)) = _
  rw [hcolon]
  rfl

/-! ### Layouts -/

theorem beginsNode_layout (t : Layout) (rest : List Token) : BeginsNode (layoutTokens t ++ rest) := by
  cases t with
  | word w => exact ⟨_, _, rfl, .inl ⟨_, _, rfl⟩⟩
  | number n => exact ⟨_, _, rfl, .inl ⟨_, _, rfl⟩⟩
  | string ps => exact ⟨_, _, rfl, .inl ⟨_, _, rfl⟩⟩
  | emptyList => exact ⟨_, _, rfl, .inr (.inl rfl)⟩
  | list => exact ⟨_, _, rfl, .inr (.inl rfl)⟩
  | emptyMapping => exact ⟨_, _, rfl, .inr (.inr rfl)⟩
  | mapping => exact ⟨_, _, rfl, .inr (.inr rfl)⟩

theorem layoutTokens_length_pos (t : Layout) : 0 < (layoutTokens t).length := by
  cases t <;> exact Nat.succ_pos _

/-- A result where all keys are simple. -/
def ifSimple {α : Type} (ps : List Part) (a : α) : Except Trouble α :=
  if ∀ p ∈ ps, IsSimplePart p then .ok a else Reading.misplaced

theorem ifSimple_nil {α : Type} (a : α) : ifSimple [] a = .ok a := if_pos (by simp)

theorem ifSimple_map {α β : Type} (ps : List Part) (a : α) (f : α → β) :
    (ifSimple ps a).map f = ifSimple ps (f a) := by
  unfold ifSimple
  split <;> rfl

theorem ifSimple_congr {α : Type} {ps qs : List Part}
    (h : (∀ p ∈ ps, IsSimplePart p) ↔ ∀ p ∈ qs, IsSimplePart p) (a : α) :
    ifSimple ps a = ifSimple qs a := by
  by_cases hqs : ∀ p ∈ qs, IsSimplePart p
  · rw [ifSimple, ifSimple, if_pos hqs, if_pos (h.2 hqs)]
  · rw [ifSimple, ifSimple, if_neg hqs, if_neg fun hps => hqs (h.1 hps)]

/-- What is read in two steps needs the simple keys of both. -/
theorem ifSimple_bind {α β γ : Type} (f : α → Except Trouble β) (g : α → β → γ) {a : α} {b : β}
    {c : γ} {ps qs rs : List Part} (hf : f a = ifSimple qs b) (hg : g a b = c)
    (hparts : (∀ p ∈ rs, IsSimplePart p) ↔ (∀ p ∈ ps, IsSimplePart p) ∧ ∀ p ∈ qs, IsSimplePart p) :
    (ifSimple ps a >>= fun r => (f r).map (g r)) = ifSimple rs c := by
  subst hg
  by_cases hps : ∀ p ∈ ps, IsSimplePart p
  · rw [ifSimple, if_pos hps]
    show (f a).map (g a) = _
    rw [hf, ifSimple_map]
    exact ifSimple_congr ((hparts.trans (and_iff_right hps)).symm) _
  · rw [ifSimple, if_neg hps, ifSimple, if_neg fun hrs => hps (hparts.1 hrs).1]
    rfl

theorem keyTokens_of_isSimple {k : Key} (h : IsSimple k) :
    keyTokens k = [.key, .scalar false (foldedText k.pieces), .value] := by
  rw [keyTokens, if_pos h]
  rfl

theorem keyTokens_of_not_isSimple {k : Key} (h : ¬ IsSimple k) :
    keyTokens k = [.scalar false (foldedText k.pieces), .value] := by
  rw [keyTokens, if_neg h]
  rfl

theorem two_le_keyTokens (k : Key) : 2 ≤ (keyTokens k).length := by
  rw [keyTokens, List.length_append]
  exact Nat.le_add_left _ _

/-- A member and what follows it. -/
theorem flowPairs_member (first : Bool) (fuel : ℕ) {k : Key} {v : Node} {vTokens : List Token}
    {ps qs rs : List Part} {pairs : List (Node × Node)} {r : Reading}
    (hv : node false false (fuel + 1) ⟨vTokens ++ rest, handles, anchors⟩ =
      ifSimple ps (v, ⟨rest, handles, anchors⟩))
    (hbegins : BeginsNode (vTokens ++ rest))
    (hnext : flowPairs false (fuel + 3) ⟨rest, handles, anchors⟩ = ifSimple qs (pairs, r))
    (hparts : (∀ p ∈ rs, IsSimplePart p) ↔
      IsSimple k ∧ (∀ p ∈ ps, IsSimplePart p) ∧ ∀ p ∈ qs, IsSimplePart p) :
    flowPairs first (fuel + 4) ⟨comma first ++ (keyTokens k ++ (vTokens ++ rest)), handles, anchors⟩ =
      ifSimple rs ((.scalar (standardTag "str") (foldedText k.pieces), v) :: pairs, r) := by
  by_cases hsimple : IsSimple k
  · rw [keyTokens_of_isSimple hsimple, List.cons_append, List.cons_append, List.cons_append,
      List.nil_append, flowPairs_key first fuel (foldedText k.pieces) hbegins, hv]
    exact ifSimple_bind (fun r : Node × Reading => flowPairs false (fuel + 3) r.2)
      (fun r r' => ((.scalar (standardTag "str") (foldedText k.pieces), r.1) :: r'.1, r'.2))
      (a := (v, ⟨rest, handles, anchors⟩)) hnext rfl (hparts.trans (and_iff_right hsimple))
  · rw [keyTokens_of_not_isSimple hsimple, List.cons_append, List.cons_append, List.nil_append,
      flowPairs_noKey first (fuel + 2), ifSimple, if_neg fun h => hsimple (hparts.1 h).1]

mutual

/-- The tokens of a value are put together to its node if its keys are simple. -/
theorem node_layout : ∀ (t : Layout) (block entries : Bool) {fuel : ℕ} (rest : List Token),
    2 * (layoutTokens t).length ≤ fuel →
      node block entries fuel ⟨layoutTokens t ++ rest, handles, anchors⟩ =
        ifSimple t.parts (layoutNode t, ⟨rest, handles, anchors⟩)
  | .word w hw, block, entries, fuel, rest, hfuel => by
    obtain ⟨fuel, rfl⟩ := Nat.exists_eq_add_of_le' hfuel
    rw [ifSimple, if_pos (by simp [Layout.parts, IsSimplePart])]
    exact node_scalar block entries (fuel + 1) true w.1
  | .number n, block, entries, fuel, rest, hfuel => by
    obtain ⟨fuel, rfl⟩ := Nat.exists_eq_add_of_le' hfuel
    rw [ifSimple, if_pos (by simp [Layout.parts, IsSimplePart])]
    exact node_scalar block entries (fuel + 1) true (String.ofList n.text)
  | .string ps, block, entries, fuel, rest, hfuel => by
    obtain ⟨fuel, rfl⟩ := Nat.exists_eq_add_of_le' hfuel
    rw [ifSimple, if_pos (by simp [Layout.parts, IsSimplePart])]
    exact node_scalar block entries (fuel + 1) false (foldedText ps)
  | .emptyList gap, block, entries, fuel, rest, hfuel => by
    obtain ⟨fuel, rfl⟩ := Nat.exists_eq_add_of_le' hfuel
    rw [ifSimple, if_pos (by simp [Layout.parts, IsSimplePart])]
    show node block entries (fuel + 4) ⟨.flowSequenceStart :: .flowSequenceEnd :: rest, _, _⟩ = _
    rw [node_sequence, flowItems_end]
    rfl
  | .list items, block, entries, fuel, rest, hfuel => by
    simp only [layoutTokens, List.length_cons, List.length_append] at hfuel
    obtain ⟨fuel, rfl⟩ := Nat.exists_eq_succ_of_ne_zero (show fuel ≠ 0 by omega)
    have hitems := @flowItems_items items true fuel rest (by omega)
    rw [layoutTokens, List.cons_append, List.append_assoc, node_sequence]
    show (flowItems true fuel ⟨comma true ++ (itemTokens items ++ .flowSequenceEnd :: rest), _, _⟩).map _ = _
    rw [hitems, ifSimple_map]
    rfl
  | .emptyMapping gap, block, entries, fuel, rest, hfuel => by
    obtain ⟨fuel, rfl⟩ := Nat.exists_eq_add_of_le' hfuel
    rw [ifSimple, if_pos (by simp [Layout.parts, IsSimplePart])]
    show node block entries (fuel + 4) ⟨.flowMappingStart :: .flowMappingEnd :: rest, _, _⟩ = _
    rw [node_mapping, flowPairs_end]
    rfl
  | .mapping members, block, entries, fuel, rest, hfuel => by
    simp only [layoutTokens, List.length_cons, List.length_append] at hfuel
    obtain ⟨fuel, rfl⟩ := Nat.exists_eq_succ_of_ne_zero (show fuel ≠ 0 by omega)
    have hmembers := @flowPairs_members members true fuel rest (by omega)
    rw [layoutTokens, List.cons_append, List.append_assoc, node_mapping]
    show (flowPairs true fuel ⟨comma true ++ (memberTokens members ++ .flowMappingEnd :: rest), _, _⟩).map _ = _
    rw [hmembers, ifSimple_map]
    rfl

/-- The tokens of items are put together to their nodes. -/
theorem flowItems_items : ∀ (items : Items) (first : Bool) {fuel : ℕ} (rest : List Token),
    2 * (itemTokens items).length + 1 ≤ fuel →
      flowItems first fuel
          ⟨comma first ++ (itemTokens items ++ .flowSequenceEnd :: rest), handles, anchors⟩ =
        ifSimple items.parts (itemNodes items, ⟨rest, handles, anchors⟩)
  | .last before item after, first, fuel, rest, hfuel => by
    obtain ⟨fuel, rfl⟩ := Nat.exists_eq_add_of_le' (show 2 ≤ fuel by
      have hpos := layoutTokens_length_pos item
      rw [itemTokens] at hfuel
      omega)
    have hnext : flowItems false (fuel + 1) ⟨.flowSequenceEnd :: rest, handles, anchors⟩ =
        ifSimple [] ([], ⟨rest, handles, anchors⟩) := by
      rw [flowItems_end, ifSimple_nil]
    rw [itemTokens] at hfuel ⊢
    rw [flowItems_node first (fuel + 1) (beginsNode_layout item _),
      node_layout item false false _ (by omega)]
    refine ifSimple_bind (fun r : Node × Reading => flowItems false (fuel + 1) r.2)
      (fun r r' => (r.1 :: r'.1, r'.2)) hnext rfl ?_
    rw [Json.forall_parts_lastItem]
    simp [IsSimplePart]
  | .more before item after others, first, fuel, rest, hfuel => by
    obtain ⟨fuel, rfl⟩ := Nat.exists_eq_succ_of_ne_zero (show fuel ≠ 0 by omega)
    simp only [itemTokens, List.length_append, List.length_cons] at hfuel
    have hpos := layoutTokens_length_pos item
    have hnext := @flowItems_items others false fuel rest (by omega)
    rw [itemTokens, List.append_assoc, flowItems_node first fuel (beginsNode_layout item _),
      node_layout item false false _ (by omega)]
    refine ifSimple_bind (fun r : Node × Reading => flowItems false fuel r.2)
      (fun r r' => (r.1 :: r'.1, r'.2)) hnext rfl ?_
    rw [Json.forall_parts_moreItem]
    simp [IsSimplePart]

/-- The tokens of members are put together to their pairs. -/
theorem flowPairs_members : ∀ (members : Members) (first : Bool) {fuel : ℕ} (rest : List Token),
    2 * (memberTokens members).length + 1 ≤ fuel →
      flowPairs first fuel
          ⟨comma first ++ (memberTokens members ++ .flowMappingEnd :: rest), handles, anchors⟩ =
        ifSimple members.parts (memberNodes members, ⟨rest, handles, anchors⟩)
  | .last k before v after, first, fuel, rest => by
    intro hfuel
    simp only [memberTokens, List.length_append] at hfuel
    have hkey := two_le_keyTokens k
    have hpos := layoutTokens_length_pos v
    obtain ⟨fuel, rfl⟩ := Nat.exists_eq_add_of_le' (show 4 ≤ fuel by omega)
    rw [memberTokens, List.append_assoc]
    refine flowPairs_member first fuel (node_layout v false false _ (by omega))
      (beginsNode_layout v _) ((flowPairs_end false (fuel + 2)).trans (ifSimple_nil _).symm) ?_
    rw [Json.forall_parts_lastMember]
    simp [IsSimplePart]
  | .more k before v after others, first, fuel, rest => by
    intro hfuel
    simp only [memberTokens, List.length_append, List.length_cons] at hfuel
    have hkey := two_le_keyTokens k
    have hpos := layoutTokens_length_pos v
    obtain ⟨fuel, rfl⟩ := Nat.exists_eq_add_of_le' (show 4 ≤ fuel by omega)
    rw [memberTokens, List.append_assoc, List.append_assoc]
    refine flowPairs_member first fuel (node_layout v false false _ (by omega))
      (beginsNode_layout v _) (@flowPairs_members others false (fuel + 3) rest (by omega)) ?_
    rw [Json.forall_parts_moreMember]
    simp [IsSimplePart]

end

end

/-- A value is the only document of its tokens if its keys are simple. -/
theorem ofTokens?_layout (t : Layout) :
    Node.ofTokens? (layoutTokens t) = ifSimple t.parts (some (layoutNode t)) := by
  have hnode : node true false (4 * (layoutTokens t).length + 4) ⟨layoutTokens t, defaultHandles, []⟩ =
      ifSimple t.parts (layoutNode t, ⟨[], defaultHandles, []⟩) := by
    have hread := @node_layout defaultHandles [] t true false (4 * (layoutTokens t).length + 4) []
      (by omega)
    rwa [List.append_nil] at hread
  have hdocument : Node.ofTokens? (layoutTokens t) =
      node true false (4 * (layoutTokens t).length + 4) ⟨layoutTokens t, defaultHandles, []⟩ >>=
        fun r => endOfText r.2 >>= fun _ => pure (some r.1) := by
    obtain ⟨start, more, htokens, hstart⟩ := beginsNode_layout t []
    rw [List.append_nil] at htokens
    rw [htokens]
    rcases hstart with ⟨plain, text, rfl⟩ | rfl | rfl <;> rfl
  rw [hdocument, hnode, ifSimple, ifSimple]
  split <;> rfl

end ApiShell.Yaml
