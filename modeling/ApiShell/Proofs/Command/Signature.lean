import ApiShell.Proofs.Command.Sorting
import ApiShell.Proofs.Entries

/-!
# Generated definitions are accepted

The identifiers of a command's arguments and flags are told apart while its parameters are sorted: each
new one differs from all that are taken, and those of the context and of the options that every command
has are taken from the start.  The names that a definition has for types, defaults and for what it calls
start with an underscore and a letter, which no identifier does.  So a definition is refused only for a
zero character in its title, and what is read off it is what the command takes.
-/

namespace ApiShell.Command

open Run (AppendsOnly)
open Spec (Endpoint Parameter)
open CommandLine (OptionDecl)

/-! ### Identifiers -/

/-- The identifiers of the arguments and flags of a command. -/
def Leaf.identifiers (l : Leaf) : List String :=
  l.arguments.map (·.identifier) ++ l.flags.map (·.identifier)

/-- The identifiers that are made while parameters are sorted. -/
def Sorted.made (s : Sorted) : List String :=
  s.arguments.map (·.identifier) ++ s.flags.map (·.identifier)

/-- The identifiers that are taken are those that are made and the reserved ones.  They differ from each
other, and those that are made are plain and no keywords. -/
structure Sorted.Identifies (s : Sorted) : Prop where
  perm : s.identifiers.Perm (s.made ++ reservedIdentifiers)
  nodup : s.identifiers.Nodup
  plain : ∀ n ∈ s.made, IsPlain n ∧ n ∉ keywords

theorem reservedIdentifiers_eq :
    reservedIdentifiers = contextName :: commonOptions.map (·.identifier) := rfl

namespace Sorted

variable {s s' : Sorted} {p : Parameter}

theorem Identifies.start : Identifies {} where
  perm := .refl _
  nodup := by decide
  plain _ hn := absurd hn List.not_mem_nil

/-- An identifier that is made for a name is told apart from all that are taken. -/
theorem Identifies.make (h : s.Identifies) {name identifier : String}
    (hidentifier : identifier = unique name s.identifiers)
    (hidentifiers : s'.identifiers = identifier :: s.identifiers)
    (hmade : s'.made.Perm (identifier :: s.made)) : s'.Identifies where
  perm := by
    rw [hidentifiers]
    exact (h.perm.cons identifier).trans (hmade.symm.append_right reservedIdentifiers)
  nodup := by
    rw [hidentifiers, List.nodup_cons, hidentifier]
    exact ⟨unique_notMem name s.identifiers, h.nodup⟩
  plain n hn := by
    rcases List.mem_cons.1 (hmade.mem_iff.1 hn) with rfl | hn
    · rw [hidentifier]
      exact unique_plain name s.identifiers
    · exact h.plain n hn

/-- Identifiers are told apart in each round. -/
theorem Identifies.round (h : s.Identifies) (hadd : s.Adds p s') : s'.Identifies := by
  cases hadd with
  | repeated _ => exact h
  | refused _ _ _ => exact ⟨h.perm, h.nodup, h.plain⟩
  | clashing _ _ _ _ _ _ => exact ⟨h.perm, h.nodup, h.plain⟩
  | argument a _ _ _ hidentifier =>
    refine h.make hidentifier rfl ?_
    rw [made, List.map_append, List.map_singleton, List.append_assoc, List.singleton_append]
    exact List.perm_middle
  | flag f _ _ _ _ hidentifier _ =>
    refine h.make hidentifier rfl ?_
    rw [made, List.map_append, List.map_singleton, ← List.append_assoc]
    exact List.perm_append_singleton _ _

end Sorted

/-- The identifiers of a command differ from each other and from the reserved ones, and they are plain
and no keywords. -/
theorem identifiers_of_compileEndpoint {e : Endpoint} {l : Leaf}
    (h : (compileEndpoint e).answer = .ok l) :
    (l.identifiers ++ reservedIdentifiers).Nodup ∧
      ∀ n ∈ l.identifiers, IsPlain n ∧ n ∉ keywords := by
  obtain ⟨s, hs, harguments, hflags⟩ := compileEndpoint_induction h
    (I := fun _ s => s.Identifies) .start fun _ _ _ _ hI hadd => hI.round hadd
  rw [Leaf.identifiers, harguments, hflags]
  exact ⟨hs.perm.nodup_iff.1 hs.nodup, hs.plain⟩

/-! ### Names in a definition -/

/-- A word that starts with an underscore and a letter is an identifier. -/
theorem isIdentifier_of_underscore {word : String} (c : Char) (cs : List Char)
    (hword : word.toList = '_' :: c :: cs) (hc : c.isLower) (hcs : ∀ d ∈ cs, isPlainChar d) :
    isIdentifier word := by
  have hshaped : isIdentifierShaped word.toList := by
    rw [hword, isIdentifierShaped, Bool.and_eq_true, List.all_eq_true]
    refine ⟨rfl, fun d hd => isTrailingChar_of_isPlainChar ?_⟩
    rcases List.mem_cons.1 hd with rfl | hd
    · rw [isPlainChar, isIdentifierChar, hc, Bool.true_or, Bool.true_or]
    · exact hcs d hd
  have hkeyword : word ∉ keywords := by
    refine notMem_keywords_of_underscore ?_
    rw [hword]
    exact List.mem_cons_self
  have hconstant : word ∉ constants := by
    have hnone : ∀ w ∈ constants, ¬ (w.toList.head? = some '_' ∧ w.toList[1]?.any Char.isLower) := by
      decide
    refine fun hmem => hnone word hmem ?_
    rw [hword]
    exact ⟨rfl, hc⟩
  rw [isIdentifier, hshaped, List.contains_eq_mem, List.contains_eq_mem, decide_eq_false hkeyword,
    decide_eq_false hconstant]
  rfl

/-- Names that are made by putting such a start before a label are identifiers. -/
theorem isIdentifier_of_label {word label : String} (c : Char) (start : List Char)
    (hword : word.toList = '_' :: c :: start ++ label.toList) (hc : c.isLower)
    (hstart : start.all isPlainChar) (hlabel : ∀ d ∈ label.toList, isPlainChar d) :
    isIdentifier word := by
  refine isIdentifier_of_underscore c (start ++ label.toList) hword hc fun d hd => ?_
  exact (List.mem_append.1 hd).elim (List.all_eq_true.1 hstart d) (hlabel d)

theorem isIdentifier_typeName {label : String} (h : ∀ c ∈ label.toList, isPlainChar c) :
    isIdentifier (typeName label) :=
  isIdentifier_of_label 'a' "nn_".toList (toList_typeName label) (by decide) (by decide) h

theorem isIdentifier_defaultName {label : String} (h : ∀ c ∈ label.toList, isPlainChar c) :
    isIdentifier (defaultName label) :=
  isIdentifier_of_label 'd' "efault_".toList (toList_defaultName label) (by decide) (by decide) h

/-- What is left of a text that is trimmed was there before. -/
theorem mem_of_mem_trimOf {p : Char → Bool} {cs : List Char} {c : Char}
    (h : c ∈ Text.trimOf p cs) : c ∈ cs := by
  rw [Text.trimOf, Text.trimRightOf, List.mem_reverse] at h
  have hleft := List.mem_reverse.1 ((List.dropWhile_sublist p).subset h)
  exact (List.dropWhile_sublist p).subset hleft

theorem isPlainChar_of_mem_slug {s : String} {c : Char} (h : c ∈ (slug s).toList) :
    isPlainChar c := by
  unfold slug at h
  dsimp only at h
  split at h
  · have hword : ∀ d ∈ "cmd".toList, isPlainChar d := List.all_eq_true.1 (by decide)
    exact hword c h
  · rw [String.toList_ofList] at h
    obtain ⟨d, -, rfl⟩ := List.mem_map.1 (mem_of_mem_trimOf h)
    by_cases hd : isIdentifierChar d
    · rw [if_pos hd, isPlainChar, hd, Bool.true_or]
    · rw [if_neg hd]
      rfl

theorem isIdentifier_definition_name (api : String) (l : Leaf) :
    isIdentifier (l.definition api).name := by
  have hname : (l.definition api).name = "_cmd_" ++ slug api ++ "_" ++ slug l.name := rfl
  refine isIdentifier_of_underscore 'c'
    ("md_".toList ++ (slug api).toList ++ "_".toList ++ (slug l.name).toList) ?_ (by decide)
    fun c hc => ?_
  · rw [hname, String.toList_append, String.toList_append, String.toList_append]
    rfl
  · have hparts : ∀ d ∈ "md_".toList ++ "_".toList, isPlainChar d := List.all_eq_true.1 (by decide)
    simp only [List.mem_append] at hc hparts
    rcases hc with ((hc | hc) | hc) | hc
    · exact hparts c (.inl hc)
    · exact isPlainChar_of_mem_slug hc
    · exact hparts c (.inr hc)
    · exact isPlainChar_of_mem_slug hc

/-! ### The parameters of a definition -/

section Places

variable {α β γ : Type} {f : Nat → α → β}

/-- What is made of a list with its places does not depend on the places if none of its members does. -/
theorem filterMap_mapIdx {g : β → Option γ} {h : α → Option γ} (hfg : ∀ i a, g (f i a) = h a)
    (as : List α) : (as.mapIdx f).filterMap g = as.filterMap h := by
  induction as generalizing f with
  | nil => rfl
  | cons a as ih =>
    rw [List.mapIdx_cons, List.filterMap_cons, List.filterMap_cons, hfg,
      ih fun i a => hfg (i + 1) a]

theorem map_mapIdx {g : β → γ} {h : α → γ} (hfg : ∀ i a, g (f i a) = h a) (as : List α) :
    (as.mapIdx f).map g = as.map h := by
  rw [← List.filterMap_eq_map', ← List.filterMap_eq_map']
  exact filterMap_mapIdx (f := f) (g := fun b => some (g b)) (fun i a => congrArg some (hfg i a)) as

/-- What is made of the places of a list alone is made of as many numbers. -/
theorem map_mapIdx_range {g : β → γ} {h : Nat → γ} (hfg : ∀ i a, g (f i a) = h i) (as : List α) :
    (as.mapIdx f).map g = (List.range as.length).map h := by
  refine List.ext_getElem (by simp) fun i _ _ => ?_
  rw [List.getElem_map, List.getElem_map, List.getElem_mapIdx, List.getElem_range, hfg]

end Places

/-- The labels of parameters for arguments count them. -/
theorem label_argument_slot (i : Nat) (a : Argument) : (a.slot i).label = numbered "arg" i := by
  refine String.ext ?_
  rw [toList_numbered, ← Nat.toList_repr]
  exact String.toList_append

/-- The labels of parameters for flags count them. -/
theorem label_flag_slot (i : Nat) (f : Flag) : (f.slot i).label = numbered "opt" i := by
  refine String.ext ?_
  rw [toList_numbered, ← Nat.toList_repr]
  exact String.toList_append

/-- The names of the parameters are the identifiers of the command and those of the options that every
command has. -/
theorem map_name_slots (l : Leaf) :
    l.slots.map (·.name) = l.identifiers ++ commonOptions.map (·.identifier) := by
  have harguments : (l.arguments.mapIdx Argument.slot).map (·.name) =
      l.arguments.map (·.identifier) := map_mapIdx (f := Argument.slot) (fun _ _ => rfl) _
  have hflags : (l.flags.mapIdx Flag.slot).map (·.name) = l.flags.map (·.identifier) :=
    map_mapIdx (f := Flag.slot) (fun _ _ => rfl) _
  rw [Leaf.slots, List.map_append, List.map_append, harguments, hflags, List.map_map,
    Leaf.identifiers]
  rfl

/-- The labels of the parameters. -/
theorem map_label_slots (l : Leaf) :
    l.slots.map (·.label) =
      (List.range l.arguments.length).map (numbered "arg") ++
        (List.range l.flags.length).map (numbered "opt") ++
        commonOptions.map fun o => (commonSlot o).label := by
  rw [Leaf.slots, List.map_append, List.map_append, map_mapIdx_range label_argument_slot,
    map_mapIdx_range label_flag_slot, List.map_map]
  rfl

/-- A label is made of plain characters. -/
theorem isPlainChar_of_mem_label {l : Leaf} {s : Slot} (hs : s ∈ l.slots) {c : Char}
    (hc : c ∈ s.label.toList) : isPlainChar c := by
  have hlabel : s.label ∈ l.slots.map (·.label) := List.mem_map_of_mem hs
  rw [map_label_slots, List.mem_append, List.mem_append] at hlabel
  rcases hlabel with (hlabel | hlabel) | hlabel
  · obtain ⟨i, -, hi⟩ := List.mem_map.1 hlabel
    have hword : ∀ d ∈ "arg".toList, isPlainChar d := List.all_eq_true.1 (by decide)
    exact isPlainChar_of_mem_numbered hword (hi ▸ hc)
  · obtain ⟨i, -, hi⟩ := List.mem_map.1 hlabel
    have hword : ∀ d ∈ "opt".toList, isPlainChar d := List.all_eq_true.1 (by decide)
    exact isPlainChar_of_mem_numbered hword (hi ▸ hc)
  · have hall : (commonOptions.map fun o => (commonSlot o).label).all
        fun w => w.toList.all isPlainChar := by decide +kernel
    exact List.all_eq_true.1 (List.all_eq_true.1 hall s.label hlabel) c hc

/-- Numbered words start like their base. -/
theorem head?_of_mem_map_numbered {base : String} {c : Char} (hbase : base.toList.head? = some c)
    {ns : List Nat} {w : String} (hw : w ∈ ns.map (numbered base)) :
    w.toList.head? = some c := by
  obtain ⟨n, -, rfl⟩ := List.mem_map.1 hw
  rw [toList_numbered, List.head?_append, hbase, Option.some_or]

/-- The labels set the parameters apart from each other and from the one for the context. -/
theorem nodup_labels (l : Leaf) : (contextName :: l.slots.map (·.label)).Nodup := by
  have harg : ∀ w ∈ (List.range l.arguments.length).map (numbered "arg"),
      w.toList.head? = some 'a' := fun w hw => head?_of_mem_map_numbered (by decide) hw
  have hopt : ∀ w ∈ (List.range l.flags.length).map (numbered "opt"),
      w.toList.head? = some 'o' := fun w hw => head?_of_mem_map_numbered (by decide) hw
  have hgen : ∀ w ∈ commonOptions.map fun o => (commonSlot o).label,
      w.toList.head? = some 'g' := by decide +kernel
  have hapart : ∀ {v w : String} {c d : Char}, v.toList.head? = some c → w.toList.head? = some d →
      c ≠ d → v ≠ w := by
    rintro v w c d hv hw hcd rfl
    exact hcd (Option.some.inj (hv.symm.trans hw))
  rw [map_label_slots, List.nodup_cons, List.nodup_append, List.nodup_append]
  refine ⟨fun hctx => ?_, ⟨List.nodup_range.map (numbered_injective "arg"),
    List.nodup_range.map (numbered_injective "opt"), fun v hv w hw => ?_⟩, by decide +kernel,
    fun v hv w hw => ?_⟩
  · rw [List.mem_append, List.mem_append] at hctx
    have hc : contextName.toList.head? = some 'c' := by decide
    rcases hctx with (hctx | hctx) | hctx
    · exact hapart hc (harg _ hctx) (by decide) rfl
    · exact hapart hc (hopt _ hctx) (by decide) rfl
    · exact hapart hc (hgen _ hctx) (by decide) rfl
  · exact hapart (harg v hv) (hopt w hw) (by decide)
  · rcases List.mem_append.1 hv with hv | hv
    · exact hapart (harg v hv) (hgen w hw) (by decide)
    · exact hapart (hopt v hv) (hgen w hw) (by decide)

/-! ### Definitions are accepted -/

/-- No name is repeated where all names differ and none is among those seen before. -/
theorem firstRepeated?_eq_none {seen names : List String} (h : names.Nodup)
    (hseen : ∀ n ∈ names, n ∉ seen) : firstRepeated? seen names = none := by
  induction names generalizing seen with
  | nil => rfl
  | cons name names ih =>
    rw [List.nodup_cons] at h
    rw [firstRepeated?, if_neg fun hmem => hseen name List.mem_cons_self (List.contains_iff_mem.1 hmem)]
    refine ih h.2 fun n hn hmem => ?_
    rcases List.mem_cons.1 hmem with rfl | hmem
    · exact h.1 hn
    · exact hseen n (List.mem_cons_of_mem name hn) hmem

/-- All names of a definition are identifiers where those of the command are. -/
theorem isIdentifier_of_mem_names {api : String} {l : Leaf} {n : String}
    (h : ∀ n ∈ l.identifiers, isIdentifier n) (hn : n ∈ (l.definition api).names) :
    isIdentifier n := by
  have hlabels : ∀ s ∈ l.slots, ∀ c ∈ s.label.toList, isPlainChar c :=
    fun s hs c hc => isPlainChar_of_mem_label hs hc
  have hcommon : ∀ m ∈ commonOptions.map (·.identifier), isIdentifier m := by decide +kernel
  rcases List.mem_cons.1 hn with rfl | hn
  · exact isIdentifier_definition_name api l
  rcases List.mem_cons.1 hn with rfl | hn
  · decide
  obtain ⟨formal, hformal, hn⟩ := List.mem_flatMap.1 hn
  rcases List.mem_cons.1 hformal with rfl | hformal
  · have hcontext : ∀ m ∈ Formal.names ⟨contextName, typeName contextName, none⟩,
        isIdentifier m := by decide
    exact hcontext n hn
  obtain ⟨s, hs, rfl⟩ := List.mem_map.1 hformal
  rcases List.mem_cons.1 hn with rfl | hn
  · have hname : s.name ∈ l.slots.map (·.name) := List.mem_map_of_mem hs
    rw [map_name_slots, List.mem_append] at hname
    exact hname.elim (h s.name) (hcommon s.name)
  rcases List.mem_cons.1 hn with rfl | hn
  · exact isIdentifier_typeName (hlabels s hs)
  · rw [List.mem_singleton.1 hn]
    exact isIdentifier_defaultName (hlabels s hs)

theorem toList_definition_title (api : String) (l : Leaf) : (l.definition api).title.toList =
    "<ontap:".toList ++ api.toList ++ ":".toList ++ l.name.toList ++ ">".toList := by
  have htitle : (l.definition api).title = "<ontap:" ++ api ++ ":" ++ l.name ++ ">" := rfl
  rw [htitle, String.toList_append, String.toList_append, String.toList_append,
    String.toList_append]

/-- There is a zero character in a title when there is one in one of its names. -/
theorem zero_mem_title_iff {api : String} {l : Leaf} :
    '\x00' ∈ (l.definition api).title.toList ↔ '\x00' ∈ api.toList ∨ '\x00' ∈ l.name.toList := by
  have hfixed : '\x00' ∉ "<ontap:".toList ∧ '\x00' ∉ ":".toList ∧ '\x00' ∉ ">".toList := by decide
  simp only [toList_definition_title, List.mem_append, hfixed, false_or, or_false]

/-- The definition of a command with a zero character in its name is not accepted. -/
theorem rejection?_of_zero {api : String} {l : Leaf} (h : '\x00' ∈ l.name.toList) :
    (l.definition api).rejection? = some .zeroCharacter := by
  rw [Definition.rejection?, if_pos (List.contains_iff_mem.2 (zero_mem_title_iff.2 (.inr h)))]

/-- The definition of a command with good identifiers is accepted. -/
theorem rejection?_eq_none {api : String} {l : Leaf} (hapi : '\x00' ∉ api.toList)
    (hname : '\x00' ∉ l.name.toList) (hidentifiers : ∀ n ∈ l.identifiers, isIdentifier n)
    (hnodup : (l.identifiers ++ reservedIdentifiers).Nodup) :
    (l.definition api).rejection? = none := by
  have htitle : '\x00' ∉ (l.definition api).title.toList :=
    fun h => (zero_mem_title_iff.1 h).elim hapi hname
  have hnames : (l.definition api).names.find? (!isIdentifier ·) = none := by
    rw [List.find?_eq_none]
    intro n hn
    rw [isIdentifier_of_mem_names hidentifiers hn]
    decide
  have hformals : (l.definition api).formals.map (·.name) =
      contextName :: (l.identifiers ++ commonOptions.map (·.identifier)) := by
    rw [← map_name_slots]
    exact congrArg (contextName :: ·) List.map_map
  have hdistinct : ((l.definition api).formals.map (·.name)).Nodup := by
    rw [hformals]
    rw [reservedIdentifiers_eq] at hnodup
    exact List.perm_middle.nodup_iff.1 hnodup
  rw [Definition.rejection?, if_neg fun h => htitle (List.contains_iff_mem.1 h), hnames,
    firstRepeated?_eq_none hdistinct fun _ _ => List.not_mem_nil]
  rfl

/-! ### Definitions are read as they are meant -/

/-- Labels are told apart behind any start. -/
theorem injective_of_toList {name : String → String} (start : List Char)
    (h : ∀ label, (name label).toList = start ++ label.toList) : Function.Injective name := by
  intro v w heq
  have hlists := congrArg String.toList heq
  rw [h, h] at hlists
  exact String.ext (List.append_cancel_left hlists)

theorem typeName_injective : Function.Injective typeName :=
  injective_of_toList _ toList_typeName

theorem defaultName_injective : Function.Injective defaultName :=
  injective_of_toList _ toList_defaultName

theorem typeName_ne_defaultName (v w : String) : typeName v ≠ defaultName w := by
  intro h
  have hlists := congrArg String.toList h
  rw [toList_typeName, toList_defaultName] at hlists
  exact absurd (List.cons.inj (List.cons.inj hlists).2).1 (by decide)

theorem typeName_ne_calleeName (w : String) : typeName w ≠ calleeName := by
  intro h
  have hlists := congrArg String.toList h
  rw [toList_typeName] at hlists
  exact absurd (List.cons.inj (List.cons.inj hlists).2).1 (by decide)

theorem defaultName_ne_calleeName (w : String) : defaultName w ≠ calleeName := by
  intro h
  have hlists := congrArg String.toList h
  rw [toList_defaultName] at hlists
  exact absurd (List.cons.inj (List.cons.inj (List.cons.inj hlists).2).2).1 (by decide)

/-- The names of the type and the default of a parameter with a label. -/
def labelled (label : String) : List String := [typeName label, defaultName label]

theorem nodup_flatMap_labelled {labels : List String} (h : labels.Nodup) :
    (labels.flatMap labelled).Nodup := by
  rw [List.nodup_flatMap]
  refine ⟨fun v _ => ?_, h.imp fun {v w} hvw n hv hw => hvw ?_⟩
  · exact List.nodup_cons.2 ⟨fun hmem => typeName_ne_defaultName v v (List.mem_singleton.1 hmem),
      List.nodup_singleton _⟩
  · rw [labelled, List.mem_cons, List.mem_singleton] at hv hw
    rcases hv with rfl | rfl <;> rcases hw with hw | hw
    · exact typeName_injective hw
    · exact absurd hw (typeName_ne_defaultName v w)
    · exact absurd hw.symm (typeName_ne_defaultName w v)
    · exact defaultName_injective hw

/-- The names in a definition have one meaning each. -/
theorem nodup_map_fst_bindings (l : Leaf) : (l.bindings.map Prod.fst).Nodup := by
  have hslots : (l.slots.flatMap Slot.bindings).map Prod.fst =
      (l.slots.map (·.label)).flatMap labelled := by
    rw [List.map_flatMap, List.flatMap_map]
    rfl
  have hlabelled : (typeName contextName :: (l.slots.map (·.label)).flatMap labelled).Nodup := by
    refine (nodup_flatMap_labelled (nodup_labels l)).sublist ?_
    exact (List.sublist_cons_self _ _).cons_cons _
  have hcallee : calleeName ∉ typeName contextName :: (l.slots.map (·.label)).flatMap labelled := by
    intro hmem
    rcases List.mem_cons.1 hmem with heq | hmem
    · exact typeName_ne_calleeName _ heq.symm
    obtain ⟨label, -, hmem⟩ := List.mem_flatMap.1 hmem
    rw [labelled, List.mem_cons, List.mem_singleton] at hmem
    rcases hmem with heq | heq
    · exact typeName_ne_calleeName _ heq.symm
    · exact defaultName_ne_calleeName _ heq.symm
  rw [Leaf.bindings, List.map_append, List.map_cons, hslots, List.map_singleton,
    List.nodup_append_comm, List.singleton_append, List.nodup_cons]
  exact ⟨hcallee, hlabelled⟩

/-- A name in a definition means what it is bound to. -/
theorem meaning_of_mem (api : String) {name : String} {l : Leaf} {m : Meaning}
    (h : (name, m) ∈ l.bindings) : (l.definition api).meaning name = .ok m := by
  have hget : Entries.get? (l.definition api).bindings name = some m := by
    rw [Leaf.definition, Entries.ofList_of_nodup (nodup_map_fst_bindings l)]
    exact Entries.get?_of_mem (nodup_map_fst_bindings l) h
  rw [Definition.meaning, hget]

/-- What a parameter for a value stands for. -/
def Slot.parameter (s : Slot) : String × Meaning × Option Meaning :=
  (s.name, .type s.kind, some s.default)

theorem parameter_formal {api : String} {l : Leaf} {s : Slot} (hs : s ∈ l.slots) :
    (l.definition api).parameter s.formal = .ok s.parameter := by
  have hbound : ∀ b ∈ s.bindings, b ∈ l.bindings := by
    intro b hb
    rw [Leaf.bindings, List.mem_append, List.mem_cons]
    exact .inl (.inr (List.mem_flatMap.2 ⟨s, hs, hb⟩))
  have htype := meaning_of_mem api (hbound _ List.mem_cons_self)
  have hdefault := meaning_of_mem api (hbound _ (List.mem_cons_of_mem _ List.mem_cons_self))
  simp only [Definition.parameter, Slot.formal, htype, hdefault]
  rfl

/-- **What is read off the definition of a command is what the command takes.** -/
theorem interface_definition (api : String) (l : Leaf) :
    (l.definition api).interface = .ok l.interface := by
  have hcontext : (l.definition api).parameter ⟨contextName, typeName contextName, none⟩ =
      .ok (contextName, .context, none) := by
    have hmeaning : (l.definition api).meaning (typeName contextName) = .ok .context :=
      meaning_of_mem api List.mem_cons_self
    simp only [Definition.parameter, hmeaning]
    rfl
  have hparameters : (l.definition api).formals.mapM (l.definition api).parameter =
      .ok ((contextName, .context, none) :: l.slots.map Slot.parameter) := by
    refine mapM_eq_ok_iff.2 (.cons hcontext ?_)
    rw [List.forall₂_map_left_iff, List.forall₂_map_right_iff, List.forall₂_same]
    exact fun s hs => parameter_formal hs
  have harguments : (l.slots.map Slot.parameter).filterMap Definition.argument? =
      l.arguments.map Argument.declaration := by
    have hcommon : (commonOptions.map commonSlot).filterMap
        (Definition.argument? ∘ Slot.parameter) = [] := rfl
    rw [List.filterMap_map, Leaf.slots, List.filterMap_append, List.filterMap_append, hcommon,
      filterMap_mapIdx (f := Argument.slot) (h := fun a => some a.declaration) fun _ _ => rfl,
      filterMap_mapIdx (f := Flag.slot) (h := fun _ => none) fun _ _ => rfl,
      List.filterMap_eq_map', List.filterMap_none, List.append_nil, List.append_nil]
  have hoptions : (l.slots.map Slot.parameter).filterMap Definition.option? =
      l.flags.map Flag.declaration ++ commonOptions := by
    have hcommon : (commonOptions.map commonSlot).filterMap
        (Definition.option? ∘ Slot.parameter) = commonOptions := rfl
    rw [List.filterMap_map, Leaf.slots, List.filterMap_append, List.filterMap_append, hcommon,
      filterMap_mapIdx (f := Argument.slot) (h := fun _ => none) fun _ _ => rfl,
      filterMap_mapIdx (f := Flag.slot) (h := fun f => some f.declaration) fun _ _ => rfl,
      List.filterMap_eq_map', List.filterMap_none, List.nil_append]
  rw [Definition.interface, hparameters]
  simp only [Leaf.interface, ← harguments, ← hoptions]
  rfl

/-! ### Commands that can be called -/

/-- The identifiers of a command differ from each other and from those that it gets anyway, they are
identifiers, and none of them is a name that definitions use themselves. -/
structure Leaf.HasGoodIdentifiers (l : Leaf) : Prop where
  nodup : l.identifiers.Nodup
  isIdentifier : ∀ n ∈ l.identifiers, isIdentifier n
  ne_contextName : ∀ n ∈ l.identifiers, n ≠ contextName
  notMem_commonOptions : ∀ n ∈ l.identifiers, n ∉ commonOptions.map (·.identifier)
  ne_typeName : ∀ n ∈ l.identifiers, ∀ label, n ≠ typeName label
  ne_defaultName : ∀ n ∈ l.identifiers, ∀ label, n ≠ defaultName label
  ne_calleeName : ∀ n ∈ l.identifiers, n ≠ calleeName

theorem hasGoodIdentifiers_of_compileEndpoint {e : Endpoint} {l : Leaf}
    (h : (compileEndpoint e).answer = .ok l) : l.HasGoodIdentifiers := by
  obtain ⟨hnodup, hplain⟩ := identifiers_of_compileEndpoint h
  rw [reservedIdentifiers_eq, List.nodup_append] at hnodup
  obtain ⟨hnodup, -, hapart⟩ := hnodup
  exact {
    nodup := hnodup
    isIdentifier := fun n hn => (hplain n hn).1.isIdentifier (hplain n hn).2
    ne_contextName := fun n hn => hapart n hn contextName List.mem_cons_self
    notMem_commonOptions := fun n hn hmem => hapart n hn n (List.mem_cons_of_mem _ hmem) rfl
    ne_typeName := fun n hn => (hplain n hn).1.ne_typeName
    ne_defaultName := fun n hn => (hplain n hn).1.ne_defaultName
    ne_calleeName := fun n hn => (hplain n hn).1.ne_calleeName }

/-- The definition of a command that was compiled is accepted. -/
theorem rejection?_of_compileEndpoint {e : Endpoint} {l : Leaf} {api : String}
    (h : (compileEndpoint e).answer = .ok l) (hapi : '\x00' ∉ api.toList)
    (hname : '\x00' ∉ l.name.toList) : (l.definition api).rejection? = none :=
  rejection?_eq_none hapi hname (hasGoodIdentifiers_of_compileEndpoint h).isIdentifier
    (identifiers_of_compileEndpoint h).1

theorem appendsOnly_usable? (api group : String) (l : Leaf) :
    AppendsOnly (l.usable? api group) := by
  unfold Leaf.usable?
  dsimp only
  cases (l.definition api).rejection? with
  | some rejection => exact (AppendsOnly.note .warning _).bind fun _ => .pure none
  | none => exact (appendsOnly_orStop _).bind fun _ => .pure (some l)

/-- A command that was compiled can be called unless there is a zero character in its name. -/
theorem answer_usable? {e : Endpoint} {l : Leaf} {api : String} (group : String)
    (h : (compileEndpoint e).answer = .ok l) (hapi : '\x00' ∉ api.toList) :
    (l.usable? api group).answer =
      .ok (if l.name.toList.contains '\x00' then none else some l) := by
  unfold Leaf.usable?
  dsimp only
  by_cases hname : '\x00' ∈ l.name.toList
  · rw [if_pos (List.contains_iff_mem.2 hname), rejection?_of_zero hname]
    rfl
  · rw [if_neg fun hmem => hname (List.contains_iff_mem.1 hmem),
      rejection?_of_compileEndpoint h hapi hname, interface_definition]
    rfl

/-- The group without the commands that have a zero character in their names. -/
def Group.callable (g : Group) : Group :=
  { g with commands := g.commands.filter fun l => !l.name.toList.contains '\x00' }

theorem appendsOnly_group_usable (api : String) (g : Group) : AppendsOnly (g.usable api) :=
  (AppendsOnly.mapM (appendsOnly_usable? api g.name) g.commands).bind fun _ => .pure _

theorem answer_group_usable {api : String} {g : Group} (hapi : '\x00' ∉ api.toList)
    (hcommands : ∀ l ∈ g.commands, ∃ e, (compileEndpoint e).answer = .ok l) :
    (g.usable api).answer = .ok g.callable := by
  have hrounds : (g.commands.mapM (Leaf.usable? api g.name)).answer =
      .ok (g.commands.map fun l => if l.name.toList.contains '\x00' then none else some l) := by
    rw [Run.answer_mapM (appendsOnly_usable? api g.name), mapM_eq_ok_iff,
      List.forall₂_map_right_iff, List.forall₂_same]
    intro l hl
    obtain ⟨e, he⟩ := hcommands l hl
    exact answer_usable? g.name he hapi
  have hkept : (g.commands.map fun l =>
      if l.name.toList.contains '\x00' then none else some l).filterMap id =
        g.callable.commands := by
    rw [List.filterMap_map, Group.callable, ← List.filterMap_eq_filter]
    refine List.filterMap_congr fun l _ => ?_
    cases l.name.toList.contains '\x00' <;> simp [Option.guard]
  unfold Group.usable
  rw [Run.answer_bind fun _ => .pure _, hrounds]
  exact congrArg (fun commands => Except.ok { g with commands }) hkept

theorem appendsOnly_tree_usable (t : Tree) : AppendsOnly t.usable :=
  (AppendsOnly.mapM (appendsOnly_group_usable t.name) t.groups).bind fun _ => .pure _

theorem answer_tree_usable {t : Tree} (hapi : '\x00' ∉ t.name.toList)
    (hcommands : ∀ g ∈ t.groups, ∀ l ∈ g.commands, ∃ e, (compileEndpoint e).answer = .ok l) :
    t.usable.answer = .ok { t with groups := t.groups.map Group.callable } := by
  have hrounds : (t.groups.mapM (Group.usable t.name)).answer =
      .ok (t.groups.map Group.callable) := by
    rw [Run.answer_mapM (appendsOnly_group_usable t.name), mapM_eq_ok_iff,
      List.forall₂_map_right_iff, List.forall₂_same]
    exact fun g hg => answer_group_usable hapi (hcommands g hg)
  unfold Tree.usable
  rw [Run.answer_bind fun _ => .pure _, hrounds]
  rfl

theorem name_of_compile {api : String} {endpoints : List Endpoint}
    {tagHelp : List (String × String)} {help : String} {tree : Tree}
    (h : (compile api endpoints tagHelp help).answer = .ok tree) : tree.name = api := by
  unfold compile at h
  rw [Run.answer_bind fun groups =>
    (AppendsOnly.mapM (appendsOnly_compileGroup tagHelp) groups).bind fun _ => .pure _] at h
  obtain ⟨members, -, h⟩ := bind_eq_ok_iff.1 h
  rw [Run.answer_bind fun _ => .pure _] at h
  obtain ⟨groups, -, h⟩ := bind_eq_ok_iff.1 h
  obtain rfl := Except.ok.inj h
  rfl

/-- In a compiled tree a group is known by its name and a command by its name in the group, and every
command was compiled from an endpoint. -/
theorem names_of_compile {api : String} {endpoints : List Endpoint}
    {tagHelp : List (String × String)} {help : String} {tree : Tree}
    (h : (compile api endpoints tagHelp help).answer = .ok tree) :
    (tree.groups.map (·.name)).Nodup ∧ ∀ g ∈ tree.groups, (g.commands.map (·.name)).Nodup ∧
      ∀ l ∈ g.commands, ∃ e, (compileEndpoint e).answer = .ok l := by
  have hgroups := of_compile h
  constructor
  · rw [map_name_of_compileGroup hgroups, groupsOf, List.map_map]
    exact (List.map_id _).symm ▸ nodup_eraseDups _
  · intro g hg
    obtain ⟨group, -, hgroup⟩ := exists_mem_of_forall₂ hgroups hg
    have hcommands := (of_compileGroup hgroup).2
    refine ⟨hcommands.names ▸ nodup_commandName_firstOfName _, fun l hl => ?_⟩
    obtain ⟨e, -, he⟩ := exists_mem_of_forall₂ hcommands hl
    exact ⟨e, he⟩

/-- **Every generated signature is well formed.**  The identifiers of a command that is compiled are
good, and its definition is accepted and read as what the command takes, whatever the API, if there is
no zero character in their names.  In a tree that is compiled under such a name every command with such
a name is still there, in its group and with what it takes, when those that cannot be called have been
left out. -/
theorem definition_accepted :
    (∀ {e : Endpoint} {l : Leaf} {log log' : List LogRecord},
      (compileEndpoint e).runWith log = (.ok l, log') →
        l.HasGoodIdentifiers ∧ ∀ api : String, '\x00' ∉ api.toList → '\x00' ∉ l.name.toList →
          (l.definition api).rejection? = none ∧
          (l.definition api).interface = .ok {
            arguments := l.arguments.map Argument.declaration
            options := l.flags.map Flag.declaration ++ commonOptions }) ∧
    ∀ {api : String} {endpoints : List Endpoint} {tagHelp : List (String × String)} {help : String}
      {tree : Tree} {log log' : List LogRecord},
      (compile api endpoints tagHelp help).runWith log = (.ok tree, log') → '\x00' ∉ api.toList →
        ∃ usable, (∀ log, (tree.usable.runWith log).1 = .ok usable) ∧
          usable = { tree with groups := tree.groups.map Group.callable } ∧
          ∀ g ∈ tree.groups, ∃ g', usable.group? g.name = some g' ∧
            ∀ l ∈ g.commands, '\x00' ∉ l.name.toList → g'.command? l.name = some l ∧
              (l.definition api).interface = .ok {
                arguments := l.arguments.map Argument.declaration
                options := l.flags.map Flag.declaration ++ commonOptions } := by
  constructor
  · intro e l log log' h
    have hanswer := (appendsOnly_compileEndpoint e).answer_eq h
    exact ⟨hasGoodIdentifiers_of_compileEndpoint hanswer, fun api hapi hname =>
      ⟨rejection?_of_compileEndpoint hanswer hapi hname, interface_definition api l⟩⟩
  · intro api endpoints tagHelp help tree log log' h hapi
    have hanswer := (appendsOnly_compile api endpoints tagHelp help).answer_eq h
    obtain ⟨hgroups, hcommands⟩ := names_of_compile hanswer
    have husable : tree.usable.answer = .ok { tree with groups := tree.groups.map Group.callable } :=
      answer_tree_usable (name_of_compile hanswer ▸ hapi) fun g hg l hl => (hcommands g hg).2 l hl
    refine ⟨_, fun log => ?_, rfl, fun g hg => ⟨g.callable, ?_, fun l hl hname => ?_⟩⟩
    · rw [appendsOnly_tree_usable, husable]
    · have hnames : ((tree.groups.map Group.callable).map (·.name)).Nodup := by
        rw [List.map_map]
        exact hgroups
      exact Entries.find?_eq_some_of_nodup hnames (List.mem_map_of_mem hg)
    · have hkept : l ∈ g.callable.commands := List.mem_filter.2 ⟨hl, by simpa using hname⟩
      have hnames : (g.callable.commands.map (·.name)).Nodup :=
        (hcommands g hg).1.sublist (List.filter_sublist.map _)
      exact ⟨Entries.find?_eq_some_of_nodup hnames hkept, interface_definition api l⟩

/-- The command of two parameters whose names have one identifier can be called, and so can the commands
of a small tree. -/
theorem definition_accepted_kennel :
    (kennelLeaf.HasGoodIdentifiers ∧ (kennelLeaf.definition "store").rejection? = none ∧
      (kennelLeaf.definition "store").interface = .ok kennelLeaf.interface) ∧
    (compile "store" petEndpoints [] "").runWith [] = (.ok petTree, petRecords) ∧
    ∃ usable, (petTree.usable.runWith []).1 = .ok usable ∧
      ∀ g ∈ petTree.groups, ∃ g', usable.group? g.name = some g' ∧
        ∀ l ∈ g.commands, '\x00' ∉ l.name.toList → g'.command? l.name = some l ∧
          (l.definition "store").interface = .ok l.interface := by
  obtain ⟨hgood, haccepted⟩ := definition_accepted.1 compileEndpoint_kennel
  obtain ⟨usable, husable, -, hcommands⟩ := definition_accepted.2 compile_petEndpoints (by decide)
  exact ⟨⟨hgood, haccepted "store" (by decide) (by decide)⟩, compile_petEndpoints, usable,
    husable [], hcommands⟩

end ApiShell.Command
