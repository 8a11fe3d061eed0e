import ApiShell.CommandLine.Binding
import ApiShell.Proofs.Entries
import ApiShell.Proofs.Run

/-!
# What can be typed

What is collected from a command line stands under the identifier of what it was typed for.  It is a
switch only where an option of that identifier is one, and words that are collected for a list are never
none.  A command line that is read has obeyed its signals, so nothing that was typed for one of them is
left.
-/

namespace ApiShell.CommandLine

open Command (FlagKind FlagValue)

variable {i : Interface}

/-! ### The uses of options in a word -/

/-- A use of an option that a word can make: a word for its value, or a switch where it is one.  It is
switched off by a negative name alone. -/
structure Use.IsOf (u : Use) (i : Interface) : Prop where
  mem : u.option ∈ i.allOptions
  typed : (∃ s, u.typed = .word s) ∨ ∃ b, u.typed = .switch b ∧ u.option.kind = .bool ∧
    (b = false → u.option.negativeNames ≠ [])

/-- The uses of options in a word and, where one has its value there, in the next. -/
def Reading.usesWith (value : String) : Reading → List Use
  | complete uses => uses
  | awaiting uses option _ => uses ++ [⟨option, .word value⟩]

theorem Reading.usesWith_after (value : String) (u : Use) (r : Reading) :
    (r.after u).usesWith value = u :: r.usesWith value := by
  cases r <;> rfl

/-- The option has a name in the interface, a negative one only where it has negative names. -/
structure Interface.Names (i : Interface) (o : OptionDecl) (isNegative : Bool) : Prop where
  mem : o ∈ i.allOptions
  negative : isNegative = true → o.negativeNames ≠ []

/-- A name that is found is one of an option. -/
theorem Interface.names_of_option? {name : String} {o : OptionDecl} {isNegative : Bool}
    (h : i.option? name = some (o, isNegative)) : i.Names o isNegative := by
  obtain ⟨a, ha, hname⟩ := List.exists_of_findSome?_eq_some h
  have hmem := List.mem_reverse.1 ha
  split at hname
  · next hnegative =>
    obtain ⟨rfl, rfl⟩ := Prod.mk.inj (Option.some.inj hname)
    refine ⟨hmem, fun _ hnone => ?_⟩
    rw [hnone] at hnegative
    cases hnegative
  · split at hname
    · obtain ⟨rfl, rfl⟩ := Prod.mk.inj (Option.some.inj hname)
      exact ⟨hmem, nofun⟩
    · cases hname

theorem Interface.names_of_longOption? {name : String} {o : OptionDecl} {isNegative : Bool}
    (h : i.longOption? name = some (o, isNegative)) : i.Names o isNegative := by
  rw [Interface.longOption?] at h
  split at h
  · cases h
  · exact Interface.names_of_option? h

theorem Interface.names_of_letterOption? {c : Char} {o : OptionDecl} {isNegative : Bool}
    (h : i.letterOption? c = some (o, isNegative)) : i.Names o isNegative := by
  rw [Interface.letterOption?] at h
  split at h
  · exact Interface.names_of_option? h
  · cases h

/-- A switch that is used is switched off by a negative name. -/
theorem Interface.Names.isOf_switch {o : OptionDecl} {isNegative : Bool}
    (h : i.Names o isNegative) (hkind : ¬ o.takesValue) :
    Use.IsOf ⟨o, .switch !isNegative⟩ i where
  mem := h.mem
  typed := by
    refine .inr ⟨_, rfl, ?_, fun hoff => h.negative (by simpa using hoff)⟩
    rw [OptionDecl.takesValue] at hkind
    simpa using hkind

theorem Interface.Names.isOf_word {o : OptionDecl} {isNegative : Bool}
    (h : i.Names o isNegative) (s : String) : Use.IsOf ⟨o, .word s⟩ i :=
  ⟨h.mem, .inl ⟨s, rfl⟩⟩

theorem isOf_of_readLong {o : OptionDecl} {isNegative : Bool} {name : String}
    {value : Option String} {r : Reading} (hread : o.readLong isNegative name value = .ok r)
    (h : i.Names o isNegative) (next : String) :
    ∀ u ∈ r.usesWith next, u.IsOf i := by
  unfold OptionDecl.readLong at hread
  intro u hu
  split at hread
  · cases value with
    | some v =>
      obtain rfl := Except.ok.inj hread
      rw [List.mem_singleton.1 hu]
      exact h.isOf_word v
    | none =>
      obtain rfl := Except.ok.inj hread
      rw [List.mem_singleton.1 hu]
      exact h.isOf_word next
  · next hkind =>
    split at hread
    · cases hread
    · obtain rfl := Except.ok.inj hread
      rw [List.mem_singleton.1 hu]
      exact h.isOf_switch hkind

theorem isOf_of_readShort {cs : List Char} {r : Reading} (hread : i.readShort cs = .ok r)
    (next : String) : ∀ u ∈ r.usesWith next, u.IsOf i := by
  induction cs generalizing r with
  | nil =>
    obtain rfl := Except.ok.inj hread
    exact fun u hu => absurd hu List.not_mem_nil
  | cons c cs ih =>
    rw [Interface.readShort] at hread
    intro u hu
    split at hread
    · cases hread
    next o isNegative hoption =>
    have ho := Interface.names_of_letterOption? hoption
    split at hread
    · split at hread
      · obtain rfl := Except.ok.inj hread
        rw [List.mem_singleton.1 hu]
        exact ho.isOf_word next
      · obtain rfl := Except.ok.inj hread
        rw [List.mem_singleton.1 hu]
        exact ho.isOf_word _
    · next hkind =>
      obtain ⟨rest, hrest, rfl⟩ := map_eq_ok_iff.1 hread
      rw [Reading.usesWith_after] at hu
      rcases List.mem_cons.1 hu with rfl | hu
      · exact ho.isOf_switch hkind
      · exact ih hrest u hu

/-- The uses of options in a word are such as a word can make. -/
theorem isOf_of_readWord {word : String} {r : Reading} (hread : i.readWord word = .ok r)
    (next : String) : ∀ u ∈ r.usesWith next, u.IsOf i := by
  unfold Interface.readWord at hread
  dsimp only at hread
  split at hread
  · next o isNegative hoption =>
    exact isOf_of_readLong hread (Interface.names_of_longOption? hoption) next
  · split at hread
    · cases hread
    · exact isOf_of_readShort hread next

/-! ### What is collected -/

/-- What stands under an identifier can have been typed for it. -/
def Typed.IsFor (t : Typed) (i : Interface) (identifier : String) : Prop :=
  match t with
  | .word _ => True
  | .words all => all ≠ []
  | .switch b => ∃ o ∈ i.allOptions, o.identifier = identifier ∧ o.kind = .bool ∧
      (b = false → o.negativeNames ≠ [])

/-- All that is typed stands where it can have been typed. -/
def AreTyped (i : Interface) (typed : List (String × Typed)) : Prop :=
  ∀ e ∈ typed, e.2.IsFor i e.1

theorem AreTyped.put {typed : List (String × Typed)} (h : AreTyped i typed) {identifier : String}
    {t : Typed} (ht : t.IsFor i identifier) : AreTyped i (Entries.put typed identifier t) := by
  intro e he
  rcases Entries.mem_of_mem_put he with he | rfl
  · exact h e he
  · exact ht

/-- What is typed after one more use of an option can have been typed for it. -/
theorem Use.IsOf.isFor_join {u : Use} (h : u.IsOf i) (before : Option Typed) :
    (Collected.join u.option before u.typed).IsFor i u.option.identifier := by
  rcases h.typed with ⟨s, hword⟩ | ⟨b, hswitch, hkind, hoff⟩
  · rw [hword]
    unfold Collected.join
    split
    · exact List.append_ne_nil_of_right_ne_nil _ (List.cons_ne_nil _ _)
    · exact List.cons_ne_nil _ _
    · trivial
  · have hjoin : Collected.join u.option before (.switch b) = .switch b := by
      rw [Collected.join] <;> exact nofun
    rw [hswitch, hjoin]
    exact ⟨u.option, h.mem, rfl, hkind, hoff⟩

theorem AreTyped.addAll {c : Collected} (h : AreTyped i c.typed) {uses : List Use}
    (huses : ∀ u ∈ uses, u.IsOf i) : AreTyped i (c.addAll uses).typed := by
  induction uses generalizing c with
  | nil => exact h
  | cons u uses ih =>
    exact ih (h.put ((huses u List.mem_cons_self).isFor_join _))
      fun v hv => huses v (List.mem_cons_of_mem u hv)

/-- Whatever words are collected, what is typed stands where it can have been typed. -/
theorem AreTyped.collect {mixed : Bool} {c c' : Collected} {words : List String}
    (h : AreTyped i c.typed) (hcollect : collect i mixed c words = .ok c') :
    AreTyped i c'.typed := by
  fun_induction CommandLine.collect i mixed c words with
  | case1 c =>
    obtain rfl := Except.ok.inj hcollect
    exact h
  | case2 c words =>
    obtain rfl := Except.ok.inj hcollect
    exact h
  | case3 => cases hcollect
  | case4 c word words _ _ uses hread ih =>
    exact ih (h.addAll (isOf_of_readWord hread "")) hcollect
  | case5 => cases hcollect
  | case6 c word _ _ uses o name hread value words ih =>
    -- The option that waits for its value is one more of those in the word.
    have hadd : (c.addAll uses).add ⟨o, .word value⟩ = c.addAll (uses ++ [⟨o, .word value⟩]) := by
      rw [Collected.addAll, Collected.addAll, List.foldl_append]
      rfl
    rw [hadd] at ih hcollect
    exact ih (h.addAll (isOf_of_readWord hread value)) hcollect
  | case7 c word words _ _ _ ih => exact ih h hcollect
  | case8 c word words =>
    obtain rfl := Except.ok.inj hcollect
    exact h

/-- Words for arguments can be typed under any identifier. -/
theorem AreTyped.withArguments {c : Collected} (h : AreTyped i c.typed) :
    AreTyped i (i.withArguments c) := by
  unfold Interface.withArguments
  generalize i.arguments.zip c.others = words
  generalize c.typed = typed at h
  induction words generalizing typed with
  | nil => exact h
  | cons a words ih => exact ih _ (h.put trivial)

/-! ### What is read -/

/-- The value of an option is of the option's kind where a switch is typed for switches alone, and a list
that is typed is never empty. -/
theorem OptionDecl.kind_of_read {o : OptionDecl} {t : Typed} {v : FlagValue} {identifier : String}
    (h : o.read t = .ok v) (ht : t.IsFor i identifier)
    (hswitch : ∀ b, t = .switch b → o.kind = .bool) : v.kind = o.kind ∧ v ≠ .stringList [] := by
  unfold OptionDecl.read at h
  split at h
  · next b =>
    obtain rfl := Except.ok.inj h
    exact ⟨(hswitch b rfl).symm, nofun⟩
  · next all hkind =>
    obtain rfl := Except.ok.inj h
    exact ⟨hkind.symm, fun hempty => ht (FlagValue.stringList.inj hempty)⟩
  · cases h
  · next s hkind =>
    obtain rfl := Except.ok.inj h
    exact ⟨hkind.symm, nofun⟩
  · next s hkind =>
    obtain rfl := Except.ok.inj h
    exact ⟨hkind.symm, nofun⟩
  · next s hkind =>
    split at h
    · obtain rfl := Except.ok.inj h
      exact ⟨hkind.symm, nofun⟩
    · cases h
  · next s hkind =>
    split at h
    · obtain rfl := Except.ok.inj h
      exact ⟨hkind.symm, nofun⟩
    · cases h

/-- A switch for a signal that is obeyed was off. -/
theorem Interface.of_obeySignals {typed : List (String × Typed)} {options : List OptionDecl}
    (h : Interface.obeySignals typed options = .ok ()) {o : OptionDecl} (ho : o ∈ options)
    (hsignal : o.signal ≠ none) :
    ∃ b, Interface.bindOption typed o = .ok b ∧ b.value ≠ some (.bool true) := by
  induction options with
  | nil => cases ho
  | cons first options ih =>
    rw [Interface.obeySignals] at h
    obtain ⟨bound, hbound, h⟩ := bind_eq_ok_iff.1 h
    dsimp only at h
    rcases List.mem_cons.1 ho with rfl | ho
    · refine ⟨bound, mapError_eq_ok_iff.1 hbound, fun hon => ?_⟩
      obtain ⟨signal, hsome⟩ := Option.ne_none_iff_exists'.1 hsignal
      rw [hsome] at h
      dsimp only at h
      rw [if_pos hon] at h
      cases h
    · refine ih ?_ ho
      split at h
      · split at h
        · cases h
        · exact h
      · exact h

/-- What is bound was read from what was typed: signals were off, and each argument and option has its
value under its identifier. -/
structure Interface.Reads (i : Interface) (typed : List (String × Typed)) (values : Values) :
    Prop where
  areTyped : AreTyped i typed
  signals : ∀ o ∈ i.allOptions, o.signal ≠ none →
    ∃ b, Interface.bindOption typed o = .ok b ∧ b.value ≠ some (.bool true)
  values : ∃ arguments options, values = arguments ++ options ∧
    List.Forall₂ (fun a v => ∃ b, Interface.bindArgument typed a = .ok b ∧ v = (a.identifier, b))
      i.arguments arguments ∧
    List.Forall₂ (fun o v => ∃ b, Interface.bindOption typed o = .ok b ∧ v = (o.identifier, b))
      (i.options.filter (·.signal.isNone)) options

theorem Interface.reads_of_bind {c : Collected} {values : Values} {left : List String}
    (h : i.bind c = .ok (values, left)) (hc : AreTyped i c.typed) :
    i.Reads (i.withArguments c) values ∧ left = c.others.drop i.arguments.length := by
  unfold Interface.bind at h
  obtain ⟨_, hsignals, h⟩ := bind_eq_ok_iff.1 h
  obtain ⟨_, -, h⟩ := bind_eq_ok_iff.1 h
  obtain ⟨arguments, harguments, h⟩ := bind_eq_ok_iff.1 h
  obtain ⟨options, hoptions, h⟩ := bind_eq_ok_iff.1 h
  obtain ⟨rfl, rfl⟩ := Prod.mk.inj (Except.ok.inj h)
  refine ⟨⟨hc.withArguments, fun o ho hsignal => ?_, arguments, options, rfl, ?_, ?_⟩, rfl⟩
  · refine Interface.of_obeySignals hsignals (List.mem_filter.2 ⟨?_, ?_⟩) hsignal
    · by_cases hused : o ∈ c.used
      · exact List.mem_append_left _ hused
      · exact List.mem_append_right _ (List.mem_filter.2 ⟨ho, by simpa using hused⟩)
    · exact Option.isSome_iff_ne_none.2 hsignal
  · refine (mapM_eq_ok_iff.1 (mapError_eq_ok_iff.1 harguments)).imp fun a v hv => ?_
    obtain ⟨b, hb, hv⟩ := map_eq_ok_iff.1 hv
    exact ⟨b, hb, hv.symm⟩
  · refine (mapM_eq_ok_iff.1 (mapError_eq_ok_iff.1 hoptions)).imp fun o v hv => ?_
    obtain ⟨b, hb, hv⟩ := map_eq_ok_iff.1 hv
    exact ⟨b, hb, hv.symm⟩

/-- Values that are read from words were bound to what was typed. -/
theorem Interface.reads_of_read {words : List String} {values : Values}
    (h : i.read words = .ok values) : ∃ typed, i.Reads typed values := by
  unfold Interface.read at h
  obtain ⟨c, hc, h⟩ := bind_eq_ok_iff.1 h
  obtain ⟨⟨values', left⟩, hbind, h⟩ := bind_eq_ok_iff.1 h
  have htyped : AreTyped i c.typed :=
    AreTyped.collect (fun e he => absurd he List.not_mem_nil) (mapError_eq_ok_iff.1 hc)
  dsimp only at h
  split at h
  · obtain rfl := Except.ok.inj h
    exact ⟨_, (Interface.reads_of_bind hbind htyped).1⟩
  · cases h

end ApiShell.CommandLine
