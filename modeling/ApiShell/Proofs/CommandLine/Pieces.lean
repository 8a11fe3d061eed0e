import ApiShell.Proofs.CommandLine.Typing

/-!
# The pieces of a command line

The words that belong to a group of commands fall into pieces: a word with options in it, and the word
behind it where the last of the options has its value there.  Behind the pieces stands nothing, the end
of the options, or the first word of a command of the group.  The value of an option that takes one text
is the last text that the pieces give to its identifier.
-/

namespace ApiShell.CommandLine

variable {i : Interface} {identifier : String}

/-! ### Cutting words into pieces -/

/-- A word with options in it, the next word where it is the value of the last of them, and the uses of
options that the two make. -/
structure Piece where
  word : String
  value? : Option String
  uses : List Use
deriving DecidableEq, Repr

namespace Piece

/-- The words of a piece. -/
def words (p : Piece) : List String := p.word :: p.value?.toList

/-- The interface reads the words of the piece as its uses of options. -/
structure IsOf (p : Piece) (i : Interface) : Prop where
  isOption : p.word ≠ optionsEnd ∧ isOptionWord p.word
  reads : (∃ uses, i.readWord p.word = .ok (.complete uses) ∧ p.value? = none ∧ p.uses = uses) ∨
    ∃ uses option name value, i.readWord p.word = .ok (.awaiting uses option name) ∧
      p.value? = some value ∧ p.uses = uses ++ [⟨option, .word value⟩]

/-- The uses of options in a piece are such as its words can make. -/
theorem IsOf.uses_isOf {p : Piece} (h : p.IsOf i) : ∀ u ∈ p.uses, u.IsOf i := by
  rcases h.reads with ⟨uses, hread, -, huses⟩ | ⟨uses, o, name, value, hread, -, huses⟩
  · rw [huses]
    exact isOf_of_readWord hread ""
  · rw [huses]
    exact isOf_of_readWord hread value

end Piece

/-- What ends the pieces of a group, and the words that it leaves for the commands of the group. -/
inductive Behind : List String → List String → Prop where
  | nothing : Behind [] []
  | optionsEnd (words : List String) : Behind (optionsEnd :: words) words
  | command (name : String) (words : List String) (hend : name ≠ CommandLine.optionsEnd)
      (hname : ¬ isOptionWord name) : Behind (name :: words) (name :: words)

/-- The words are the pieces and what is behind them, and leave the rest for the commands of a group. -/
structure Parts (i : Interface) (words : List String) (pieces : List Piece)
    (behind rest : List String) : Prop where
  words_eq : words = pieces.flatMap Piece.words ++ behind
  isOf : ∀ p ∈ pieces, p.IsOf i
  ends : Behind behind rest

/-- One more piece in front. -/
theorem Parts.cons {words behind rest : List String} {pieces : List Piece} {p : Piece}
    (hp : p.IsOf i) (h : Parts i words pieces behind rest) :
    Parts i (p.words ++ words) (p :: pieces) behind rest where
  words_eq := by rw [h.words_eq, List.flatMap_cons, List.append_assoc]
  isOf := List.forall_mem_cons.2 ⟨hp, h.isOf⟩
  ends := h.ends

/-- Using some options and then some more is using all of them. -/
theorem Collected.addAll_append (c : Collected) (uses more : List Use) :
    c.addAll (uses ++ more) = (c.addAll uses).addAll more := List.foldl_append

/-- Uses of options leave the other words as they are. -/
theorem Collected.others_addAll (c : Collected) (uses : List Use) :
    (c.addAll uses).others = c.others := by
  induction uses generalizing c with
  | nil => rfl
  | cons u uses ih => exact ih (c.add u)

/-- What is collected from pieces and what is behind them are their uses of options. -/
theorem collect_of_parts {words behind rest : List String} {pieces : List Piece}
    (h : Parts i words pieces behind rest) (c : Collected) :
    collect i false c words =
      .ok { c.addAll (pieces.flatMap Piece.uses) with others := c.others ++ rest } := by
  have hends := h.ends
  have hisOf := h.isOf
  rw [h.words_eq]
  clear h
  induction pieces generalizing c with
  | nil =>
    cases hends with
    | nothing =>
      rw [List.append_nil, List.append_nil]
      rfl
    | optionsEnd rest =>
      rw [List.flatMap_nil, List.nil_append, collect, if_pos rfl]
      rfl
    | command name words hend hname =>
      rw [List.flatMap_nil, List.nil_append, collect, if_neg hend, if_neg hname,
        if_neg Bool.false_ne_true]
      rfl
  | cons p pieces ih =>
    obtain ⟨hp, hpieces⟩ := List.forall_mem_cons.1 hisOf
    rw [List.flatMap_cons, List.flatMap_cons, Piece.words, List.append_assoc, List.cons_append,
      collect, if_neg hp.isOption.1, if_pos hp.isOption.2, Collected.addAll_append]
    obtain ⟨uses, hread, hv, huses⟩ | ⟨uses, o, name, value, hread, hv, huses⟩ := hp.reads
    · rw [hread, hv, huses]
      dsimp only
      rw [Option.toList_none, List.nil_append, ih _ hpieces, Collected.others_addAll]
    · have hothers : ((c.addAll uses).add ⟨o, .word value⟩).others = c.others :=
        Collected.others_addAll c uses
      rw [hread, hv, huses, Collected.addAll_append]
      dsimp only
      rw [Option.toList_some, List.singleton_append]
      dsimp only
      rw [ih _ hpieces, hothers]
      rfl

/-- The words that are collected for a group fall into pieces. -/
theorem exists_parts_of_collect {c c' : Collected} {words : List String}
    (h : collect i false c words = .ok c') :
    ∃ pieces behind rest, Parts i words pieces behind rest := by
  fun_induction collect i false c words with
  | case1 => exact ⟨[], [], [], rfl, fun p hp => absurd hp List.not_mem_nil, .nothing⟩
  | case2 _ words =>
    exact ⟨[], _, words, rfl, fun p hp => absurd hp List.not_mem_nil, .optionsEnd words⟩
  | case3 => cases h
  | case4 _ word words hend hoption uses hread ih =>
    obtain ⟨pieces, behind, rest, hparts⟩ := ih h
    have hp : Piece.IsOf ⟨word, none, uses⟩ i := ⟨⟨hend, hoption⟩, .inl ⟨uses, hread, rfl, rfl⟩⟩
    exact ⟨_, behind, rest, hparts.cons hp⟩
  | case5 => cases h
  | case6 _ word hend hoption uses o name hread value words ih =>
    obtain ⟨pieces, behind, rest, hparts⟩ := ih h
    have hp : Piece.IsOf ⟨word, some value, uses ++ [⟨o, .word value⟩]⟩ i :=
      ⟨⟨hend, hoption⟩, .inr ⟨uses, o, name, value, hread, rfl, rfl⟩⟩
    exact ⟨_, behind, rest, hparts.cons hp⟩
  | case7 _ _ _ _ _ hmixed => exact absurd hmixed Bool.false_ne_true
  | case8 _ word words hend hoption =>
    exact ⟨[], _, _, rfl, fun p hp => absurd hp List.not_mem_nil,
      .command word words hend hoption⟩

/-! ### The texts of an option -/

/-- The word that was typed, where it was one. -/
def Typed.word? : Typed → Option String
  | word s => some s
  | _ => none

/-- The texts that uses of options give to an identifier. -/
def textsOf (identifier : String) (uses : List Use) : List String :=
  uses.filterMap fun u => if u.option.identifier = identifier then u.typed.word? else none

theorem textsOf_append (identifier : String) (uses more : List Use) :
    textsOf identifier (uses ++ more) = textsOf identifier uses ++ textsOf identifier more :=
  List.filterMap_append

/-- Whatever stands under the identifier takes one text. -/
def Interface.IsText (i : Interface) (identifier : String) : Prop :=
  ∀ o ∈ i.allOptions, o.identifier = identifier → o.kind = .string

instance : Decidable (i.IsText identifier) :=
  inferInstanceAs (Decidable (∀ o ∈ i.allOptions, o.identifier = identifier → o.kind = .string))

/-- A use of an option that takes one text has one. -/
theorem Use.IsOf.exists_word {u : Use} (h : u.IsOf i) (htext : i.IsText identifier)
    (hu : u.option.identifier = identifier) :
    ∃ s, u.typed = .word s ∧ ∀ before, Collected.join u.option before u.typed = .word s := by
  have hkind := htext u.option h.mem hu
  rcases h.typed with ⟨s, hs⟩ | ⟨b, -, hswitch, -⟩
  · refine ⟨s, hs, fun before => ?_⟩
    unfold Collected.join
    rw [hs, hkind]
  · rw [hkind] at hswitch
    cases hswitch

/-- The last text that is given to an identifier stands under it. -/
theorem get?_addAll {uses : List Use} (huses : ∀ u ∈ uses, u.IsOf i)
    (htext : i.IsText identifier) (c : Collected) :
    Entries.get? (c.addAll uses).typed identifier =
      ((textsOf identifier uses).getLast?.map .word).or (Entries.get? c.typed identifier) := by
  induction uses using List.reverseRecOn with
  | nil => rfl
  | append_singleton uses u ih =>
    have hbefore := ih fun v hv => huses v (List.mem_append_left _ hv)
    have hlast : Entries.get? (c.addAll (uses ++ [u])).typed identifier =
        if identifier = u.option.identifier then
          some (Collected.join u.option
            (Entries.get? (c.addAll uses).typed u.option.identifier) u.typed)
        else Entries.get? (c.addAll uses).typed identifier := by
      rw [Collected.addAll_append]
      exact Entries.get?_put _ _ _ _
    rw [hlast, textsOf_append]
    by_cases hu : u.option.identifier = identifier
    · obtain ⟨s, hs, hjoin⟩ :=
        (huses u (List.mem_append_right _ List.mem_cons_self)).exists_word htext hu
      have hone : textsOf identifier [u] = [s] := by simp [textsOf, hu, hs, Typed.word?]
      rw [if_pos hu.symm, hjoin, hone, List.getLast?_concat]
      rfl
    · have hnone : textsOf identifier [u] = [] := by simp [textsOf, hu]
      rw [if_neg (Ne.symm hu), hnone, List.append_nil, hbefore]

/-- The value that an option is bound to stands under its identifier. -/
theorem get?_of_forall₂ {bind : OptionDecl → Except UsageError Bound} {options : List OptionDecl}
    {values : Values} {o : OptionDecl}
    (h : List.Forall₂ (fun o v => ∃ b, bind o = .ok b ∧ v = (o.identifier, b)) options values)
    (ho : options.find? (·.identifier == identifier) = some o) :
    ∃ b, bind o = .ok b ∧ Entries.get? values identifier = some b := by
  induction h with
  | nil => cases ho
  | @cons first v options values hfirst _ ih =>
    obtain ⟨b, hb, rfl⟩ := hfirst
    rw [Entries.get?_cons]
    by_cases hid : first.identifier = identifier
    · rw [List.find?_cons_of_pos (by simpa using hid)] at ho
      obtain rfl := Option.some.inj ho
      exact ⟨b, hb, if_pos hid⟩
    · rw [List.find?_cons_of_neg (by simpa using hid)] at ho
      rw [if_neg hid]
      exact ih ho

/-- An option that takes one text, has no value where it is not given, and makes the program do nothing
else. -/
structure Interface.TakesText (i : Interface) (o : OptionDecl) : Prop where
  isText : i.IsText o.identifier
  found : (i.options.filter (·.signal.isNone)).find? (·.identifier == o.identifier) = some o
  default : o.default = none

theorem Interface.TakesText.kind {o : OptionDecl} (h : i.TakesText o) : o.kind = .string :=
  h.isText o (List.mem_append_left _ (List.mem_filter.1 (List.mem_of_find?_eq_some h.found)).1) rfl

/-- The value of an option that takes one text is the last text that was given to it. -/
theorem text?_of_reads {typed : List (String × Typed)} {values : Values} {o : OptionDecl}
    {texts : List String} (h : i.Reads typed values) (harguments : i.arguments = [])
    (ho : i.TakesText o)
    (htyped : Entries.get? typed o.identifier = texts.getLast?.map .word) :
    values.text? o.identifier = texts.getLast? := by
  obtain ⟨arguments, options, rfl, hargs, hoptions⟩ := h.values
  rw [harguments, List.forall₂_nil_left_iff] at hargs
  obtain ⟨b, hb, hget⟩ := get?_of_forall₂ hoptions ho.found
  rw [hargs, List.nil_append, Values.text?, Values.get?, hget, Option.bind_some]
  rw [Interface.bindOption, htyped] at hb
  cases htexts : texts.getLast? with
  | none =>
    rw [htexts] at hb
    obtain rfl := Except.ok.inj hb
    rw [ho.default]
  | some s =>
    rw [htexts] at hb
    have hread : o.read (.word s) = .ok (.string s) := by
      unfold OptionDecl.read
      rw [ho.kind]
    obtain ⟨v, hv, rfl⟩ := map_eq_ok_iff.1 hb
    rw [hread] at hv
    obtain rfl := Except.ok.inj hv
    rfl

/-- The words that a group reads were collected and then bound. -/
theorem of_readGroup {words rest : List String} {values : Values}
    (h : i.readGroup words = .ok (values, rest)) :
    ∃ c, collect i false {} words = .ok c ∧ i.bind c = .ok (values, rest) := by
  have hsome : ¬ words.isEmpty := by
    intro hnone
    rw [Interface.readGroup, if_pos hnone] at h
    cases h
  rw [Interface.readGroup, if_neg hsome] at h
  obtain ⟨c, hc, hbind⟩ := bind_eq_ok_iff.1 h
  exact ⟨c, mapError_eq_ok_iff.1 hc, hbind⟩

/-- The words that a group without arguments reads fall into pieces. -/
theorem exists_parts_of_readGroup {words rest : List String} {values : Values}
    (h : i.readGroup words = .ok (values, rest)) (harguments : i.arguments = []) :
    ∃ pieces behind, Parts i words pieces behind rest := by
  obtain ⟨c, hc, hbind⟩ := of_readGroup h
  obtain ⟨pieces, behind, left, hparts⟩ := exists_parts_of_collect hc
  obtain rfl := Except.ok.inj ((collect_of_parts hparts {}).symm.trans hc)
  have hrest := (Interface.reads_of_bind hbind
    (AreTyped.collect (fun e he => absurd he List.not_mem_nil) hc)).2
  rw [harguments] at hrest
  obtain rfl : rest = left := hrest
  exact ⟨pieces, behind, hparts⟩

/-- The value of an option that takes one text is the last text that the pieces give to it. -/
theorem text?_of_parts {words behind rest left : List String} {values : Values}
    {pieces : List Piece} {o : OptionDecl} (h : i.readGroup words = .ok (values, rest))
    (hparts : Parts i words pieces behind left) (harguments : i.arguments = [])
    (ho : i.TakesText o) :
    values.text? o.identifier = (textsOf o.identifier (pieces.flatMap Piece.uses)).getLast? := by
  obtain ⟨c, hc, hbind⟩ := of_readGroup h
  obtain rfl := Except.ok.inj ((collect_of_parts hparts {}).symm.trans hc)
  have huses : ∀ u ∈ pieces.flatMap Piece.uses, u.IsOf i := by
    intro u hu
    obtain ⟨p, hp, hu⟩ := List.mem_flatMap.1 hu
    exact (hparts.isOf p hp).uses_isOf u hu
  have hreads := (Interface.reads_of_bind hbind
    (AreTyped.collect (fun e he => absurd he List.not_mem_nil) hc)).1
  refine text?_of_reads hreads harguments ho ?_
  rw [Interface.withArguments, harguments]
  exact (get?_addAll huses ho.isText {}).trans Option.or_none

end ApiShell.CommandLine
