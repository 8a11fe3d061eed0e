import ApiShell.Markup.Basic
import ApiShell.Proofs.Run
import Mathlib

/-!
# Texts that are shown as they are

A text without tags, without a backslash before an opening bracket and without the name of a picture is
shown as it is (`plainText_of_unmarked`).  Whatever else is shown has lost something: tags lose their
brackets, names of pictures their colons, and a backslash goes before a bracket.  So every other text is
shown with fewer marks than it has (`marks_plainText`).

A text can be shown exactly if its tags are in order: each closing tag closes one that is open
(`succeeds_plainText_iff`).
-/

namespace ApiShell.Markup

/-! ### Marks -/

/-- A character that can belong to a tag, an escape or the name of a picture. -/
def isMark (c : Char) : Bool := c == '[' || c == '\\' || c == ':'

/-- The number of marks in a text. -/
def marks (cs : List Char) : ℕ := cs.countP isMark

@[simp] theorem marks_nil : marks [] = 0 := rfl

@[simp] theorem marks_cons (c : Char) (cs : List Char) :
    marks (c :: cs) = marks cs + if isMark c then 1 else 0 := List.countP_cons ..

@[simp] theorem marks_append (cs ds : List Char) : marks (cs ++ ds) = marks cs + marks ds :=
  List.countP_append

@[simp] theorem marks_reverse (cs : List Char) : marks cs.reverse = marks cs := List.countP_reverse

theorem marks_replicate (n : ℕ) : marks (List.replicate n '\\') = n := by
  rw [marks, List.countP_replicate, if_pos (by decide)]

/-! ### Texts without marks of their own -/

/-- A tag stands in the text: an opening bracket, a character that starts a tag, and no bracket before
the closing one. -/
def HasTag (cs : List Char) : Prop :=
  ∃ before c inner after, cs = before ++ '[' :: c :: (inner ++ ']' :: after) ∧ startsTag c = true ∧
    ∀ d ∈ inner, d ≠ ']' ∧ d ≠ '['

/-- What can be the name of a picture behind a colon: everything up to the next colon or blank. -/
def codeName (rest : List Char) : List Char := rest.takeWhile fun c => c != ':' && !Text.isBlank c

/-- A colon, a name and another colon. -/
def StartsCode (c : Char) (rest : List Char) : Prop :=
  c = ':' ∧ (rest.drop (codeName rest).length).head? = some ':'

instance (c : Char) (rest : List Char) : Decidable (StartsCode c rest) :=
  inferInstanceAs (Decidable (_ ∧ _))

/-- The names between two colons, from the left on; no colon belongs to two of them. -/
def codes : List Char → List (List Char)
  | [] => []
  | c :: rest =>
    if StartsCode c rest then codeName rest :: codes (rest.drop ((codeName rest).length + 1))
    else codes rest
termination_by cs => cs.length
decreasing_by all_goals simp; try omega

/-- Nothing in the text has a meaning as markup. -/
structure Unmarked (cs : List Char) : Prop where
  noTag : ¬ HasTag cs
  noEscape : ¬ ['\\', '['] <:+: cs
  noCode : ∀ name ∈ codes cs, pictogram? name = none

/-! ### Pictures -/

/-- There are no marks in a picture. -/
theorem marks_pictogram? {name picture : List Char} (h : pictogram? name = some picture) :
    marks picture = 0 := by
  have htable : ∀ e ∈ pictograms, marks e.2.toList = 0 := by decide +kernel
  have hfind : ∀ {name picture : List Char}, (pictograms.find? (·.1 == String.ofList
      (Text.lowerChars name))).map (·.2.toList) = some picture → marks picture = 0 := by
    intro name picture hname
    obtain ⟨e, he, rfl⟩ := Option.map_eq_some_iff.1 hname
    exact htable e (List.mem_of_find?_eq_some he)
  have hkind : ∀ {mark : String} {selector : Char}, isMark selector = false →
      (if mark.toList.isSuffixOf name then ((pictograms.find? (·.1 == String.ofList
        (Text.lowerChars (name.take (name.length - mark.toList.length))))).map (·.2.toList)).map
          (· ++ [selector]) else none) = some picture → marks picture = 0 := by
    intro mark selector hselector hpicture
    split at hpicture
    · obtain ⟨found, hfound, rfl⟩ := Option.map_eq_some_iff.1 hpicture
      rw [marks_append, hfind hfound]
      simp [hselector]
    · cases hpicture
  unfold pictogram? at h
  dsimp only at h
  rw [Option.or_eq_some_iff, Option.or_eq_some_iff] at h
  rcases h with h | ⟨-, h | ⟨-, h⟩⟩
  · exact hkind (by decide) h
  · exact hkind (by decide) h
  · exact hfind h

/-- A text that starts with certain characters and has a character after them. -/
theorem eq_append_of_head?_drop {start cs : List Char} {c : Char} (hstart : start <+: cs)
    (h : (cs.drop start.length).head? = some c) :
    cs = start ++ c :: cs.drop (start.length + 1) := by
  obtain ⟨tail, htail⟩ := List.head?_eq_some_iff.1 h
  have hrest : cs.drop (start.length + 1) = tail := by
    rw [← List.drop_drop, htail]
    rfl
  rw [hrest, ← htail]
  exact (List.prefix_iff_eq_append.1 hstart).symm

section Codes

variable {c : Char} {rest : List Char}

/-- A name between two colons, and what follows it. -/
theorem StartsCode.eq_append (h : StartsCode c rest) :
    c :: rest = ':' :: (codeName rest ++ ':' :: rest.drop ((codeName rest).length + 1)) := by
  have hrest : rest = codeName rest ++ ':' :: rest.drop ((codeName rest).length + 1) :=
    eq_append_of_head?_drop (List.takeWhile_prefix _) h.2
  rw [h.1]
  exact congrArg (':' :: ·) hrest

theorem drawPictograms_of_startsCode (h : StartsCode c rest) : drawPictograms (c :: rest) =
    (pictogram? (codeName rest)).getD (':' :: codeName rest ++ [':']) ++
      drawPictograms (rest.drop ((codeName rest).length + 1)) := by
  have hcode : (c == ':' && (rest.drop (codeName rest).length).head? == some ':') = true := by
    rw [h.1, h.2]
    rfl
  rw [drawPictograms]
  exact if_pos hcode

theorem drawPictograms_of_not_startsCode (h : ¬ StartsCode c rest) :
    drawPictograms (c :: rest) = c :: drawPictograms rest := by
  have hcode : ¬ (c == ':' && (rest.drop (codeName rest).length).head? == some ':') = true := by
    rw [Bool.and_eq_true, beq_iff_eq, beq_iff_eq]
    exact h
  rw [drawPictograms]
  exact if_neg hcode

end Codes

/-- Names that have no picture stay. -/
theorem drawPictograms_eq_self {cs : List Char} (h : ∀ name ∈ codes cs, pictogram? name = none) :
    drawPictograms cs = cs := by
  induction cs using codes.induct with
  | case1 => rw [drawPictograms]
  | case2 c rest hcode ih =>
    rw [codes, if_pos hcode, List.forall_mem_cons] at h
    rw [drawPictograms_of_startsCode hcode, h.1, Option.getD_none, ih h.2, hcode.eq_append]
    simp
  | case3 c rest hcode ih =>
    rw [codes, if_neg hcode] at h
    rw [drawPictograms_of_not_startsCode hcode, ih h]

/-- A name that has a picture loses its colons. -/
theorem marks_drawPictograms (cs : List Char) :
    marks (drawPictograms cs) ≤ marks cs ∧
      (¬ (∀ name ∈ codes cs, pictogram? name = none) → marks (drawPictograms cs) < marks cs) := by
  induction cs using codes.induct with
  | case1 => simp [drawPictograms, codes]
  | case2 c rest hcode ih =>
    have hmarks : marks (c :: rest) =
        marks (codeName rest) + 2 + marks (rest.drop ((codeName rest).length + 1)) := by
      rw [hcode.eq_append]
      simp only [marks_cons, marks_append, show isMark ':' = true from rfl, if_true]
      omega
    rw [codes, if_pos hcode, List.forall_mem_cons, drawPictograms_of_startsCode hcode, marks_append,
      hmarks]
    cases hpicture : pictogram? (codeName rest) with
    | none =>
      have hkept : marks (':' :: codeName rest ++ [':']) = marks (codeName rest) + 2 := by
        simp [isMark]
      rw [Option.getD_none, hkept, and_iff_right rfl]
      exact ⟨Nat.add_le_add_left ih.1 _, fun h => Nat.add_lt_add_left (ih.2 h) _⟩
    | some picture =>
      rw [Option.getD_some, marks_pictogram? hpicture]
      omega
  | case3 c rest hcode ih =>
    rw [codes, if_neg hcode, drawPictograms_of_not_startsCode hcode, marks_cons, marks_cons]
    exact ⟨Nat.add_le_add_right ih.1 _, fun h => Nat.add_lt_add_right (ih.2 h) _⟩

/-! ### Escapes -/

theorem dropBracketEscapes_eq_self {cs : List Char} (h : ¬ ['\\', '['] <:+: cs) :
    dropBracketEscapes cs = cs := by
  induction cs using dropBracketEscapes.induct with
  | case1 cs ih => exact absurd ⟨[], cs, rfl⟩ h
  | case2 c cs hother ih =>
    rw [dropBracketEscapes, ih fun hrest => h (hrest.trans (List.suffix_cons c cs).isInfix)]
    exact hother
  | case3 => rfl

/-- An escape loses its backslash. -/
theorem marks_dropBracketEscapes (cs : List Char) :
    marks (dropBracketEscapes cs) ≤ marks cs ∧
      (['\\', '['] <:+: cs → marks (dropBracketEscapes cs) < marks cs) := by
  induction cs using dropBracketEscapes.induct with
  | case1 cs ih =>
    rw [dropBracketEscapes]
    simp only [marks_cons, show isMark '\\' = true from rfl, show isMark '[' = true from rfl, if_true]
    omega
  | case2 c cs hother ih =>
    have hlater : ['\\', '['] <:+: c :: cs → ['\\', '['] <:+: cs := by
      intro hinfix
      refine (List.infix_cons_iff.1 hinfix).resolve_left ?_
      rintro ⟨rest, heq⟩
      obtain ⟨rfl, hrest⟩ := List.cons.inj heq
      exact hother rest rfl hrest.symm
    rw [dropBracketEscapes, marks_cons, marks_cons]
    · exact ⟨Nat.add_le_add_right ih.1 _, fun h => Nat.add_lt_add_right (ih.2 (hlater h)) _⟩
    · exact hother
  | case3 => simp [dropBracketEscapes]

/-- The shown text of characters that are no tag. -/
theorem shownPlain_eq_self {cs : List Char} (hescape : ¬ ['\\', '['] <:+: cs)
    (hcode : ∀ name ∈ codes cs, pictogram? name = none) (hcontrol : ∀ c ∈ cs, isControl c = false) :
    shownPlain cs = cs := by
  rw [shownPlain, dropBracketEscapes_eq_self hescape, shownRun, drawPictograms_eq_self hcode]
  exact List.filter_eq_self.2 fun c hc => by rw [hcontrol c hc, Bool.not_false]

theorem marks_shownRun (cs : List Char) :
    marks (shownRun cs) ≤ marks cs ∧
      (¬ (∀ name ∈ codes cs, pictogram? name = none) → marks (shownRun cs) < marks cs) := by
  have hfilter : marks (shownRun cs) ≤ marks (drawPictograms cs) :=
    List.filter_sublist.countP_le
  have hpictures := marks_drawPictograms cs
  exact ⟨hfilter.trans hpictures.1, fun h => hfilter.trans_lt (hpictures.2 h)⟩

theorem marks_shownPlain (cs : List Char) :
    marks (shownPlain cs) ≤ marks cs ∧
      (['\\', '['] <:+: cs ∨ ¬ (∀ name ∈ codes cs, pictogram? name = none) →
        marks (shownPlain cs) < marks cs) := by
  obtain ⟨hdropped, hescape⟩ := marks_dropBracketEscapes cs
  obtain ⟨hrun, hcode⟩ := marks_shownRun (dropBracketEscapes cs)
  refine ⟨hrun.trans hdropped, fun h => ?_⟩
  by_cases hinfix : ['\\', '['] <:+: cs
  · exact hrun.trans_lt (hescape hinfix)
  · rw [dropBracketEscapes_eq_self hinfix] at hcode
    rw [shownPlain, dropBracketEscapes_eq_self hinfix]
    exact hcode (h.resolve_left hinfix)

/-! ### Tags -/

theorem tagAt?_eq_some_iff {cs tag : List Char} :
    tagAt? cs = some tag ↔ ∃ c inner after, cs = '[' :: c :: (inner ++ ']' :: after) ∧
      startsTag c = true ∧ (∀ d ∈ inner, d ≠ ']' ∧ d ≠ '[') ∧ tag = c :: inner := by
  constructor
  · intro h
    unfold tagAt? at h
    split at h
    · next c rest =>
      split at h
      · next hstarts =>
        dsimp only at h
        split at h
        · next hclosed =>
          have hrest := eq_append_of_head?_drop (List.takeWhile_prefix _) (beq_iff_eq.1 hclosed)
          refine ⟨c, _, _, congrArg ('[' :: c :: ·) hrest, hstarts, fun d hd => ?_,
            (Option.some.inj h).symm⟩
          have hopen := List.mem_takeWhile_imp hd
          simpa using hopen
        · cases h
      · cases h
    · cases h
  · rintro ⟨c, inner, after, rfl, hstarts, hinner, rfl⟩
    have hinside : (inner ++ ']' :: after).takeWhile (fun d => d != ']' && d != '[') = inner := by
      rw [List.takeWhile_append_of_pos fun d hd => by simp [hinner d hd],
        List.takeWhile_cons_of_neg (by simp), List.append_nil]
    rw [tagAt?, if_pos hstarts, hinside]
    simp

/-- A tag at the beginning of a text. -/
theorem hasTag_of_tagAt? {cs rest tag : List Char} (h : tagAt? cs = some tag) (before : List Char)
    (hrest : rest = before ++ cs) : HasTag rest := by
  obtain ⟨c, inner, after, rfl, hstarts, hinner, -⟩ := tagAt?_eq_some_iff.1 h
  exact ⟨before, c, inner, after, hrest, hstarts, hinner⟩

/-- A tag stands at the beginning of one of the ends of a text. -/
theorem hasTag_iff {cs : List Char} : HasTag cs ↔ ∃ rest ∈ cs.tails, (tagAt? rest).isSome = true := by
  constructor
  · rintro ⟨before, c, inner, after, rfl, htag⟩
    have hat := tagAt?_eq_some_iff.2 ⟨c, inner, after, rfl, htag.1, htag.2, rfl⟩
    exact ⟨_, (List.mem_tails _ _).2 (List.suffix_append before _), Option.isSome_of_eq_some hat⟩
  · rintro ⟨rest, hrest, htag⟩
    obtain ⟨before, heq⟩ := (List.mem_tails _ _).1 hrest
    obtain ⟨tag, htag⟩ := Option.isSome_iff_exists.1 htag
    exact hasTag_of_tagAt? htag before heq.symm

instance (cs : List Char) : Decidable (HasTag cs) := decidable_of_iff _ hasTag_iff.symm

theorem unmarked_iff {cs : List Char} : Unmarked cs ↔
    ¬ HasTag cs ∧ ¬ ['\\', '['] <:+: cs ∧ ∀ name ∈ codes cs, pictogram? name = none :=
  ⟨fun h => ⟨h.noTag, h.noEscape, h.noCode⟩, fun h => ⟨h.1, h.2.1, h.2.2⟩⟩

instance (cs : List Char) : Decidable (Unmarked cs) := decidable_of_iff _ unmarked_iff.symm

/-- The text of a part. -/
def pieceText : Piece → List Char
  | .plain c => [c]
  | .tag backslashes inner => List.replicate backslashes '\\' ++ tagText inner

/-- The backslashes at the beginning of a text. -/
def backslashesAt (cs : List Char) : ℕ := (cs.takeWhile (· == '\\')).length

theorem eq_replicate_append (cs : List Char) :
    cs = List.replicate (backslashesAt cs) '\\' ++ cs.drop (backslashesAt cs) := by
  have hstart : cs.takeWhile (· == '\\') = List.replicate (backslashesAt cs) '\\' :=
    List.eq_replicate_iff.2 ⟨rfl, fun c hc =>
      beq_iff_eq.1 (List.mem_takeWhile_imp (p := (· == '\\')) hc)⟩
  have hsplit : cs.takeWhile (· == '\\') ++ cs.drop (backslashesAt cs) = cs :=
    List.prefix_iff_eq_append.1 (List.takeWhile_prefix _)
  rw [hstart] at hsplit
  exact hsplit.symm

section Pieces

variable {c : Char} {rest : List Char}

theorem pieces_of_tag {inner : List Char}
    (h : tagAt? ((c :: rest).drop (backslashesAt (c :: rest))) = some inner) :
    pieces (c :: rest) = .tag (backslashesAt (c :: rest)) inner ::
      pieces (rest.drop (backslashesAt (c :: rest) + inner.length + 1)) := by
  rw [backslashesAt] at h
  rw [pieces, h]
  rfl

theorem pieces_of_plain (h : tagAt? ((c :: rest).drop (backslashesAt (c :: rest))) = none) :
    pieces (c :: rest) = .plain c :: pieces rest := by
  rw [backslashesAt] at h
  rw [pieces, h]

/-- A tag, the backslashes before it and what follows it. -/
theorem eq_pieceText_append {inner : List Char}
    (h : tagAt? ((c :: rest).drop (backslashesAt (c :: rest))) = some inner) :
    c :: rest = pieceText (.tag (backslashesAt (c :: rest)) inner) ++
      rest.drop (backslashesAt (c :: rest) + inner.length + 1) := by
  obtain ⟨d, more, after, hdrop, -, -, rfl⟩ := tagAt?_eq_some_iff.1 h
  have hwhole := eq_replicate_append (c :: rest)
  generalize backslashesAt (c :: rest) = n at hdrop hwhole
  have hsplit : c :: rest = pieceText (.tag n (d :: more)) ++ after := by
    rw [hwhole, hdrop, pieceText, tagText]
    simp
  have hlength : (pieceText (.tag n (d :: more))).length = (n + (d :: more).length + 1) + 1 := by
    rw [pieceText, tagText]
    simp
    omega
  have hafter : rest.drop (n + (d :: more).length + 1) = after := by
    rw [← List.drop_succ_cons, hsplit, List.drop_left' hlength]
  rw [hafter, hsplit]

/-- Without a tag at the beginning, a tag stands further on. -/
theorem HasTag.of_cons (h : HasTag (c :: rest))
    (hfirst : tagAt? ((c :: rest).drop (backslashesAt (c :: rest))) = none) : HasTag rest := by
  obtain ⟨before, d, inner, after, heq, hstarts, hinner⟩ := h
  cases before with
  | nil =>
    rw [List.nil_append] at heq
    have htag := tagAt?_eq_some_iff.2 ⟨d, inner, after, heq, hstarts, hinner, rfl⟩
    obtain ⟨rfl, -⟩ := List.cons.inj heq
    have hnone : backslashesAt ('[' :: rest) = 0 := rfl
    rw [hnone, List.drop_zero, htag] at hfirst
    cases hfirst
  | cons e before => exact ⟨before, d, inner, after, (List.cons.inj heq).2, hstarts, hinner⟩

end Pieces

/-- The parts of a text are found one after the other: a tag with the backslashes before it, or else a
character. -/
theorem pieces_induction {motive : List Char → Prop} (nil : motive [])
    (tag : ∀ c rest inner, tagAt? ((c :: rest).drop (backslashesAt (c :: rest))) = some inner →
      motive (rest.drop (backslashesAt (c :: rest) + inner.length + 1)) → motive (c :: rest))
    (plain : ∀ c rest, tagAt? ((c :: rest).drop (backslashesAt (c :: rest))) = none →
      motive rest → motive (c :: rest)) (cs : List Char) : motive cs := by
  induction cs using pieces.induct with
  | case1 => exact nil
  | case2 c rest backslashes inner htag ih => exact tag c rest inner htag ih
  | case3 c rest backslashes htag ih => exact plain c rest htag ih

/-- The parts of a text make the text. -/
theorem flatMap_pieceText (cs : List Char) : (pieces cs).flatMap pieceText = cs := by
  induction cs using pieces_induction with
  | nil => rw [pieces]; rfl
  | tag c rest inner h ih =>
    rw [pieces_of_tag h, List.flatMap_cons, ih, ← eq_pieceText_append h]
  | plain c rest h ih =>
    rw [pieces_of_plain h, List.flatMap_cons, ih]
    rfl

/-- A text without tags has only characters as parts. -/
theorem pieces_eq_map {cs : List Char} (h : ¬ HasTag cs) : pieces cs = cs.map .plain := by
  induction cs using pieces_induction with
  | nil => rw [pieces]; rfl
  | tag c rest inner htag =>
    exact absurd (hasTag_of_tagAt? htag _ (eq_replicate_append (c :: rest))) h
  | plain c rest hplain ih =>
    rw [pieces_of_plain hplain, List.map_cons, ih]
    rintro ⟨before, d, inner, after, heq, htag⟩
    exact h ⟨c :: before, d, inner, after, congrArg (c :: ·) heq, htag⟩

/-- A text with a tag has a tag as a part. -/
theorem exists_tag_mem_pieces {cs : List Char} (h : HasTag cs) :
    ∃ backslashes inner, Piece.tag backslashes inner ∈ pieces cs := by
  induction cs using pieces_induction with
  | nil =>
    obtain ⟨before, _, _, _, heq, -⟩ := h
    cases before <;> cases heq
  | tag c rest inner htag =>
    rw [pieces_of_tag htag]
    exact ⟨_, _, List.mem_cons_self⟩
  | plain c rest hplain ih =>
    obtain ⟨backslashes, inner, hmem⟩ := ih (h.of_cons hplain)
    rw [pieces_of_plain hplain]
    exact ⟨backslashes, inner, List.mem_cons_of_mem _ hmem⟩

/-! ### Tags in order -/

/-- What a tag does. -/
inductive TagEvent where
  | opens (name : String)
  | closes (name : String)
  /-- The tag closes the one that was opened last. -/
  | closesLast

/-- What a part of a text does: nothing unless it is a tag that is not escaped. -/
def Piece.event? : Piece → Option TagEvent
  | .plain _ => none
  | .tag backslashes inner =>
    if backslashes % 2 = 1 then none
    else
      let name := tagName inner
      if name.head? = some '/' then
        let name := Text.trimOf Text.isBlank name.tail
        if name = [] then some .closesLast else some (.closes (normalName name))
      else some (.opens (normalName name))

/-- Every closing tag closes an open one, a named one that of its name that was opened last.  The open
tags at the beginning are given, the last one first. -/
inductive InOrder : List String → List TagEvent → Prop
  | nil {tags : List String} : InOrder tags []
  | opens {tags : List String} {name : String} {events : List TagEvent}
      (h : InOrder (name :: tags) events) : InOrder tags (.opens name :: events)
  | closes {before after : List String} {name : String} {events : List TagEvent}
      (hlast : name ∉ before) (h : InOrder (before ++ after) events) :
      InOrder (before ++ name :: after) (.closes name :: events)
  | closesLast {tag : String} {tags : List String} {events : List TagEvent} (h : InOrder tags events) :
      InOrder (tag :: tags) (.closesLast :: events)

/-- The tags of a text are in order. -/
def TagsInOrder (s : String) : Prop := InOrder [] ((pieces s.toList).filterMap Piece.event?)

theorem closeTag_eq_some_iff {name : String} {tags left : List String} :
    closeTag name tags = some left ↔
      ∃ before after, tags = before ++ name :: after ∧ name ∉ before ∧ left = before ++ after := by
  induction tags generalizing left with
  | nil => simp [closeTag]
  | cons tag tags ih =>
    rw [closeTag]
    by_cases hname : tag = name
    · subst hname
      rw [if_pos (beq_self_eq_true tag)]
      constructor
      · intro h
        exact ⟨[], tags, rfl, List.not_mem_nil, (Option.some.inj h).symm⟩
      · rintro ⟨before, after, heq, hlast, rfl⟩
        cases before with
        | nil => rw [(List.cons.inj heq).2, List.nil_append]
        | cons b before => exact absurd ((List.cons.inj heq).1 ▸ List.mem_cons_self) hlast
    · rw [if_neg (by simpa using hname)]
      constructor
      · intro h
        obtain ⟨left', hleft, rfl⟩ := Option.map_eq_some_iff.1 h
        obtain ⟨before, after, rfl, hlast, rfl⟩ := ih.1 hleft
        refine ⟨tag :: before, after, rfl, fun hmem => ?_, rfl⟩
        exact (List.mem_cons.1 hmem).elim (fun heq => hname heq.symm) hlast
      · rintro ⟨before, after, heq, hlast, rfl⟩
        cases before with
        | nil => exact absurd (List.cons.inj heq).1 hname
        | cons b before =>
          obtain ⟨rfl, htags⟩ := List.cons.inj heq
          have hrest := ih.2 ⟨before, after, htags, fun hmem => hlast (List.mem_cons_of_mem _ hmem), rfl⟩
          exact Option.map_eq_some_iff.2 ⟨_, hrest, rfl⟩

/-- The tags that are open behind a tag, unless it closes one that is not open. -/
def TagEvent.left? : TagEvent → List String → Option (List String)
  | .opens name, tags => some (name :: tags)
  | .closes name, tags => closeTag name tags
  | .closesLast, tags => tags.tail?

/-- Tags are in order exactly if the first one leaves open tags that the others are in order with. -/
theorem inOrder_cons_iff {event : TagEvent} {tags : List String} {events : List TagEvent} :
    InOrder tags (event :: events) ↔ ∃ left, event.left? tags = some left ∧ InOrder left events := by
  constructor
  · intro h
    cases h with
    | opens h => exact ⟨_, rfl, h⟩
    | closes hlast h => exact ⟨_, closeTag_eq_some_iff.2 ⟨_, _, rfl, hlast, rfl⟩, h⟩
    | closesLast h => exact ⟨_, rfl, h⟩
  · rintro ⟨left, hleft, h⟩
    cases event with
    | opens name =>
      obtain rfl := Option.some.inj hleft
      exact .opens h
    | closes name =>
      obtain ⟨before, after, rfl, hlast, rfl⟩ := closeTag_eq_some_iff.1 hleft
      exact .closes hlast h
    | closesLast =>
      cases tags with
      | nil => cases hleft
      | cons tag tags =>
        obtain rfl := Option.some.inj hleft
        exact .closesLast h

/-! ### Shown texts -/

/-- Characters that are no tag are shown as a run. -/
theorem shown_map_plain (tags : List String) (run cs : List Char) :
    shown tags run (cs.map .plain) = .ok (shownPlain (run.reverse ++ cs)) := by
  induction cs generalizing run with
  | nil => rw [List.map_nil, shown, List.append_nil]
  | cons c cs ih => rw [List.map_cons, shown, ih, List.reverse_cons, List.append_assoc]; rfl

theorem marks_tagText (inner : List Char) : 1 ≤ marks (tagText inner) := by
  rw [tagText, List.cons_append, marks_cons, if_pos (by decide)]
  omega

section Tag

variable {tags : List String} {run inner : List Char} {backslashes : ℕ} {ps : List Piece}

theorem event?_tag_eq_none_iff : (Piece.tag backslashes inner).event? = none ↔ backslashes % 2 = 1 := by
  unfold Piece.event?
  dsimp only
  split
  · next hodd => exact iff_of_true rfl hodd
  · next hodd =>
    refine iff_of_false ?_ hodd
    split
    · split <;> exact Option.some_ne_none _
    · exact Option.some_ne_none _

/-- An escaped tag is shown with half of its backslashes. -/
theorem shown_of_escaped (h : (Piece.tag backslashes inner).event? = none) :
    shown tags run (.tag backslashes inner :: ps) = (shown tags [] ps).map
      (shownPlain run.reverse ++ List.replicate (backslashes / 2) '\\' ++
        shownPlain (tagText inner) ++ ·) := by
  rw [shown]
  dsimp only
  rw [if_pos (event?_tag_eq_none_iff.1 h)]
  exact (map_eq_pure_bind _ (shown tags [] ps)).symm

/-- A tag that is not escaped is left out, and what follows is shown with the tags that it leaves
open. -/
theorem shown_of_event {event : TagEvent} (h : (Piece.tag backslashes inner).event? = some event) :
    shown tags run (.tag backslashes inner :: ps) =
      match event.left? tags with
      | none => .error .markup
      | some left => (shown left [] ps).map
          (shownPlain run.reverse ++ List.replicate (backslashes / 2) '\\' ++ ·) := by
  unfold Piece.event? at h
  dsimp only at h
  split at h
  · cases h
  next hodd =>
  rw [shown]
  dsimp only
  rw [if_neg hodd]
  split
  · next name htag =>
    rw [htag, List.head?_cons, if_pos rfl, List.tail_cons] at h
    generalize Text.trimOf Text.isBlank name = trimmed at h ⊢
    cases trimmed with
    | nil =>
      rw [if_pos rfl] at h
      obtain rfl := Option.some.inj h
      cases tags with
      | nil => rfl
      | cons tag tags => exact (map_eq_pure_bind _ (shown tags [] ps)).symm
    | cons c trimmed =>
      rw [if_neg (List.cons_ne_nil c trimmed)] at h
      obtain rfl := Option.some.inj h
      dsimp only [TagEvent.left?]
      cases closeTag (normalName (c :: trimmed)) tags with
      | none => rfl
      | some left => exact (map_eq_pure_bind _ (shown left [] ps)).symm
  · next hopens =>
    have hhead : (tagName inner).head? ≠ some '/' := by
      intro hhead
      obtain ⟨name, htag⟩ := List.head?_eq_some_iff.1 hhead
      exact hopens name htag
    rw [if_neg hhead] at h
    obtain rfl := Option.some.inj h
    exact (map_eq_pure_bind _ (shown (normalName (tagName inner) :: tags) [] ps)).symm

/-- A tag and the run before it lose a mark: a tag is left out, and an escaped one loses a backslash. -/
theorem exists_of_shown_tag {out : List Char}
    (h : shown tags run (.tag backslashes inner :: ps) = .ok out) :
    ∃ left before rest, shown left [] ps = .ok rest ∧ out = before ++ rest ∧
      marks before < marks run + marks (pieceText (.tag backslashes inner)) := by
  have hrun := (marks_shownPlain run.reverse).1
  have hescaped := (marks_shownPlain (tagText inner)).1
  have htag := marks_tagText inner
  rw [marks_reverse] at hrun
  rw [pieceText, marks_append, marks_replicate]
  cases hevent : (Piece.tag backslashes inner).event? with
  | none =>
    have hodd := event?_tag_eq_none_iff.1 hevent
    rw [shown_of_escaped hevent] at h
    obtain ⟨rest, hrest, rfl⟩ := map_eq_ok_iff.1 h
    refine ⟨tags, _, rest, hrest, rfl, ?_⟩
    rw [marks_append, marks_append, marks_replicate]
    omega
  | some event =>
    rw [shown_of_event hevent] at h
    cases hleft : event.left? tags with
    | none =>
      rw [hleft] at h
      cases h
    | some left =>
      rw [hleft] at h
      obtain ⟨rest, hrest, rfl⟩ := map_eq_ok_iff.1 h
      refine ⟨left, _, rest, hrest, rfl, ?_⟩
      rw [marks_append, marks_replicate]
      omega

end Tag

/-- No part has more marks where it is shown than it has, and a tag has fewer. -/
theorem marks_shown {tags : List String} {run out : List Char} {ps : List Piece}
    (h : shown tags run ps = .ok out) :
    marks out ≤ marks run + marks (ps.flatMap pieceText) ∧
      ((∃ backslashes inner, Piece.tag backslashes inner ∈ ps) →
        marks out < marks run + marks (ps.flatMap pieceText)) := by
  induction ps generalizing tags run out with
  | nil =>
    rw [shown] at h
    obtain rfl := Except.ok.inj h
    have hrun := (marks_shownPlain run.reverse).1
    rw [marks_reverse] at hrun
    exact ⟨hrun, nofun⟩
  | cons p ps ih =>
    cases p with
    | plain c =>
      rw [shown] at h
      obtain ⟨hle, hlt⟩ := ih h
      have hsum : marks run + marks ((Piece.plain c :: ps).flatMap pieceText) =
          marks (c :: run) + marks (ps.flatMap pieceText) := by
        rw [List.flatMap_cons, marks_append, pieceText, marks_cons, marks_cons, marks_nil]
        omega
      rw [hsum]
      refine ⟨hle, ?_⟩
      rintro ⟨backslashes, inner, hmem⟩
      exact hlt ⟨backslashes, inner, (List.mem_cons.1 hmem).resolve_left nofun⟩
    | tag backslashes inner =>
      suffices hlost : marks out < marks run + marks ((Piece.tag backslashes inner :: ps).flatMap
          pieceText) from ⟨hlost.le, fun _ => hlost⟩
      obtain ⟨left, before, rest, hrest, rfl, hbefore⟩ := exists_of_shown_tag h
      have hle := (ih hrest).1
      rw [marks_nil, Nat.zero_add] at hle
      rw [List.flatMap_cons, marks_append, marks_append]
      omega

/-! ### Marked-up texts -/

variable {s : String} {out : List Char}

theorem HasTag.mem {cs : List Char} (h : HasTag cs) : '[' ∈ cs := by
  obtain ⟨before, c, inner, after, rfl, -⟩ := h
  exact List.mem_append_right _ List.mem_cons_self

/-- A text without tags is shown as a run of characters. -/
theorem plainText_of_not_hasTag (h : ¬ HasTag s.toList) :
    plainText s = .ok (if '[' ∈ s.toList then shownPlain s.toList else shownRun s.toList) := by
  rw [plainText]
  simp only [List.contains_iff_mem]
  split
  · rw [pieces_eq_map h, shown_map_plain]
    rfl
  · rfl

/-- Parts are shown exactly if their tags are in order. -/
theorem succeeds_shown_iff {tags : List String} {run : List Char} {ps : List Piece} :
    Succeeds (shown tags run ps) ↔ InOrder tags (ps.filterMap Piece.event?) := by
  induction ps generalizing tags run with
  | nil => exact iff_of_true ⟨_, rfl⟩ .nil
  | cons p ps ih =>
    cases p with
    | plain c => exact ih
    | tag backslashes inner =>
      cases hevent : (Piece.tag backslashes inner).event? with
      | none =>
        rw [shown_of_escaped hevent, succeeds_map_iff, List.filterMap_cons_none hevent]
        exact ih
      | some event =>
        rw [shown_of_event hevent, List.filterMap_cons_some hevent, inOrder_cons_iff]
        cases event.left? tags with
        | none => exact iff_of_false (not_succeeds_error _) fun ⟨_, heq, _⟩ => nomatch heq
        | some left =>
          refine succeeds_map_iff.trans (ih.trans ⟨fun h => ⟨left, rfl, h⟩, ?_⟩)
          rintro ⟨_, heq, h⟩
          exact Option.some.inj heq ▸ h

/-- Where there is no tag, nothing is out of order. -/
theorem tagsInOrder_of_not_hasTag (h : ¬ HasTag s.toList) : TagsInOrder s := by
  have hevents : (s.toList.map Piece.plain).filterMap Piece.event? = [] := by
    rw [List.filterMap_map]
    exact List.filterMap_eq_nil_iff.2 fun _ _ => rfl
  rw [TagsInOrder, pieces_eq_map h, hevents]
  exact .nil

/-- A text is shown exactly if its tags are in order. -/
theorem succeeds_plainText_iff : Succeeds (plainText s) ↔ TagsInOrder s := by
  by_cases htag : HasTag s.toList
  · rw [plainText, if_pos (List.contains_iff_mem.2 htag.mem)]
    exact succeeds_shown_iff
  · exact iff_of_true ⟨_, plainText_of_not_hasTag htag⟩ (tagsInOrder_of_not_hasTag htag)

/-- A text without markup is shown as it is. -/
theorem plainText_of_unmarked (h : Unmarked s.toList)
    (hcontrol : ∀ c ∈ s.toList, isControl c = false) : plainText s = .ok s.toList := by
  have hplain := shownPlain_eq_self h.noEscape h.noCode hcontrol
  have hrun : shownRun s.toList = s.toList := by
    rwa [shownPlain, dropBracketEscapes_eq_self h.noEscape] at hplain
  rw [plainText_of_not_hasTag h.noTag, hplain, hrun, ite_self]

/-- No text is shown with more marks than it has, and a text with markup is shown with fewer. -/
theorem marks_plainText (h : plainText s = .ok out) :
    marks out ≤ marks s.toList ∧ (¬ Unmarked s.toList → marks out < marks s.toList) := by
  by_cases htag : HasTag s.toList
  · rw [plainText, if_pos (List.contains_iff_mem.2 htag.mem)] at h
    obtain ⟨hle, hlt⟩ := marks_shown h
    rw [marks_nil, Nat.zero_add, flatMap_pieceText] at hle hlt
    exact ⟨hle, fun _ => hlt (exists_tag_mem_pieces htag)⟩
  · rw [plainText_of_not_hasTag htag] at h
    obtain rfl := Except.ok.inj h
    have hmeans : ¬ Unmarked s.toList → ['\\', '['] <:+: s.toList ∨
        ¬ ∀ name ∈ codes s.toList, pictogram? name = none := by
      intro hmarked
      by_contra hnone
      rw [not_or, not_not] at hnone
      exact hmarked ⟨htag, hnone.1, hnone.2⟩
    split
    · obtain ⟨hle, hlt⟩ := marks_shownPlain s.toList
      exact ⟨hle, fun hmarked => hlt (hmeans hmarked)⟩
    · next hbracket =>
      obtain ⟨hle, hlt⟩ := marks_shownRun s.toList
      refine ⟨hle, fun hmarked => hlt ((hmeans hmarked).resolve_left fun hescape => ?_)⟩
      exact hbracket (hescape.subset (by simp))

end ApiShell.Markup
