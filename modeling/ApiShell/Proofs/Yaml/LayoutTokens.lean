import ApiShell.Proofs.Yaml.FlowTokens

/-!
# The tokens of JSON texts

A JSON text has the tokens that one expects in YAML: brackets, commas, quoted scalars for its strings,
plain scalars for its numbers and words.  Some texts have none, because they hold a character that YAML
does not know, a tab between two tokens, or a string with a mark behind a line break (`CanScan`).  The
others are scanned to the end (`ofText_text`).  A key that is not simple is scanned without being
recognised as one; that shows only when the tokens are put together.
-/

namespace ApiShell.Yaml

open Json (Gap Key Layout Items Members Page Part Numeral piecesText)

/-- A part that the scanner gets through. -/
def CanScan : Part → Prop
  | .gap gap => '\t' ∉ gap.1
  | .key k => '\t' ∉ k.before.1 ∧ hasMark (piecesText k.pieces ++ ['"']) = false ∧ '\t' ∉ k.after.1
  | .string ps => hasMark (piecesText ps ++ ['"']) = false
  | .word _ _ | .number _ => True

instance : DecidablePred CanScan
  | .gap gap => inferInstanceAs (Decidable ('\t' ∉ gap.1))
  | .key _ => inferInstanceAs (Decidable (_ ∧ _ ∧ _))
  | .string ps => inferInstanceAs (Decidable (hasMark (piecesText ps ++ ['"']) = false))
  | .word _ _ | .number _ => .isTrue trivial

mutual

/-- The tokens of a value. -/
def layoutTokens : Layout → List Token
  | .word w _ => [.scalar true w.1]
  | .number n => [.scalar true (String.ofList n.text)]
  | .string ps => [.scalar false (foldedText ps)]
  | .emptyList _ => [.flowSequenceStart, .flowSequenceEnd]
  | .list items => .flowSequenceStart :: (itemTokens items ++ [.flowSequenceEnd])
  | .emptyMapping _ => [.flowMappingStart, .flowMappingEnd]
  | .mapping members => .flowMappingStart :: (memberTokens members ++ [.flowMappingEnd])

/-- The tokens of items. -/
def itemTokens : Items → List Token
  | .last _ item _ => layoutTokens item
  | .more _ item _ items => layoutTokens item ++ .flowEntry :: itemTokens items

/-- The tokens of members. -/
def memberTokens : Members → List Token
  | .last key _ v _ => keyTokens key ++ layoutTokens v
  | .more key _ v _ members => keyTokens key ++ (layoutTokens v ++ .flowEntry :: memberTokens members)

end

/-! ### Numbers and words -/

theorem isAtom_word {w : String × Value} (h : w ∈ Json.wordValues) : IsAtom w.1.toList := by
  simp only [Json.wordValues, List.mem_cons, List.not_mem_nil, or_false] at h
  rcases h with rfl | rfl | rfl | rfl | rfl | rfl
  · exact ⟨by simp [isAtomChar], _, _, rfl, .inl rfl⟩
  · exact ⟨by simp [isAtomChar], _, _, rfl, .inl rfl⟩
  · exact ⟨by simp [isAtomChar], _, _, rfl, .inl rfl⟩
  · exact ⟨by simp [isAtomChar], _, _, rfl, .inl rfl⟩
  · exact ⟨by simp [isAtomChar], _, _, rfl, .inl rfl⟩
  · exact ⟨by simp [isAtomChar], _, _, rfl, .inr ⟨rfl, _, _, rfl, rfl⟩⟩

theorem isAtomChar_of_isDigit {c : Char} (h : c.isDigit = true) : isAtomChar c = true := by
  rw [isAtomChar, Char.isAlphanum, h, Bool.or_true, Bool.true_or, Bool.true_or, Bool.true_or]

theorem isAlphanum_of_isDigit {c : Char} (h : c.isDigit = true) : c.isAlphanum = true := by
  rw [Char.isAlphanum, h, Bool.or_true]

/-- The characters of an exponent. -/
theorem isAtomChar_of_mem_exponent (e : Json.Exponent) : ∀ c ∈ e.text, isAtomChar c = true := by
  have hletter : isAtomChar e.letter = true := by
    rcases e.letter_eq with heq | heq <;> rw [heq] <;> rfl
  have hsign : ∀ c ∈ Json.signText e.sign, isAtomChar c = true := by
    rcases e.sign with _ | _ | _ <;> simp [Json.signText, isAtomChar]
  refine List.forall_mem_cons.2 ⟨hletter, List.forall_mem_append.2 ⟨hsign, fun c hc => ?_⟩⟩
  exact isAtomChar_of_isDigit (e.isDigit c hc)

theorem isAtom_number (n : Numeral) : IsAtom n.text := by
  obtain ⟨d, ds, hwhole⟩ := List.exists_cons_of_ne_nil n.whole_ne_nil
  have hd : d.isAlphanum = true :=
    isAlphanum_of_isDigit (n.isDigit_whole d (by rw [hwhole]; exact List.mem_cons_self))
  have hfraction : ∀ c ∈ n.fractionText, isAtomChar c = true := by
    rw [Numeral.fractionText]
    split
    · simp
    · exact List.forall_mem_cons.2 ⟨rfl, fun c hc => isAtomChar_of_isDigit (n.isDigit_fraction c hc)⟩
  have hexponent : ∀ c ∈ n.exponentText, isAtomChar c = true := by
    rw [Numeral.exponentText]
    cases n.exponent with
    | none => simp
    | some e => exact isAtomChar_of_mem_exponent e
  have hdigits : ∀ c ∈ n.whole ++ (n.fractionText ++ n.exponentText), isAtomChar c = true :=
    List.forall_mem_append.2 ⟨fun c hc => isAtomChar_of_isDigit (n.isDigit_whole c hc),
      List.forall_mem_append.2 ⟨hfraction, hexponent⟩⟩
  rw [Numeral.text]
  cases n.negative with
  | false => exact ⟨hdigits, d, _, by rw [hwhole]; rfl, .inl hd⟩
  | true => exact ⟨List.forall_mem_cons.2 ⟨rfl, hdigits⟩, '-', _, rfl, .inr ⟨rfl, d, _, by rw [hwhole]; rfl, hd⟩⟩

/-- What follows a value ends it. -/
theorem endsAtom_gap (gap : Gap) {c : Char} (hc : c = ',' ∨ c = ']' ∨ c = '\x7d') (rest : List Char) :
    EndsAtom (gap.1 ++ c :: rest) := by
  by_cases htab : '\t' ∈ gap.1
  · obtain ⟨light, more, hgap, hlight⟩ := Scanner.exists_tab htab
    refine ⟨'\t', more ++ c :: rest, ?_, .inl rfl⟩
    rw [hgap, List.append_assoc, List.dropWhile_append_of_pos hlight]
    rfl
  · refine ⟨c, rest, ?_, .inr hc⟩
    rw [List.dropWhile_append_of_pos (Scanner.isLight_of_gap htab)]
    apply dropWhile_isLight_cons
    rcases hc with rfl | rfl | rfl <;> simp [isLight, isBreak]

/-- A value in brackets. -/
def isBracketed : Layout → Bool
  | .emptyList _ | .list _ | .emptyMapping _ | .mapping _ => true
  | .word _ _ | .number _ | .string _ => false

/-- A number or word stands inside brackets, and something that ends it stands behind it. -/
def Fits (t : Layout) (depth : ℕ) (rest : List Char) : Prop :=
  isBracketed t = false → 0 < depth ∧ EndsAtom rest

theorem fits_gap (t : Layout) (depth : ℕ) (gap : Gap) {c : Char} (hc : c = ',' ∨ c = ']' ∨ c = '\x7d')
    (rest : List Char) : Fits t (depth + 1) (gap.1 ++ c :: rest) :=
  fun _ => ⟨Nat.succ_pos depth, endsAtom_gap gap hc rest⟩

namespace Scanner

mutual

/-- A value is scanned if its parts are. -/
theorem leads_layout : ∀ (t : Layout) {key : Bool} {tokens : List Token} {depth : ℕ} {rest : List Char},
    Fits t depth rest → Leads (∀ p ∈ t.parts, CanScan p) (At key tokens depth (t.text ++ rest))
      (At false (tokens ++ layoutTokens t) depth rest)
  | .word w hw, key, tokens, depth, rest, hfits => by
    obtain ⟨hdepth, hends⟩ := hfits rfl
    obtain ⟨depth, rfl⟩ := Nat.exists_eq_succ_of_ne_zero hdepth.ne'
    have hatom := @leads_atom key tokens depth _ rest (isAtom_word hw) hends
    rw [String.ofList_toList] at hatom
    exact hatom.congr (by simp [Layout.parts, CanScan])
  | .number n, key, tokens, depth, rest, hfits => by
    obtain ⟨hdepth, hends⟩ := hfits rfl
    obtain ⟨depth, rfl⟩ := Nat.exists_eq_succ_of_ne_zero hdepth.ne'
    exact (leads_atom (isAtom_number n) hends).congr (by simp [Layout.parts, CanScan])
  | .string ps, key, tokens, depth, rest, _ => by
    have hstring := @leads_string key tokens depth rest ps
    rw [Layout.text, List.cons_append, List.append_assoc, List.singleton_append]
    exact hstring.congr (by simp [Layout.parts, CanScan])
  | .emptyList gap, key, tokens, depth, rest, _ => by
    have hopen := @leads_open key tokens depth (gap.1 ++ ']' :: rest) _ _ (.inl ⟨rfl, rfl⟩)
    have hclose := hopen.trans (leads_gap gap (leads_close (.inl ⟨rfl, rfl⟩)))
    rw [List.append_assoc] at hclose
    rw [Layout.text, List.cons_append, List.append_assoc, List.singleton_append]
    exact hclose.congr (by simp [Layout.parts, CanScan])
  | .list items, key, tokens, depth, rest, _ => by
    have hopen := @leads_open key tokens depth (items.text ++ ']' :: rest) _ _ (.inl ⟨rfl, rfl⟩)
    have hitems := hopen.trans (leads_items items)
    rw [List.append_assoc] at hitems
    rw [Layout.text, List.cons_append, List.append_assoc, List.singleton_append]
    exact hitems.congr (by rw [true_and, Layout.parts])
  | .emptyMapping gap, key, tokens, depth, rest, _ => by
    have hopen := @leads_open key tokens depth (gap.1 ++ '\x7d' :: rest) _ _ (.inr ⟨rfl, rfl⟩)
    have hclose := hopen.trans (leads_gap gap (leads_close (.inr ⟨rfl, rfl⟩)))
    rw [List.append_assoc] at hclose
    rw [Layout.text, List.cons_append, List.append_assoc, List.singleton_append]
    exact hclose.congr (by simp [Layout.parts, CanScan])
  | .mapping members, key, tokens, depth, rest, _ => by
    have hopen := @leads_open key tokens depth (members.text ++ '\x7d' :: rest) _ _ (.inr ⟨rfl, rfl⟩)
    have hmembers := hopen.trans (leads_members members)
    rw [List.append_assoc] at hmembers
    rw [Layout.text, List.cons_append, List.append_assoc, List.singleton_append]
    exact hmembers.congr (by rw [true_and, Layout.parts])

/-- Items are scanned, with their closing bracket, if their parts are. -/
theorem leads_items : ∀ (items : Items) {tokens : List Token} {depth : ℕ} {rest : List Char},
    Leads (∀ p ∈ items.parts, CanScan p) (At true tokens (depth + 1) (items.text ++ ']' :: rest))
      (At false (tokens ++ (itemTokens items ++ [.flowSequenceEnd])) depth rest)
  | .last before item after, tokens, depth, rest => by
    have hfits := fits_gap item depth after (.inr (.inl rfl)) rest
    have hclose := @leads_close false (tokens ++ layoutTokens item) depth rest _ _ (.inl ⟨rfl, rfl⟩)
    have hitem := leads_gap before ((@leads_layout item true _ _ _ hfits).trans (leads_gap after hclose))
    rw [List.append_assoc] at hitem
    rw [Items.text, List.append_assoc, List.append_assoc]
    exact hitem.congr (by rw [Json.forall_parts_lastItem, and_true]; rfl)
  | .more before item after others, tokens, depth, rest => by
    have hfits := fits_gap item depth after (.inl rfl) (others.text ++ ']' :: rest)
    have hothers := (@leads_comma false (tokens ++ layoutTokens item) (depth + 1)
      (others.text ++ ']' :: rest)).trans (leads_items others)
    have hitem := leads_gap before ((@leads_layout item true _ _ _ hfits).trans (leads_gap after hothers))
    rw [List.append_assoc, List.append_assoc] at hitem
    rw [Items.text, List.append_assoc, List.append_assoc, List.append_assoc, List.cons_append,
      itemTokens, List.append_assoc]
    exact hitem.congr (by rw [Json.forall_parts_moreItem, true_and]; rfl)

/-- Members are scanned, with their closing brace, if their parts are. -/
theorem leads_members : ∀ (members : Members) {tokens : List Token} {depth : ℕ} {rest : List Char},
    Leads (∀ p ∈ members.parts, CanScan p) (At true tokens (depth + 1) (members.text ++ '\x7d' :: rest))
      (At false (tokens ++ (memberTokens members ++ [.flowMappingEnd])) depth rest)
  | .last k before v after, tokens, depth, rest => by
    have hfits := fits_gap v depth after (.inr (.inr rfl)) rest
    have hclose := @leads_close false (tokens ++ keyTokens k ++ layoutTokens v) depth rest _ _
      (.inr ⟨rfl, rfl⟩)
    have hv := leads_gap before ((@leads_layout v false _ _ _ hfits).trans (leads_gap after hclose))
    have hmember := (leads_key k).trans hv
    rw [List.append_assoc, List.append_assoc] at hmember
    rw [Members.text, List.append_assoc, List.append_assoc, List.append_assoc, memberTokens,
      List.append_assoc]
    exact hmember.congr (by rw [Json.forall_parts_lastMember, and_true]; rfl)
  | .more k before v after others, tokens, depth, rest => by
    have hfits := fits_gap v depth after (.inl rfl) (others.text ++ '\x7d' :: rest)
    have hothers := (@leads_comma false (tokens ++ keyTokens k ++ layoutTokens v) (depth + 1)
      (others.text ++ '\x7d' :: rest)).trans (leads_members others)
    have hv := leads_gap before ((@leads_layout v false _ _ _ hfits).trans (leads_gap after hothers))
    have hmember := (leads_key k).trans hv
    rw [List.append_assoc, List.append_assoc, List.append_assoc] at hmember
    rw [Members.text, List.append_assoc, List.append_assoc, List.append_assoc, List.append_assoc,
      List.cons_append, memberTokens, List.append_assoc, List.append_assoc]
    exact hmember.congr (by rw [Json.forall_parts_moreMember, true_and]; rfl)

end

/-! ### Whole texts -/

theorem at_start (text : List Char) : At true [] 0 text (start text) :=
  ⟨rfl, rfl, rfl, rfl, by simp [start], fun _ => rfl⟩

/-- Behind the last token the run ends. -/
theorem At.ends {key : Bool} {tokens : List Token} {gap : Gap} {s : Scanner}
    (hs : At key tokens 0 gap.1 s) (htab : '\t' ∉ gap.1) :
    ∃ s', Ends s (.ok s') ∧ s'.tokens.toList = tokens := by
  have hempty : gap.1.dropWhile isLight = [] := List.dropWhile_eq_nil_iff.2 (isLight_of_gap htab)
  have hbegins : BeginsToken (gap.1.dropWhile isLight) := by
    rw [hempty]
    exact fun c hc => nomatch hc
  obtain ⟨s', hready, hrest, -⟩ := hs.ready hbegins
  have hnext : s.next? = .ok none := by
    rw [next?, hready.dropStale_eq]
    simp [bind, Except.bind, hready.unwindTo_eq, hrest, hempty, pure, Except.pure]
  obtain ⟨c, k, htoNext, -⟩ := toNextToken_eq (s := s) (by rwa [hs.rest_eq])
  have hunwind : s.toNextToken.unwindTo (-1) = s.toNextToken := by
    rw [htoNext]
    apply unwindTo_eq
    · exact hs.indent_eq
    · exact Int.le_refl _
  have hdrop := dropCandidate_eq (s := s.toNextToken) (by rw [htoNext]; exact hs.isOptional)
  have hends : Ends s s.toNextToken.dropCandidate := by
    intro fuel hfuel
    cases fuel with
    | zero => exact absurd hfuel (Nat.not_lt_zero _)
    | succ fuel =>
      rw [run, hnext]
      show (s.toNextToken.unwindTo (-1)).dropCandidate = _
      rw [hunwind]
  rw [hdrop] at hends
  refine ⟨_, hends, ?_⟩
  show s.toNextToken.tokens.toList = tokens
  rw [htoNext]
  exact hs.tokens_eq

end Scanner

/-- A text in brackets is scanned to the end if YAML knows its characters and its parts are scanned;
otherwise it has no tokens. -/
theorem ofText_text (p : Page) (h : isBracketed p.layout = true) :
    (((∀ c ∈ p.text, isAllowed c = true) ∧ ∀ q ∈ p.parts, CanScan q) ∧
      Token.ofText p.text = .ok (layoutTokens p.layout)) ∨
    (¬ ((∀ c ∈ p.text, isAllowed c = true) ∧ ∀ q ∈ p.parts, CanScan q) ∧
      ∃ t, Token.ofText p.text = .error t) := by
  have hlayout := @Scanner.leads_layout p.layout true [] 0 p.after.1
    fun hnot => absurd (h.symm.trans hnot) (by decide)
  have hstart := Scanner.leads_gap p.before hlayout (.start p.text) (Scanner.at_start p.text)
  have hparts : (∀ q ∈ p.parts, CanScan q) ↔
      ('\t' ∉ p.before.1 ∧ ∀ q ∈ p.layout.parts, CanScan q) ∧ '\t' ∉ p.after.1 := by
    rw [Page.parts, List.forall_mem_cons, List.forall_mem_append, List.forall_mem_singleton, and_assoc]
    rfl
  have hrun {result : Except Trouble Scanner} (hends : Scanner.Ends (.start p.text) result) :
      Scanner.run (p.text.length + 1) (.start p.text) = result := hends _ (Nat.lt_succ_self _)
  by_cases hallowed : ∀ c ∈ p.text, isAllowed c = true
  · have hall : p.text.all isAllowed = true := List.all_eq_true.2 hallowed
    have htokens : Token.ofText p.text =
        (Scanner.run (p.text.length + 1) (.start p.text)).map (·.tokens.toList) := by
      rw [Token.ofText, hall]
      rfl
    have hfail (hfails : Scanner.Fails (.start p.text)) : ∃ t, Token.ofText p.text = .error t := by
      obtain ⟨t, hends⟩ := hfails
      exact ⟨t, by rw [htokens, hrun hends]; rfl⟩
    rw [hparts]
    rcases hstart with ⟨hscan, s, hs, hreaches⟩ | ⟨hscan, hfails⟩
    · by_cases htab : '\t' ∈ p.after.1
      · obtain ⟨light, more, hgap, hlight⟩ := Scanner.exists_tab htab
        rw [hgap, Scanner.at_append_iff hlight] at hs
        exact .inr ⟨fun hok => hok.2.2 htab, hfail (hreaches.fails (Scanner.fails_tab hs))⟩
      · obtain ⟨s', hends, hlist⟩ := hs.ends htab
        refine .inl ⟨⟨hallowed, hscan, htab⟩, ?_⟩
        rw [htokens, hrun (hreaches _ hends)]
        exact congrArg Except.ok hlist
    · exact .inr ⟨fun hok => hscan hok.2.1, hfail hfails⟩
  · refine .inr ⟨fun hok => hallowed hok.1, .problem .unprintable, ?_⟩
    have hall : p.text.all isAllowed = false := by
      rw [Bool.eq_false_iff]
      exact fun h => hallowed (List.all_eq_true.1 h)
    rw [Token.ofText, hall]
    rfl

end ApiShell.Yaml
