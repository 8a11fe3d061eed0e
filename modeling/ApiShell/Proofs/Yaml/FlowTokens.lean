import ApiShell.Proofs.Yaml.Quoted

/-!
# Tokens of JSON texts

A JSON text is read as YAML from its first bracket on inside flow collections, where the scanner knows
only a few kinds of tokens: brackets, commas, quoted scalars, colons and plain scalars.  `Scanner.At`
says where the scanner is, namely which tokens it has and what follows, up to light space.  `Leads` says
that the run from one such place comes to another one if a condition holds, and that it fails otherwise;
this is closed under composition, so there is one lemma for each kind of token.

The condition is about what JSON allows and YAML does not: a tab in front of a token, and a document
mark behind a break in a quoted scalar.  A key needs more care.  The scanner remembers the place of its
quote as a candidate and drops it on the next line or after 1024 characters, so the key token is put in
front of it only if the key `IsSimple` (`leads_key`).  Numbers and words are plain scalars, which end
where light space, a tab, a comma or a closing bracket follows (`leads_atom`).
-/

namespace ApiShell.Yaml

open Json (Gap Key Layout Items Members Piece piecesText)

/-! ### Keys -/

/-- A key that its colon is found for: it ends on its line and is not too long. -/
def IsSimple (k : Key) : Prop :=
  (∀ c ∈ piecesText k.pieces ++ k.after.1, isBreak c = false) ∧
    (piecesText k.pieces).length + k.after.1.length + 2 ≤ 1024

instance (k : Key) : Decidable (IsSimple k) :=
  @instDecidableAnd _ _ (List.decidableBAll _ _) inferInstance

/-- The tokens of a key and its colon. -/
def keyTokens (k : Key) : List Token :=
  (if IsSimple k then [Token.key] else []) ++ [.scalar false (foldedText k.pieces), .value]

/-! ### Runs of the scanner -/

namespace Scanner

variable {s s' : Scanner} {result : Except Trouble Scanner}

/-- The run from a state has a result, however much fuel it is given. -/
def Ends (s : Scanner) (result : Except Trouble Scanner) : Prop :=
  ∀ fuel, s.cursor.rest.length < fuel → run fuel s = result

/-- From a state the run goes on as from a later one. -/
def Reaches (s s' : Scanner) : Prop := ∀ result, Ends s' result → Ends s result

def Fails (s : Scanner) : Prop := ∃ t, Ends s (.error t)

theorem Reaches.trans {s'' : Scanner} (h : Reaches s s') (h' : Reaches s' s'') : Reaches s s'' :=
  fun result hends => h result (h' result hends)

theorem Reaches.fails (h : Reaches s s') (hfails : Fails s') : Fails s :=
  hfails.imp fun _ hends => h _ hends

/-- A token that is read goes on in the text. -/
theorem reaches_of_next? (h : s.next? = .ok (some s'))
    (hlt : s'.cursor.rest.length < s.cursor.rest.length) : Reaches s s' := by
  intro result hends fuel hfuel
  cases fuel with
  | zero => exact absurd hfuel (Nat.not_lt_zero _)
  | succ fuel =>
    rw [run, h]
    exact hends fuel (by omega)

theorem fails_of_next? {t : Trouble} (h : s.next? = .error t) : Fails s := by
  refine ⟨t, fun fuel hfuel => ?_⟩
  cases fuel with
  | zero => exact absurd hfuel (Nat.not_lt_zero _)
  | succ fuel =>
    rw [run, h]
    rfl

/-- From the states of one kind the run comes to states of another kind if a condition holds, and fails
if it does not. -/
def Leads (ok : Prop) (P Q : Scanner → Prop) : Prop :=
  ∀ s, P s → (ok ∧ ∃ s', Q s' ∧ Reaches s s') ∨ (¬ ok ∧ Fails s)

theorem Leads.trans {p q : Prop} {P Q R : Scanner → Prop} (h : Leads p P Q) (h' : Leads q Q R) :
    Leads (p ∧ q) P R := by
  intro s hs
  rcases h s hs with ⟨hp, s', hs', hreaches⟩ | ⟨hp, hfails⟩
  · rcases h' s' hs' with ⟨hq, s'', hs'', hreaches'⟩ | ⟨hq, hfails⟩
    · exact .inl ⟨⟨hp, hq⟩, s'', hs'', hreaches.trans hreaches'⟩
    · exact .inr ⟨fun hpq => hq hpq.2, hreaches.fails hfails⟩
  · exact .inr ⟨fun hpq => hp hpq.1, hfails⟩

theorem Leads.congr {p q : Prop} {P Q : Scanner → Prop} (h : Leads p P Q) (hpq : p ↔ q) :
    Leads q P Q := by
  rwa [← propext hpq]

/-! ### The next token -/

/-- Where the scanner is: the tokens so far, the depth of brackets, and the rest of the text up to light
space at its beginning.  With `key` a key may begin there. -/
structure At (key : Bool) (tokens : List Token) (depth : ℕ) (rest : List Char) (s : Scanner) : Prop where
  tokens_eq : s.tokens.toList = tokens
  depth_eq : s.depth = depth
  rest_eq : s.cursor.rest.dropWhile isLight = rest.dropWhile isLight
  indent_eq : s.indent = -1
  isOptional : ∀ k ∈ s.candidates, k.2.required = false
  keyAllowed : key = true → s.keyAllowed = true

/-- What can stand in front of a token without being skipped. -/
def BeginsToken (cs : List Char) : Prop := ∀ c ∈ cs.head?, c ≠ '#' ∧ c ≠ '\uFEFF'

theorem BeginsToken.head_ne {c c' : Cursor} (h : BeginsToken (c.rest.dropWhile isLight))
    (hskips : c.Skips c') : c'.head ≠ '#' ∧ c'.head ≠ '\uFEFF' := by
  rw [← hskips.dropWhile_eq] at h
  cases hrest : c'.rest with
  | nil =>
    rw [Cursor.head, hrest]
    decide
  | cons ch cs =>
    rw [Cursor.head_eq hrest]
    by_cases hlight : isLight ch = true
    · constructor <;> rintro rfl <;> simp [isLight, isBreak] at hlight
    · rw [hrest, List.dropWhile_cons_of_neg hlight] at h
      exact h ch rfl

theorem skipSpace_eq (fuel : ℕ) {s : Scanner} (hfuel : s.cursor.rest.length < fuel)
    (hbegins : BeginsToken (s.cursor.rest.dropWhile isLight)) :
    ∃ c k, skipSpace fuel s = { s with cursor := c, keyAllowed := k } ∧ s.cursor.Skips c ∧
      c.rest = s.cursor.rest.dropWhile isLight ∧ (s.keyAllowed = true → k = true) := by
  induction fuel generalizing s with
  | zero => exact absurd hfuel (Nat.not_lt_zero _)
  | succ fuel ih =>
    have hskips := s.cursor.skips_spaces
    have hcomment : ((s.cursor.takeWhile (· == ' ')).2.head == '#') = false := by
      simpa using (hbegins.head_ne hskips).1
    rw [skipSpace, Cursor.skipWhile, hcomment, if_neg Bool.false_ne_true]
    split
    · next br c hbreak =>
      have hbehind := hskips.trans (Cursor.skips_lineBreak hbreak)
      have hshorter := Cursor.rest_lineBreak_lt hbreak
      have hle := hskips.length_le
      obtain ⟨c', k, heq, hskips', hrest, hkey⟩ :=
        @ih { s with cursor := c, keyAllowed := s.keyAllowed || !s.inFlow }
          (show c.rest.length < fuel by omega) (by rwa [← hbehind.dropWhile_eq] at hbegins)
      refine ⟨c', k, heq, hbehind.trans hskips', hrest.trans hbehind.dropWhile_eq, fun h => hkey ?_⟩
      show (s.keyAllowed || !s.inFlow) = true
      rw [h, Bool.true_or]
    · next hbreak => exact ⟨_, _, rfl, hskips, Cursor.rest_spaces hbreak, id⟩

/-- A place where a key may have begun is remembered on its line, for 1024 characters. -/
def isKept (c : Cursor) (place : Candidate) : Bool :=
  !(place.line != c.line || decide (c.index - place.index > 1024))

/-- The state at the next token. -/
structure Ready (s s' : Scanner) : Prop where
  dropStale_eq : s.toNextToken.dropStale = .ok s'
  unwindTo_eq : s'.unwindTo s'.cursor.column = s'
  skips : s.cursor.Skips s'.cursor
  candidates_eq : s'.candidates = s.candidates.filter fun k => isKept s'.cursor k.2

section

variable {key : Bool} {tokens : List Token} {depth : ℕ} {rest : List Char}

theorem unwindTo_eq (h : s.indent = -1) {column : ℤ} (hcolumn : -1 ≤ column) :
    s.unwindTo column = s := by
  rw [unwindTo, unwind, if_pos]
  simpa [h] using .inr hcolumn

theorem toNextToken_eq (hbegins : BeginsToken (s.cursor.rest.dropWhile isLight)) :
    ∃ c k, s.toNextToken = { s with cursor := c, keyAllowed := k } ∧ s.cursor.Skips c ∧
      c.rest = s.cursor.rest.dropWhile isLight ∧ (s.keyAllowed = true → k = true) := by
  have hmark : (s.cursor.index == 0 && s.cursor.head == '\uFEFF') = false := by
    rw [show (s.cursor.head == '\uFEFF') = false by
      simpa using (hbegins.head_ne (Cursor.Skips.refl _)).2, Bool.and_false]
  rw [toNextToken, hmark, if_neg Bool.false_ne_true]
  exact skipSpace_eq _ (Nat.lt_succ_self _) hbegins

theorem At.ready (h : At key tokens depth rest s) (hbegins : BeginsToken (rest.dropWhile isLight)) :
    ∃ s', Ready s s' ∧ s'.cursor.rest = rest.dropWhile isLight ∧
      At key tokens depth (rest.dropWhile isLight) s' := by
  obtain ⟨htokens, hdepth, hrest, hindent, hoptional, hkey⟩ := h
  rw [← hrest] at hbegins ⊢
  obtain ⟨c, k, heq, hskips, hc, hk⟩ := toNextToken_eq hbegins
  have hdrop : s.toNextToken.dropStale =
      .ok { s with
        cursor := c
        keyAllowed := k
        candidates := s.candidates.filter fun k => isKept c k.2 } := by
    have hnone : ¬ (s.candidates.any fun k =>
        (k.2.line != c.line || decide (c.index - k.2.index > 1024)) && k.2.required) = true := by
      simp only [List.any_eq_true, not_exists, not_and, Bool.and_eq_true]
      intro k hk _
      rw [hoptional k hk]
      exact Bool.false_ne_true
    rw [heq]
    exact if_neg hnone
  refine ⟨_, ⟨hdrop, ?_, hskips, rfl⟩, hc, htokens, hdepth, ?_, hindent,
    fun k hk => hoptional k (List.mem_of_mem_filter hk), fun h => hk (hkey h)⟩
  · apply unwindTo_eq
    · exact hindent
    · omega
  · rw [hc, hrest]

/-- Light space makes no difference to where the scanner is. -/
theorem at_append_iff {gap : List Char} (h : ∀ c ∈ gap, isLight c = true) :
    At key tokens depth (gap ++ rest) s ↔ At key tokens depth rest s := by
  have hsame : (gap ++ rest).dropWhile isLight = rest.dropWhile isLight :=
    List.dropWhile_append_of_pos h
  constructor <;> rintro ⟨htokens, hdepth, hrest, hindent, hoptional, hkey⟩
  · exact ⟨htokens, hdepth, hrest.trans hsame, hindent, hoptional, hkey⟩
  · exact ⟨htokens, hdepth, hrest.trans hsame.symm, hindent, hoptional, hkey⟩

theorem dropCandidate_eq (h : ∀ k ∈ s.candidates, k.2.required = false) :
    s.dropCandidate = .ok { s with candidates := s.candidates.filter (·.1 != s.depth) } := by
  rw [dropCandidate, if_neg]
  simp only [List.any_eq_true, not_exists, not_and, Bool.and_eq_true]
  intro k hk _
  rw [h k hk]
  exact Bool.false_ne_true

/-- A possible key is remembered if one may begin. -/
theorem At.saveCandidate (h : At key tokens depth rest s) :
    ∃ cs, s.saveCandidate = .ok { s with candidates := cs } ∧ (∀ k ∈ cs, k.2.required = false) ∧
      (key = true → cs = (depth, ⟨tokens.length, false, s.cursor.index, s.cursor.line,
        s.cursor.column⟩) :: s.candidates.filter (·.1 != depth)) := by
  rw [Scanner.saveCandidate]
  split
  · next hnot =>
    refine ⟨s.candidates, rfl, h.isOptional, fun hkey => ?_⟩
    rw [h.keyAllowed hkey] at hnot
    exact absurd hnot (by decide)
  · rw [dropCandidate_eq h.isOptional]
    have hrequired : (!s.inFlow && s.indent == (s.cursor.column : ℤ)) = false := by
      rw [h.indent_eq, Bool.and_eq_false_iff]
      right
      simp
    refine ⟨(s.depth, ⟨s.tokens.size, !s.inFlow && s.indent == (s.cursor.column : ℤ),
      s.cursor.index, s.cursor.line, s.cursor.column⟩) :: s.candidates.filter (·.1 != s.depth), rfl,
      List.forall_mem_cons.2 ⟨hrequired, fun k hk => ?_⟩, fun _ => ?_⟩
    · exact h.isOptional k (List.mem_of_mem_filter hk)
    · rw [hrequired, h.depth_eq, ← h.tokens_eq, Array.length_toList]

/-! ### Tokens -/

theorem beginsToken_cons {ch : Char} (h : ch ≠ '#' ∧ ch ≠ '\uFEFF') (cs : List Char) :
    BeginsToken (ch :: cs) := by
  rintro c ⟨⟩
  exact h

/-- The state at a character that begins a token. -/
theorem At.ready_cons {ch : Char} {cs : List Char} (h : At key tokens depth (ch :: cs) s)
    (hch : isLight ch = false ∧ ch ≠ '#' ∧ ch ≠ '\uFEFF') :
    ∃ s', Ready s s' ∧ s'.cursor.rest = ch :: cs ∧ At key tokens depth (ch :: cs) s' := by
  have hhead := dropWhile_isLight_cons hch.1 cs
  have hready := h.ready (by rw [hhead]; exact beginsToken_cons hch.2 cs)
  rwa [hhead] at hready

/-- A step that reads its token. -/
theorem Ready.leads {p : Prop} {Q : Scanner → Prop} {s'' : Scanner} (h : Ready s s') (hp : p)
    (hnext : s.next? = .ok (some s''))
    (hQ : Q s'' ∧ s''.cursor.rest.length < s'.cursor.rest.length) :
    (p ∧ ∃ t, Q t ∧ Reaches s t) ∨ (¬ p ∧ Fails s) :=
  .inl ⟨hp, s'', hQ.1, reaches_of_next? hnext (Nat.lt_of_lt_of_le hQ.2 h.skips.length_le)⟩

/-- A token of one character. -/
theorem At.step {ch : Char} {s : Scanner} (h : At key tokens depth (ch :: rest) s)
    (hrest : s.cursor.rest = ch :: rest) (t : Token) :
    At false (tokens ++ [t]) depth rest (s.step 1 t) ∧ (s.step 1 t).cursor.rest = rest := by
  have hnext : (s.cursor.advance 1).rest = rest := Cursor.rest_next hrest
  refine ⟨⟨?_, h.depth_eq, ?_, h.indent_eq, h.isOptional, fun hfalse => by cases hfalse⟩, hnext⟩
  · rw [← h.tokens_eq]
    exact Array.toList_push
  · rw [Scanner.step, hnext]

theorem At.flowStart {ch : Char} {s : Scanner} (h : At key tokens depth (ch :: rest) s)
    (hrest : s.cursor.rest = ch :: rest) (t : Token) :
    ∃ s', s.flowStart t = .ok s' ∧ At true (tokens ++ [t]) (depth + 1) rest s' ∧
      s'.cursor.rest = rest := by
  obtain ⟨cs, hsave, hoptional, -⟩ := h.saveCandidate
  obtain ⟨hstep, hrest'⟩ := h.step hrest t
  rw [Scanner.flowStart, hsave]
  exact ⟨_, rfl, ⟨hstep.tokens_eq, congrArg (· + 1) h.depth_eq, hstep.rest_eq, h.indent_eq, hoptional,
    fun _ => rfl⟩, hrest'⟩

theorem At.flowEnd {ch : Char} {s : Scanner} (h : At key tokens (depth + 1) (ch :: rest) s)
    (hrest : s.cursor.rest = ch :: rest) (t : Token) :
    ∃ s', s.flowEnd t = .ok s' ∧ At false (tokens ++ [t]) depth rest s' ∧ s'.cursor.rest = rest := by
  obtain ⟨hstep, hrest'⟩ := h.step hrest t
  rw [Scanner.flowEnd, dropCandidate_eq h.isOptional]
  exact ⟨_, rfl, ⟨hstep.tokens_eq, congrArg (· - 1) h.depth_eq, hstep.rest_eq, h.indent_eq,
    fun k hk => h.isOptional k (List.mem_of_mem_filter hk), fun hfalse => by cases hfalse⟩, hrest'⟩

/-- An opening bracket. -/
theorem leads_open {ch : Char} {t : Token}
    (hopen : (ch = '[' ∧ t = .flowSequenceStart) ∨ (ch = '\x7b' ∧ t = .flowMappingStart)) :
    Leads True (At key tokens depth (ch :: rest)) (At true (tokens ++ [t]) (depth + 1) rest) := by
  intro s hs
  have hch : isLight ch = false ∧ ch ≠ '#' ∧ ch ≠ '\uFEFF' := by
    rcases hopen with ⟨rfl, -⟩ | ⟨rfl, -⟩ <;> simp [isLight, isBreak]
  obtain ⟨s', hready, hrest, hat⟩ := hs.ready_cons hch
  obtain ⟨s'', hstart, hat', hrest'⟩ := hat.flowStart hrest t
  have hnext : s.next? = .ok (some s'') := by
    rw [next?, hready.dropStale_eq]
    rcases hopen with ⟨rfl, rfl⟩ | ⟨rfl, rfl⟩ <;>
      simp [bind, Except.bind, hready.unwindTo_eq, Cursor.head_eq hrest, hrest, hstart,
        Cursor.isDocumentMark, Cursor.peek]
  refine hready.leads trivial hnext ⟨hat', ?_⟩
  rw [hrest', hrest]
  exact Nat.lt_succ_self _

/-- A closing bracket. -/
theorem leads_close {ch : Char} {t : Token}
    (hclose : (ch = ']' ∧ t = .flowSequenceEnd) ∨ (ch = '\x7d' ∧ t = .flowMappingEnd)) :
    Leads True (At key tokens (depth + 1) (ch :: rest)) (At false (tokens ++ [t]) depth rest) := by
  intro s hs
  have hch : isLight ch = false ∧ ch ≠ '#' ∧ ch ≠ '\uFEFF' := by
    rcases hclose with ⟨rfl, -⟩ | ⟨rfl, -⟩ <;> simp [isLight, isBreak]
  obtain ⟨s', hready, hrest, hat⟩ := hs.ready_cons hch
  obtain ⟨s'', hend, hat', hrest'⟩ := hat.flowEnd hrest t
  have hnext : s.next? = .ok (some s'') := by
    rw [next?, hready.dropStale_eq]
    rcases hclose with ⟨rfl, rfl⟩ | ⟨rfl, rfl⟩ <;>
      simp [bind, Except.bind, hready.unwindTo_eq, Cursor.head_eq hrest, hrest, hend,
        Cursor.isDocumentMark, Cursor.peek]
  refine hready.leads trivial hnext ⟨hat', ?_⟩
  rw [hrest', hrest]
  exact Nat.lt_succ_self _

/-- The comma between two entries. -/
theorem leads_comma :
    Leads True (At key tokens depth (',' :: rest)) (At true (tokens ++ [.flowEntry]) depth rest) := by
  intro s hs
  obtain ⟨s', hready, hrest, hat⟩ := hs.ready_cons (by simp [isLight, isBreak])
  obtain ⟨hstep, hrest'⟩ := hat.step hrest .flowEntry
  have hdrop : { s' with keyAllowed := true }.dropCandidate =
      .ok { s' with keyAllowed := true, candidates := s'.candidates.filter (·.1 != s'.depth) } :=
    dropCandidate_eq hat.isOptional
  have hnext : s.next? = .ok (some ({ s' with
      keyAllowed := true
      candidates := s'.candidates.filter (·.1 != s'.depth) }.step 1 .flowEntry)) := by
    rw [next?, hready.dropStale_eq]
    simp [bind, Except.bind, hready.unwindTo_eq, Cursor.head_eq hrest, hrest, hdrop,
      Cursor.isDocumentMark, Cursor.peek]
    rfl
  refine hready.leads trivial hnext ⟨⟨hstep.tokens_eq, hat.depth_eq, hstep.rest_eq, hat.indent_eq,
    fun k hk => hat.isOptional k (List.mem_of_mem_filter hk), fun _ => rfl⟩, ?_⟩
  rw [hrest]
  exact (congrArg List.length hrest').trans_lt (Nat.lt_succ_self _)

/-- A tab stands where no token begins. -/
theorem fails_tab (hs : At key tokens depth ('\t' :: rest) s) : Fails s := by
  obtain ⟨s', hready, hrest, -⟩ := hs.ready_cons (by simp [isLight, isBreak])
  have hnext : s.next? = badToken := by
    rw [next?, hready.dropStale_eq]
    simp [bind, Except.bind, hready.unwindTo_eq, Cursor.head_eq hrest, hrest, startsPlain, isBlankOrEnd,
      Cursor.isDocumentMark, Cursor.peek]
  exact fails_of_next? hnext

theorem eq_tab_of_isSpace {c : Char} (hc : Json.isSpace c = true) (hlight : isLight c = false) :
    c = '\t' := by
  simp only [Json.isSpace, Bool.or_eq_true, beq_iff_eq] at hc
  rcases hc with ((rfl | rfl) | rfl) | rfl
  · simp [isLight] at hlight
  · rfl
  · simp [isLight, isBreak] at hlight
  · simp [isLight, isBreak] at hlight

theorem isLight_of_gap {gap : Gap} (h : '\t' ∉ gap.1) : ∀ c ∈ gap.1, isLight c = true := by
  intro c hc
  by_contra hlight
  rw [Bool.not_eq_true] at hlight
  exact h (eq_tab_of_isSpace (gap.2 c hc) hlight ▸ hc)

/-- In a gap with a tab only light space stands before the first one. -/
theorem exists_tab {gap : Gap} (h : '\t' ∈ gap.1) :
    ∃ light more, gap.1 = light ++ '\t' :: more ∧ ∀ c ∈ light, isLight c = true := by
  have hsplit := List.takeWhile_append_dropWhile (p := isLight) (l := gap.1)
  have hlight : ∀ c ∈ gap.1.takeWhile isLight, isLight c = true := fun c hc => List.mem_takeWhile_imp hc
  cases htail : gap.1.dropWhile isLight with
  | nil =>
    have htab := List.dropWhile_eq_nil_iff.1 htail '\t' h
    simp [isLight, isBreak] at htab
  | cons c more =>
    have hc : isLight c = false := by
      have hhead := List.head?_dropWhile_not isLight gap.1
      rw [htail] at hhead
      exact hhead
    rw [htail] at hsplit
    have hmem : c ∈ gap.1 := hsplit ▸ List.mem_append_right _ List.mem_cons_self
    obtain rfl := eq_tab_of_isSpace (gap.2 c hmem) hc
    exact ⟨_, more, hsplit.symm, hlight⟩

/-- A gap is stepped over if there is no tab in it. -/
theorem leads_gap (gap : Gap) {p : Prop} {Q : Scanner → Prop} (h : Leads p (At key tokens depth rest) Q) :
    Leads ('\t' ∉ gap.1 ∧ p) (At key tokens depth (gap.1 ++ rest)) Q := by
  intro s hs
  by_cases htab : '\t' ∈ gap.1
  · obtain ⟨light, more, hgap, hlight⟩ := exists_tab htab
    rw [hgap, List.append_assoc, at_append_iff hlight] at hs
    exact .inr ⟨fun hp => hp.1 htab, fails_tab hs⟩
  · have hcases := h s ((at_append_iff (isLight_of_gap htab)).1 hs)
    rcases hcases with ⟨hp, hreaches⟩ | ⟨hp, hfails⟩
    · exact .inl ⟨⟨htab, hp⟩, hreaches⟩
    · exact .inr ⟨fun hboth => hp hboth.2, hfails⟩

/-! ### Strings and keys -/

/-- A quoted scalar is read unless it holds a mark behind a break.  Where a key may begin, the place of
its quote is remembered. -/
theorem At.quoted {ps : List Piece} (hs : At key tokens depth ('"' :: (piecesText ps ++ '"' :: rest)) s) :
    (hasMark (piecesText ps ++ ['"']) = true ∧ Fails s) ∨
      (hasMark (piecesText ps ++ ['"']) = false ∧ ∃ s', Reaches s s' ∧
        At false (tokens ++ [.scalar false (foldedText ps)]) depth rest s' ∧
        ∃ c : Cursor, c.rest = '"' :: (piecesText ps ++ '"' :: rest) ∧
          s'.cursor = c.advance ((piecesText ps).length + 2) ∧ (key = true → ∃ others,
            s'.candidates = (depth, ⟨tokens.length, false, c.index, c.line, c.column⟩) :: others ∧
              ∀ k ∈ others, k.1 ≠ depth)) := by
  obtain ⟨s', hready, hrest, hat⟩ := hs.ready_cons (by simp [isLight, isBreak])
  obtain ⟨cs, hsave, hoptional, hkey⟩ := hat.saveCandidate
  have hscalar := quotedScalar_pieces hrest
  have hnext : s.next? = (quotedScalar s'.cursor).map fun r => some
      { { s' with candidates := cs }.push r.1 with cursor := r.2, keyAllowed := false } := by
    rw [next?, hready.dropStale_eq]
    simp [bind, Except.bind, hready.unwindTo_eq, Cursor.head_eq hrest, hrest,
      Cursor.isDocumentMark, Cursor.peek, keyToken, hsave]
    cases quotedScalar s'.cursor <;> rfl
  cases hmark : hasMark (piecesText ps ++ ['"']) with
  | true =>
    rw [hscalar, if_pos hmark] at hnext
    exact .inl ⟨rfl, fails_of_next? hnext⟩
  | false =>
    rw [hscalar, hmark, if_neg Bool.false_ne_true] at hnext
    have hafter : (s'.cursor.advance ((piecesText ps).length + 2)).rest = rest := by
      have hsplit : s'.cursor.rest = ('"' :: piecesText ps ++ ['"']) ++ rest := by
        rw [hrest]
        simp
      have hbehind := Cursor.rest_advance hsplit
      rwa [List.length_append, List.length_cons, List.length_singleton] at hbehind
    refine .inr ⟨rfl, _, reaches_of_next? hnext ?_, ⟨?_, hat.depth_eq, ?_, hat.indent_eq, hoptional,
      fun hfalse => by cases hfalse⟩, s'.cursor, hrest, rfl, fun h => ⟨_, hkey h, fun k hk => ?_⟩⟩
    · have hle := hready.skips.length_le
      rw [hrest] at hle
      show (s'.cursor.advance _).rest.length < _
      rw [hafter]
      simp at hle
      omega
    · rw [← hat.tokens_eq]
      exact Array.toList_push
    · exact congrArg _ hafter
    · simpa using List.of_mem_filter hk

/-- A string that is no key. -/
theorem leads_string (ps : List Piece) :
    Leads (hasMark (piecesText ps ++ ['"']) = false)
      (At key tokens depth ('"' :: (piecesText ps ++ '"' :: rest)))
      (At false (tokens ++ [.scalar false (foldedText ps)]) depth rest) := by
  intro s hs
  rcases hs.quoted with ⟨hmark, hfails⟩ | ⟨hmark, s', hreaches, hat, -⟩
  · exact .inr ⟨by simp [hmark], hfails⟩
  · exact .inl ⟨hmark, s', hat, hreaches⟩

/-- The place of a quote is still remembered at the colon exactly if the key is simple. -/
theorem isKept_iff (k : Key) {c c' : Cursor}
    (hrest : c.rest = ('"' :: piecesText k.pieces ++ '"' :: k.after.1) ++ ':' :: rest)
    (hc' : c' = c.advance ('"' :: piecesText k.pieces ++ '"' :: k.after.1).length) :
    isKept c' ⟨tokens.length, false, c.index, c.line, c.column⟩ = true ↔ IsSimple k := by
  have hline := Cursor.line_advance_eq_iff hrest (by simp)
  have hindex := Cursor.index_advance hrest
  rw [← hc'] at hline hindex
  have hquote : isBreak '"' = false := by decide
  have hbreaks : (∀ a ∈ '"' :: piecesText k.pieces ++ '"' :: k.after.1, isBreak a = false) ↔
      ∀ a ∈ piecesText k.pieces ++ k.after.1, isBreak a = false := by
    simp only [List.forall_mem_append, List.forall_mem_cons, hquote, true_and]
  have hlength : c'.index - c.index = (piecesText k.pieces).length + k.after.1.length + 2 := by
    rw [hindex]
    simp
    omega
  rw [isKept, IsSimple, ← hbreaks, ← hline, hlength, Bool.not_eq_true', Bool.or_eq_false_iff,
    bne_eq_false_iff_eq, decide_eq_false_iff_not, gt_iff_lt, Nat.not_lt, eq_comm]

/-- At a colon a remembered place becomes that of a key. -/
theorem At.mappingValue_key {t : Token} {place : Candidate}
    (hs : At key (tokens ++ [t]) (depth + 1) (':' :: rest) s) (hrest : s.cursor.rest = ':' :: rest)
    (hlookup : s.candidates.lookup s.depth = some place) (hplace : place.token = tokens.length) :
    ∃ s', s.mappingValue = .ok s' ∧ At false (tokens ++ [.key, t, .value]) (depth + 1) rest s' ∧
      s'.cursor.rest = rest := by
  have hflow : (s.depth != 0) = true := by
    rw [hs.depth_eq]
    simp
  have heq : s.mappingValue = .ok (({ s with
      candidates := s.candidates.filter (·.1 != s.depth)
      keyAllowed := false }.insertTokens place.token [.key]).step 1 .value) := by
    rw [Scanner.mappingValue, hlookup]
    simp only [inFlow, hflow]
    rfl
  have htake : s.tokens.toList.take place.token = tokens := by
    rw [hs.tokens_eq, hplace, List.take_left]
  have hdrop : s.tokens.toList.drop place.token = [t] := by
    rw [hs.tokens_eq, hplace, List.drop_left]
  have hkey : At false (tokens ++ [.key, t]) (depth + 1) (':' :: rest) ({ s with
      candidates := s.candidates.filter (·.1 != s.depth)
      keyAllowed := false }.insertTokens place.token [.key]) := by
    refine ⟨?_, hs.depth_eq, hs.rest_eq, hs.indent_eq,
      fun k hk => hs.isOptional k (List.mem_of_mem_filter hk), fun hfalse => by cases hfalse⟩
    show s.tokens.toList.take place.token ++ [Token.key] ++ s.tokens.toList.drop place.token = _
    rw [htake, hdrop, List.append_assoc]
    rfl
  have hstep := hkey.step hrest .value
  rw [List.append_assoc] at hstep
  exact ⟨_, heq, hstep⟩

/-- At a colon no place is remembered. -/
theorem At.mappingValue_noKey (hs : At key tokens (depth + 1) (':' :: rest) s)
    (hrest : s.cursor.rest = ':' :: rest) (hlookup : s.candidates.lookup s.depth = none) :
    ∃ s', s.mappingValue = .ok s' ∧ At false (tokens ++ [.value]) (depth + 1) rest s' ∧
      s'.cursor.rest = rest := by
  have hflow : (s.depth != 0) = true := by
    rw [hs.depth_eq]
    simp
  have hopen : s.openBlock .blockMappingStart = .ok s := if_pos hflow
  have hdrop := @dropCandidate_eq { s with keyAllowed := !s.inFlow } hs.isOptional
  have heq : s.mappingValue = .ok ({ s with
      candidates := s.candidates.filter (·.1 != s.depth)
      keyAllowed := !s.inFlow }.step 1 .value) := by
    rw [Scanner.mappingValue, hlookup]
    dsimp only
    rw [hopen]
    show { s with keyAllowed := !s.inFlow }.dropCandidate >>= _ = _
    rw [hdrop]
    rfl
  have hvalue : At false tokens (depth + 1) (':' :: rest) { s with
      candidates := s.candidates.filter (·.1 != s.depth)
      keyAllowed := !s.inFlow } :=
    ⟨hs.tokens_eq, hs.depth_eq, hs.rest_eq, hs.indent_eq,
      fun k hk => hs.isOptional k (List.mem_of_mem_filter hk), fun hfalse => by cases hfalse⟩
  exact ⟨_, heq, hvalue.step hrest .value⟩

/-- A colon behind a key, whose place is still remembered if the key is simple. -/
theorem At.mappingValue {k : Key} {others : List (ℕ × Candidate)} {place : Candidate}
    (hs : At key (tokens ++ [.scalar false (foldedText k.pieces)]) (depth + 1) (':' :: rest) s)
    (hrest : s.cursor.rest = ':' :: rest) (hplace : place.token = tokens.length)
    (hcandidates : s.candidates = (if IsSimple k then [(depth + 1, place)] else []) ++ others)
    (hothers : ∀ k ∈ others, k.1 ≠ depth + 1) :
    ∃ s', s.mappingValue = .ok s' ∧ At false (tokens ++ keyTokens k) (depth + 1) rest s' ∧
      s'.cursor.rest = rest := by
  by_cases hsimple : IsSimple k
  · have hlookup : s.candidates.lookup s.depth = some place := by
      rw [hcandidates, hs.depth_eq, if_pos hsimple]
      simp
    rw [keyTokens, if_pos hsimple]
    exact hs.mappingValue_key hrest hlookup hplace
  · have hlookup : s.candidates.lookup s.depth = none := by
      rw [hcandidates, hs.depth_eq, if_neg hsimple]
      exact List.lookup_eq_none_iff.2 fun k hk => by simpa using (hothers k hk).symm
    have hvalue := hs.mappingValue_noKey hrest hlookup
    rw [List.append_assoc] at hvalue
    rw [keyTokens, if_neg hsimple]
    exact hvalue

theorem Ready.next?_colon (h : Ready s s') (hrest : s'.cursor.rest = ':' :: rest)
    (hdepth : s'.depth = depth + 1) : s.next? = some <$> s'.mappingValue := by
  have hflow : s'.inFlow = true := by
    rw [inFlow, hdepth]
    simp
  rw [next?, h.dropStale_eq]
  simp [bind, Except.bind, h.unwindTo_eq, Cursor.head_eq hrest, hrest, hflow, Cursor.isDocumentMark,
    Cursor.peek]

/-- A key with its colon. -/
theorem leads_colon (k : Key) :
    Leads (hasMark (piecesText k.pieces ++ ['"']) = false ∧ '\t' ∉ k.after.1)
      (At true tokens (depth + 1) ('"' :: (piecesText k.pieces ++ '"' :: (k.after.1 ++ ':' :: rest))))
      (At false (tokens ++ keyTokens k) (depth + 1) rest) := by
  intro s hs
  rcases hs.quoted with ⟨hmark, hfails⟩ | ⟨hmark, s₁, hreaches, hat, c, hrest, hcursor, hkey⟩
  · exact .inr ⟨by simp [hmark], hfails⟩
  by_cases htab : '\t' ∈ k.after.1
  · obtain ⟨light, more, hgap, hlight⟩ := exists_tab htab
    rw [hgap, List.append_assoc, at_append_iff hlight] at hat
    exact .inr ⟨fun h => h.2 htab, hreaches.fails (fails_tab hat)⟩
  obtain ⟨others, hcandidates, hothers⟩ := hkey rfl
  obtain ⟨s₂, hready, hrest₂, hat₂⟩ :=
    ((at_append_iff (isLight_of_gap htab)).1 hat).ready_cons (by simp [isLight, isBreak])
  have hsplit : c.rest = ('"' :: piecesText k.pieces ++ '"' :: k.after.1) ++ ':' :: rest := by
    rw [hrest]
    simp
  have hcursor₂ : s₂.cursor = c.advance ('"' :: piecesText k.pieces ++ '"' :: k.after.1).length := by
    have hquoted : c.rest = ('"' :: piecesText k.pieces ++ ['"']) ++ (k.after.1 ++ ':' :: rest) := by
      rw [hrest]
      simp
    have hlength : (piecesText k.pieces).length + 2 = ('"' :: piecesText k.pieces ++ ['"']).length := by
      simp
    have hbehind : s₁.cursor.rest = k.after.1 ++ s₂.cursor.rest := by
      rw [hcursor, hlength, Cursor.rest_advance hquoted, hrest₂]
    rw [hready.skips.eq_advance hbehind, hcursor, ← Cursor.advance_add]
    congr 1
    simp
    omega
  have hkept := @isKept_iff tokens rest k c s₂.cursor hsplit hcursor₂
  have hplaces : s₂.candidates = (if IsSimple k then
      [(depth + 1, ⟨tokens.length, false, c.index, c.line, c.column⟩)] else []) ++
        others.filter fun k => isKept s₂.cursor k.2 := by
    rw [hready.candidates_eq, hcandidates, List.filter_cons, if_congr hkept rfl rfl]
    split <;> rfl
  obtain ⟨s₃, hvalue, hat₃, hrest₃⟩ := hat₂.mappingValue hrest₂ rfl hplaces
    fun k hk => hothers k (List.mem_of_mem_filter hk)
  have hnext : s₁.next? = .ok (some s₃) := by
    rw [hready.next?_colon hrest₂ hat₂.depth_eq, hvalue]
    rfl
  refine .inl ⟨⟨hmark, htab⟩, s₃, hat₃, hreaches.trans ?_⟩
  refine reaches_of_next? hnext (Nat.lt_of_lt_of_le ?_ hready.skips.length_le)
  rw [hrest₃, hrest₂]
  exact Nat.lt_succ_self _

theorem leads_key (k : Key) :
    Leads ('\t' ∉ k.before.1 ∧ hasMark (piecesText k.pieces ++ ['"']) = false ∧ '\t' ∉ k.after.1)
      (At true tokens (depth + 1) (k.text ++ rest)) (At false (tokens ++ keyTokens k) (depth + 1) rest) := by
  have htext : k.text ++ rest =
      k.before.1 ++ ('"' :: (piecesText k.pieces ++ '"' :: (k.after.1 ++ ':' :: rest))) := by
    simp [Key.text]
  rw [htext]
  exact leads_gap k.before (leads_colon k)

end

end Scanner

/-! ### Numbers and words -/

/-- The characters of numbers and words. -/
def isAtomChar (c : Char) : Bool := c.isAlphanum || c == '-' || c == '+' || c == '.'

/-- A number or word: it begins with a letter or digit, before which a minus may stand. -/
structure IsAtom (w : List Char) : Prop where
  isAtomChar : ∀ c ∈ w, isAtomChar c = true
  begins : ∃ c cs, w = c :: cs ∧ (c.isAlphanum = true ∨ c = '-' ∧ ∃ d ds, cs = d :: ds ∧ d.isAlphanum = true)

/-- Behind a number or word, and behind light space, stands something that ends it. -/
def EndsAtom (rest : List Char) : Prop :=
  ∃ c cs, rest.dropWhile isLight = c :: cs ∧ (c = '\t' ∨ c = ',' ∨ c = ']' ∨ c = '\x7d')

section

variable {w rest : List Char} {c : Cursor}

theorem endsPlain_cons {ch : Char} (h : isAtomChar ch = true) (cs : List Char) :
    endsPlain true (ch :: cs) = false := by
  have hne (d : Char) (hd : isAtomChar d = false) : ch ≠ d := ne_of_class h hd
  unfold endsPlain
  split
  · next heq => cases heq
  · next heq => exact absurd (List.cons.inj heq).1 (hne ':' rfl)
  · next heq =>
    obtain ⟨rfl, rfl⟩ := List.cons.inj heq
    simp [isBlankOrEnd, isSpaceOrEnd, isBreakOrEnd, isBreak, hne '\t' rfl, hne ' ' rfl, hne '\x00' rfl,
      hne '\r' rfl, hne '\n' rfl, hne '\u0085' rfl, hne '\u2028' rfl, hne '\u2029' rfl, hne ',' rfl,
      hne '?' rfl, hne '[' rfl, hne ']' rfl, hne '\x7b' rfl, hne '\x7d' rfl]

theorem endsPlain_of_isBlankOrEnd {ch : Char} (hcolon : ch ≠ ':')
    (h : isBlankOrEnd ch = true ∨ ch = ',' ∨ ch = ']' ∨ ch = '\x7d') (cs : List Char) :
    endsPlain true (ch :: cs) = true := by
  unfold endsPlain
  split
  · next heq => cases heq
  · next heq => exact absurd (List.cons.inj heq).1 hcolon
  · next heq =>
    obtain ⟨rfl, rfl⟩ := List.cons.inj heq
    rcases h with h | rfl | rfl | rfl
    · rw [h, Bool.true_or]
    · rfl
    · rfl
    · rfl

theorem endsPlain_mark {ch : Char} (h : ch = '\t' ∨ ch = ',' ∨ ch = ']' ∨ ch = '\x7d') (cs : List Char) :
    endsPlain true (ch :: cs) = true := by
  refine endsPlain_of_isBlankOrEnd (by rintro rfl; simp at h) ?_ cs
  rcases h with rfl | h
  · exact .inl rfl
  · exact .inr h

theorem endsPlain_of_endsAtom (h : EndsAtom rest) : endsPlain true rest = true := by
  obtain ⟨ch, cs, hrest, hch⟩ := h
  cases rest with
  | nil => cases hrest
  | cons a as =>
    by_cases hlight : isLight a = true
    · refine endsPlain_of_isBlankOrEnd (by rintro rfl; simp [isLight, isBreak] at hlight) (.inl ?_) as
      rw [isLight, Bool.or_eq_true] at hlight
      rcases hlight with hspace | hbreak
      · rw [isBlankOrEnd, isSpaceOrEnd, hspace, Bool.true_or, Bool.or_true]
      · rw [isBlankOrEnd, isSpaceOrEnd, isBreakOrEnd, hbreak, Bool.or_true, Bool.or_true, Bool.or_true]
    · rw [List.dropWhile_cons_of_neg hlight] at hrest
      obtain ⟨rfl, rfl⟩ := List.cons.inj hrest
      exact endsPlain_mark hch _

theorem plainWord_append (hw : ∀ ch ∈ w, isAtomChar ch = true) (hrest : endsPlain true rest = true) :
    plainWord true (w ++ rest) = w := by
  induction w with
  | nil => cases rest <;> simp [plainWord, hrest]
  | cons ch w ih =>
    obtain ⟨hch, hw⟩ := List.forall_mem_cons.1 hw
    rw [List.cons_append, plainWord, endsPlain_cons hch, if_neg Bool.false_ne_true, ih hw]

theorem plainBreaks_spec (fuel : ℕ) {c : Cursor} (hfuel : c.rest.length < fuel) :
    c.Skips (plainBreaks fuel c).2 ∧
      ((plainBreaks fuel c).1 ≠ none → (plainBreaks fuel c).2.rest = c.rest.dropWhile isLight) := by
  induction fuel generalizing c with
  | zero => exact absurd hfuel (Nat.not_lt_zero _)
  | succ fuel ih =>
    rw [plainBreaks]
    split
    · next hspace =>
      obtain ⟨cs, hcs⟩ := Cursor.exists_rest_of_head (by simpa using hspace) (by decide)
      have hnext := Cursor.rest_next hcs
      have hskips : c.Skips c.next := @Cursor.skips_advance c [' '] cs hcs (by simp [isLight])
      obtain ⟨hskips', hrest⟩ := @ih c.next (by rw [hnext]; rw [hcs, List.length_cons] at hfuel; omega)
      rw [hskips.dropWhile_eq] at hrest
      exact ⟨hskips.trans hskips', hrest⟩
    · next hspace =>
      split
      · next br c' hbreak =>
        have hskips := Cursor.skips_lineBreak hbreak
        have hlt := Cursor.rest_lineBreak_lt hbreak
        split
        · exact ⟨hskips, fun h => absurd rfl h⟩
        · obtain ⟨hskips', hrest⟩ := @ih c' (by omega)
          rw [hskips.dropWhile_eq] at hrest
          split
          · next breaks c'' heq =>
            rw [heq] at hskips' hrest
            exact ⟨hskips.trans hskips', fun _ => hrest (by simp)⟩
          · next c'' heq =>
            rw [heq] at hskips'
            exact ⟨hskips.trans hskips', fun h => absurd rfl h⟩
      · next hbreak =>
        refine ⟨Cursor.Skips.refl c, fun _ => ?_⟩
        cases hcs : c.rest with
        | nil => rfl
        | cons a cs =>
          have hfirst := Cursor.isBreak_head?_of_lineBreak? hbreak a (by rw [hcs]; rfl)
          rw [Cursor.head_eq hcs, Bool.not_eq_true] at hspace
          rw [dropWhile_isLight_cons (by rw [isLight, hspace, hfirst]; rfl)]

/-- Between the words of a plain scalar light space is skipped, all of it if the scalar can go on. -/
theorem plainSpace_spec (c : Cursor) :
    c.Skips (plainSpace c).2.2 ∧
      ((plainSpace c).1 ≠ [] → (plainSpace c).2.2.rest = c.rest.dropWhile isLight) := by
  have hspaces := c.skips_spaces
  rw [plainSpace]
  dsimp only
  split
  · next br c' hbreak =>
    have hskips := hspaces.trans (Cursor.skips_lineBreak hbreak)
    split
    · exact ⟨hskips, fun h => absurd rfl h⟩
    · obtain ⟨hskips', hrest⟩ := plainBreaks_spec _ (Nat.lt_succ_self c'.rest.length)
      rw [hskips.dropWhile_eq] at hrest
      split
      · next c'' heq =>
        rw [heq] at hskips'
        exact ⟨hskips.trans hskips', fun h => absurd rfl h⟩
      · next breaks c'' heq =>
        rw [heq] at hskips' hrest
        exact ⟨hskips.trans hskips', fun _ => hrest (by simp)⟩
  · next hbreak => exact ⟨hspaces, fun _ => Cursor.rest_spaces hbreak⟩

/-- A number or word is one plain scalar. -/
theorem plainScalar_eq (hw : IsAtom w) (hrest : c.rest = w ++ rest) (hends : EndsAtom rest) (outer : ℤ) :
    ∃ broke c', plainScalar true outer c = (.scalar true (String.ofList w), broke, c') ∧
      (c.advance w.length).Skips c' := by
  obtain ⟨hchars, ch, cs, rfl, -⟩ := hw
  have hword := plainWord_append hchars (endsPlain_of_endsAtom hends)
  have hhash : (c.head == '#') = false := by
    rw [Cursor.head_eq hrest, beq_eq_false_iff_ne]
    rintro rfl
    exact absurd (hchars '#' List.mem_cons_self) (by decide)
  obtain ⟨hskips, hrest'⟩ := plainSpace_spec (c.advance (ch :: cs).length)
  rw [Cursor.rest_advance hrest] at hrest'
  have hfuel : ∃ fuel, c.rest.length.succ = fuel + 2 :=
    ⟨(cs ++ rest).length, by rw [hrest]; rfl⟩
  obtain ⟨fuel, hfuel⟩ := hfuel
  have hwords : plainWords true outer c.rest.length.succ [] c =
      (ch :: cs, (plainSpace (c.advance (ch :: cs).length)).2) := by
    rw [hfuel, plainWords, hhash, if_neg Bool.false_ne_true, hrest, hword]
    dsimp only
    rw [if_neg (by simp)]
    split
    · rfl
    · next hgoes =>
      simp only [Bool.or_eq_true, not_or, List.isEmpty_iff] at hgoes
      obtain ⟨mark, more, hmore, hmark⟩ := hends
      have hnone : plainWord true (plainSpace (c.advance (ch :: cs).length)).2.2.rest = [] := by
        rw [hrest' hgoes.1.1, hmore, plainWord, endsPlain_mark hmark, if_pos rfl]
      have hstop : ∀ space, plainWords true outer (fuel + 1) space
          (plainSpace (c.advance (ch :: cs).length)).2.2 =
            ([], !space.isEmpty && (plainSpace (c.advance (ch :: cs).length)).2.2.column == 0,
              (plainSpace (c.advance (ch :: cs).length)).2.2) := by
        intro space
        rw [plainWords, hnone]
        simp
      rw [hstop]
      simp
  rw [plainScalar, hwords]
  exact ⟨_, _, rfl, hskips⟩

/-- What the first character of a number or word is not. -/
theorem IsAtom.ne_of_begins {ch : Char} {cs : List Char} (hw : IsAtom (ch :: cs)) {d : Char}
    (hd : d.isAlphanum = false) (hdash : d ≠ '-') : ch ≠ d := by
  obtain ⟨-, ch', cs', heq, hch⟩ := hw
  obtain ⟨rfl, rfl⟩ := List.cons.inj heq
  rcases hch with halnum | ⟨rfl, -⟩
  · exact ne_of_class halnum hd
  · exact hdash.symm

theorem not_isBlankOrEnd_of_isAlphanum {ch : Char} (h : ch.isAlphanum = true) :
    isBlankOrEnd ch = false := by
  have hne (d : Char) (hd : d.isAlphanum = false) : ch ≠ d := ne_of_class h hd
  simp [isBlankOrEnd, isSpaceOrEnd, isBreakOrEnd, isBreak, hne '\t' rfl, hne ' ' rfl, hne '\x00' rfl,
    hne '\r' rfl, hne '\n' rfl, hne '\u0085' rfl, hne '\u2028' rfl, hne '\u2029' rfl]

/-- Behind a minus stands a letter or digit. -/
theorem IsAtom.peek_of_dash {ch : Char} {cs : List Char} (hw : IsAtom (ch :: cs))
    (hrest : c.rest = (ch :: cs) ++ rest) (hch : ch = '-') :
    (c.peek 1).isAlphanum = true := by
  obtain ⟨-, ch', cs', heq, hcases⟩ := hw
  obtain ⟨rfl, rfl⟩ := List.cons.inj heq
  rcases hcases with halnum | ⟨-, d, ds, rfl, hd⟩
  · rw [hch] at halnum
    cases halnum
  · rw [Cursor.peek, hrest]
    exact hd

/-- A number or word begins no document mark and no entry of a block. -/
theorem IsAtom.startsPlain {ch : Char} {cs : List Char} (hw : IsAtom (ch :: cs))
    (hrest : c.rest = (ch :: cs) ++ rest) :
    startsPlain true c = true ∧ c.isDocumentMark '-' = false ∧ c.isDocumentMark '.' = false ∧
      (ch == '-' && isBlankOrEnd (c.peek 1)) = false := by
  have hhead : c.head = ch := Cursor.head_eq hrest
  have hzero : c.peek 0 = ch := by
    rw [Cursor.peek, hrest]
    rfl
  have hdot : ch ≠ '.' := hw.ne_of_begins rfl (by decide)
  have hlast : c.isDocumentMark '.' = false := by
    rw [Cursor.isDocumentMark, hzero, beq_false_of_ne hdot]
    rfl
  by_cases hch : ch = '-'
  · have hpeek := hw.peek_of_dash hrest hch
    have hone : c.peek 1 ≠ '-' := by
      intro heq
      rw [heq] at hpeek
      cases hpeek
    have hblank := not_isBlankOrEnd_of_isAlphanum hpeek
    refine ⟨?_, ?_, hlast, ?_⟩
    · rw [Yaml.startsPlain, hhead, hblank, hch]
      decide
    · rw [Cursor.isDocumentMark, beq_false_of_ne hone, Bool.and_false]
      rfl
    · rw [hblank, Bool.and_false]
  · have halnum : ch.isAlphanum = true := by
      obtain ⟨-, ch', cs', heq, hcases⟩ := hw
      obtain ⟨rfl, rfl⟩ := List.cons.inj heq
      exact hcases.resolve_right fun h => hch h.1
    have hne (d : Char) (hd : d.isAlphanum = false) : ch ≠ d := ne_of_class halnum hd
    refine ⟨?_, ?_, hlast, ?_⟩
    · rw [Yaml.startsPlain, hhead, not_isBlankOrEnd_of_isAlphanum halnum]
      simp [hne '?' rfl, hne ':' rfl, hne ',' rfl, hne '[' rfl, hne ']' rfl, hne '\x7b' rfl,
        hne '\x7d' rfl, hne '#' rfl, hne '&' rfl, hne '*' rfl, hne '!' rfl, hne '|' rfl, hne '>' rfl,
        hne '\'' rfl, hne '"' rfl, hne '%' rfl, hne '@' rfl, hne '\x60' rfl, hch]
    · rw [Cursor.isDocumentMark, hzero, beq_false_of_ne hch]
      rfl
    · rw [beq_false_of_ne hch, Bool.false_and]

end

namespace Scanner

section

variable {key : Bool} {tokens : List Token} {depth : ℕ} {w rest : List Char}

theorem leads_atom (hw : IsAtom w) (hends : EndsAtom rest) :
    Leads True (At key tokens (depth + 1) (w ++ rest))
      (At false (tokens ++ [.scalar true (String.ofList w)]) (depth + 1) rest) := by
  intro s hs
  obtain ⟨ch, cs, rfl⟩ : ∃ ch cs, w = ch :: cs := by
    obtain ⟨-, ch, cs, rfl, -⟩ := hw
    exact ⟨ch, cs, rfl⟩
  have hne (d : Char) (hd : d.isAlphanum = false) (hdash : d ≠ '-') : ch ≠ d := hw.ne_of_begins hd hdash
  have hlight : isLight ch = false := by
    simp [isLight, isBreak, hne ' ' rfl, hne '\r' rfl, hne '\n' rfl, hne '\u0085' rfl,
      hne '\u2028' rfl, hne '\u2029' rfl]
  obtain ⟨s', hready, hrest, hat⟩ :=
    hs.ready_cons ⟨hlight, hne '#' rfl (by decide), hne '\uFEFF' rfl (by decide)⟩
  obtain ⟨hstarts, hdashes, hdots, hdash⟩ := hw.startsPlain hrest
  have hflow : s'.inFlow = true := by
    rw [inFlow, hat.depth_eq]
    simp
  obtain ⟨places, hsave, hoptional, -⟩ := hat.saveCandidate
  have hflow' : { s' with candidates := places }.inFlow = true := hflow
  obtain ⟨broke, c, hplain, hskips⟩ := plainScalar_eq hw hrest hends s'.indent
  have hbehind : (s'.cursor.advance (ch :: cs).length).rest = rest := Cursor.rest_advance hrest
  have hnext : s.next? = .ok (some { { s' with candidates := places }.push
      (.scalar true (String.ofList (ch :: cs))) with cursor := c, keyAllowed := broke }) := by
    rw [next?, hready.dropStale_eq]
    simp [bind, Except.bind, hready.unwindTo_eq, Cursor.head_eq hrest, hrest, hflow, hdashes, hdots,
      hdash, hstarts, hsave, hplain, hne '%' rfl, hne ',' rfl, hne '[' rfl, hne ']' rfl,
      hne '\x7b' rfl, hne '\x7d' rfl, hne '?' rfl, hne ':' rfl, hne '*' rfl, hne '&' rfl,
      hne '!' rfl, hne '\'' rfl, hne '"' rfl, hflow']
    rfl
  have hlt : c.rest.length < s.cursor.rest.length := by
    have hle := hready.skips.length_le
    have hle' := hskips.length_le
    rw [hrest] at hle
    rw [hbehind] at hle'
    simp at hle
    omega
  refine .inl ⟨trivial, _, ?_, reaches_of_next? hnext hlt⟩
  refine ⟨?_, hat.depth_eq, ?_, hat.indent_eq, hoptional, fun hfalse => by cases hfalse⟩
  · rw [← hat.tokens_eq]
    exact Array.toList_push
  · rw [← hbehind]
    exact hskips.dropWhile_eq

end

end Scanner

end ApiShell.Yaml
