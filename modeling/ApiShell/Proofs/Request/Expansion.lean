import ApiShell.Proofs.Text.Split
import ApiShell.Request.Credential

/-!
# What expansion puts into a text

A text is divided at its references to variables, `${NAME}` or `$NAME`, in one way only: the name
without braces goes as far as it can, and between the references there are texts without any, a
`Division`.  Expansion keeps these texts and puts the value of each variable between them; a value is
not read again, whatever it looks like.  So what comes of a text depends on the values of the variables
that it names, and on nothing else.
-/

namespace ApiShell.Request

variable {value : String → String} {name cs ds after tail : List Char} {c : Char}

/-! ### References -/

/-- The name of a variable. -/
def IsVariable (name : List Char) : Prop :=
  ∃ c cs, name = c :: cs ∧ isNameStart c = true ∧ ∀ d ∈ cs, isNameChar d = true

/-- A reference to a variable. -/
structure Reference where
  name : List Char
  /-- The name stands between braces. -/
  isBraced : Bool
  isVariable : IsVariable name

namespace Reference

/-- What stands behind the dollar sign. -/
def body (r : Reference) : List Char :=
  if r.isBraced then '{' :: (r.name ++ ['}']) else r.name

/-- The reference as it is written. -/
def text (r : Reference) : List Char := '$' :: r.body

/-- The reference does not go on into the text behind it: without braces, the name is as long as it can
be. -/
def EndsBefore (r : Reference) (after : List Char) : Prop :=
  r.isBraced = false → ∀ c ∈ after.head?, isNameChar c = false

end Reference

/-- There is no reference in the text. -/
def IsUnreferring (cs : List Char) : Prop := ∀ r : Reference, ¬ r.text <:+: cs

/-- A text divided at its references: texts without references, and references between them. -/
structure Division where
  /-- The text up to the first reference. -/
  first : List Char
  /-- Each reference, with the text behind it. -/
  rest : List (Reference × List Char)
  isUnreferring_first : IsUnreferring first
  isUnreferring : ∀ x ∈ rest, IsUnreferring x.2
  endsBefore : ∀ x ∈ rest, x.1.EndsBefore x.2

namespace Division

/-- The names of the variables that are referred to. -/
def names (d : Division) : List String := d.rest.map fun x => String.ofList x.1.name

/-- The text that is divided. -/
def text (d : Division) : List Char := d.first ++ d.rest.flatMap fun x => x.1.text ++ x.2

/-- The text with values in the places of the references. -/
def expanded (d : Division) (value : String → String) : List Char :=
  d.first ++ d.rest.flatMap fun x => (value (String.ofList x.1.name)).toList ++ x.2

end Division

/-! ### Reading a reference -/

theorem isNameChar_of_isNameStart (h : isNameStart c = true) : isNameChar c = true := by
  rw [isNameChar, h, Bool.true_or]

theorem IsVariable.isNameChar (h : IsVariable name) : ∀ c ∈ name, isNameChar c = true := by
  obtain ⟨c, cs, rfl, hstart, hcs⟩ := h
  exact List.forall_mem_cons.2 ⟨isNameChar_of_isNameStart hstart, hcs⟩

/-- No name goes on into a text that begins with none of its characters. -/
theorem takeWhile_isNameChar (h : ∀ c ∈ after.head?, isNameChar c = false) :
    after.takeWhile isNameChar = [] ∧ after.dropWhile isNameChar = after := by
  cases after with
  | nil => exact ⟨rfl, rfl⟩
  | cons d after =>
    have hd := h d rfl
    exact ⟨List.takeWhile_cons_of_neg (by simp [hd]), List.dropWhile_cons_of_neg (by simp [hd])⟩

/-- A name is taken up to the first character that belongs to none. -/
theorem takeVariable_append (h : IsVariable name) (hafter : ∀ c ∈ after.head?, isNameChar c = false) :
    takeVariable (name ++ after) = some (name, after) := by
  obtain ⟨c, cs, rfl, hstart, hcs⟩ := h
  obtain ⟨htake, hdrop⟩ := takeWhile_isNameChar hafter
  rw [List.cons_append, takeVariable, if_pos hstart, List.takeWhile_append_of_pos hcs,
    List.dropWhile_append_of_pos hcs, htake, hdrop, List.append_nil]

theorem of_takeVariable (h : takeVariable cs = some (name, after)) :
    IsVariable name ∧ cs = name ++ after ∧ ∀ c ∈ after.head?, isNameChar c = false := by
  unfold takeVariable at h
  split at h
  · next c rest =>
    split at h
    · next hstart =>
      obtain ⟨rfl, rfl⟩ := Prod.mk.inj (Option.some.inj h)
      refine ⟨⟨c, _, rfl, hstart, List.all_eq_true.1 List.all_takeWhile⟩, ?_, fun d hd => ?_⟩
      · rw [List.cons_append, List.takeWhile_append_dropWhile]
      · have hnot := List.head?_dropWhile_not isNameChar rest
        rw [Option.mem_def.1 hd] at hnot
        simpa using hnot
    · cases h
  · cases h

/-- Behind a dollar sign, a name is read without braces. -/
theorem takeReference_eq_takeVariable (h : IsVariable name) (after : List Char) :
    takeReference (name ++ after) = takeVariable (name ++ after) := by
  obtain ⟨c, cs, rfl, hstart, -⟩ := h
  have hbrace : c ≠ '{' := by
    rintro rfl
    exact absurd hstart (by decide)
  simp [takeReference, hbrace]

/-- A reference is read back with the text behind it, if it does not go on there. -/
theorem takeReference_body {r : Reference} (h : r.EndsBefore after) :
    takeReference (r.body ++ after) = some (r.name, after) := by
  obtain ⟨name, isBraced, hname⟩ := r
  cases isBraced with
  | true =>
    have htake : takeVariable (name ++ '}' :: after) = some (name, '}' :: after) :=
      takeVariable_append hname (by rintro c ⟨⟩; decide)
    simp [Reference.body, takeReference, htake]
  | false => exact (takeReference_eq_takeVariable hname after).trans (takeVariable_append hname (h rfl))

/-- Where a reference is written, one is read; it may go on behind it. -/
theorem takeReference_body_ne_none (r : Reference) (after : List Char) :
    takeReference (r.body ++ after) ≠ none := by
  cases hbraced : r.isBraced with
  | true =>
    have hends : r.EndsBefore after := by simp [Reference.EndsBefore, hbraced]
    simp [takeReference_body hends]
  | false =>
    have hbody : r.body = r.name := by simp [Reference.body, hbraced]
    obtain ⟨c, cs, hname, hstart, -⟩ := r.isVariable
    rw [hbody, takeReference_eq_takeVariable r.isVariable, hname]
    simp [takeVariable, hstart]

/-- What is read as a reference is one. -/
theorem of_takeReference (h : takeReference cs = some (name, after)) :
    ∃ r : Reference, r.name = name ∧ cs = r.body ++ after ∧ r.EndsBefore after := by
  unfold takeReference at h
  split at h
  · next rest =>
    split at h
    · next name' after' htake =>
      obtain ⟨rfl, rfl⟩ := Prod.mk.inj (Option.some.inj h)
      obtain ⟨hname, hrest, -⟩ := of_takeVariable htake
      exact ⟨⟨name', true, hname⟩, rfl, by simp [Reference.body, hrest], nofun⟩
    · cases h
  · obtain ⟨hname, hcs, hafter⟩ := of_takeVariable h
    exact ⟨⟨name, false, hname⟩, rfl, hcs, fun _ => hafter⟩

theorem Reference.dollar_notMem_body (r : Reference) : '$' ∉ r.body := by
  have hname : '$' ∉ r.name := fun h => absurd (r.isVariable.isNameChar _ h) (by decide)
  unfold Reference.body
  split
  · simp [hname]
  · exact hname

/-! ### Texts without references -/

theorem IsUnreferring.of_cons (h : IsUnreferring (c :: cs)) : IsUnreferring cs :=
  fun r hinfix => h r (List.infix_cons hinfix)

theorem isUnreferring_nil : IsUnreferring [] := fun _ hinfix => nomatch List.infix_nil.1 hinfix

/-- What may follow a text without references: nothing, or a reference. -/
def BeginsReference (tail : List Char) : Prop :=
  tail = [] ∨ ∃ (r : Reference) (after : List Char), tail = r.text ++ after ∧ r.EndsBefore after

theorem BeginsReference.head? (h : BeginsReference tail) : tail = [] ∨ tail.head? = some '$' := by
  rcases h with rfl | ⟨r, after, rfl, -⟩
  · exact .inl rfl
  · exact .inr rfl

/-- No reference begins in a text without references, if a reference or nothing follows. -/
theorem takeReference_of_isUnreferring (h : IsUnreferring ('$' :: cs)) (htail : BeginsReference tail) :
    takeReference (cs ++ tail) = none := by
  refine Option.eq_none_iff_forall_ne_some.2 fun (name, after) htake => ?_
  obtain ⟨r, -, hsplit, -⟩ := of_takeReference htake
  rcases List.append_eq_append_iff.1 hsplit with ⟨behind, hbody, rfl⟩ | ⟨behind, rfl, -⟩
  · cases behind with
    | nil =>
      rw [List.append_nil] at hbody
      have htext : r.text = '$' :: cs := congrArg _ hbody
      exact h r (htext ▸ List.infix_rfl)
    | cons c behind =>
      -- the reference would go on into what follows, which begins with a dollar sign
      obtain rfl : c = '$' := by simpa using htail.head?
      exact r.dollar_notMem_body (by rw [hbody]; simp)
  · exact h r ⟨[], behind, rfl⟩

/-- Two texts without references, each with a reference or nothing behind it, are the same if they are
so together with what follows. -/
theorem IsUnreferring.append_inj {other tail' : List Char} (h : IsUnreferring cs)
    (hother : IsUnreferring other) (htail : BeginsReference tail) (htail' : BeginsReference tail')
    (heq : cs ++ tail = other ++ tail') : cs = other ∧ tail = tail' := by
  have hcons {c : Char} {ds tail tail' : List Char} (hds : IsUnreferring (c :: ds))
      (htail : BeginsReference tail) (htail' : BeginsReference tail') :
      tail ≠ c :: (ds ++ tail') := by
    rintro rfl
    rcases htail with hnil | ⟨r, after, hr, hends⟩
    · cases hnil
    · obtain ⟨rfl, hbody⟩ := List.cons.inj hr
      have hbody : ds ++ tail' = r.body ++ after := hbody
      have hnone := takeReference_of_isUnreferring hds htail'
      rw [hbody, takeReference_body hends] at hnone
      cases hnone
  induction cs generalizing other with
  | nil =>
    cases other with
    | nil => exact ⟨rfl, heq⟩
    | cons c other => exact absurd heq (hcons hother htail htail')
  | cons c cs ih =>
    cases other with
    | nil => exact absurd heq.symm (hcons h htail' htail)
    | cons d other =>
      rw [List.cons_append, List.cons_append, List.cons.injEq] at heq
      obtain ⟨rfl, heq⟩ := heq
      obtain ⟨rfl, rfl⟩ := ih h.of_cons hother.of_cons heq
      exact ⟨rfl, rfl⟩

/-- References are told apart by what they read, so they are the same if they are so together with what
follows. -/
theorem Reference.append_inj {r other : Reference} {after' : List Char} (h : r.EndsBefore after)
    (hother : other.EndsBefore after') (heq : r.text ++ after = other.text ++ after') :
    r = other ∧ after = after' := by
  have hbody : r.body ++ after = other.body ++ after' := (List.cons.inj heq).2
  have htake := takeReference_body h
  rw [hbody, takeReference_body hother] at htake
  obtain ⟨hname, rfl⟩ := Prod.mk.inj (Option.some.inj htake)
  refine ⟨?_, rfl⟩
  -- braces make a reference longer than its name
  have hbraced : r.isBraced = other.isBraced := by
    have hlength := congrArg List.length (List.append_cancel_right hbody)
    simp only [Reference.body, hname] at hlength
    cases hr : r.isBraced <;> cases hother : other.isBraced <;> simp [hr, hother] at hlength ⊢ <;>
      omega
  obtain ⟨name, isBraced, _⟩ := r
  obtain ⟨name', isBraced', _⟩ := other
  obtain rfl : name' = name := hname
  obtain rfl : isBraced = isBraced' := hbraced
  rfl

/-! ### Expanding a text -/

theorem expandWith_of_takeReference (h : takeReference cs = some (name, after)) :
    expandWith value ('$' :: cs) =
      (value (String.ofList name)).toList ++ expandWith value after := by
  rw [expandWith]
  split
  · next htake =>
    rw [h] at htake
    obtain ⟨rfl, rfl⟩ := Prod.mk.inj (Option.some.inj htake)
    rfl
  · next htake =>
    rw [h] at htake
    cases htake

theorem expandWith_reference {r : Reference} (h : r.EndsBefore after) :
    expandWith value (r.text ++ after) =
      (value (String.ofList r.name)).toList ++ expandWith value after :=
  expandWith_of_takeReference (takeReference_body h)

theorem expandWith_dollar (h : takeReference cs = none) :
    expandWith value ('$' :: cs) = '$' :: expandWith value cs := by
  rw [expandWith]
  split
  · next htake =>
    rw [h] at htake
    cases htake
  · rfl

theorem expandWith_cons (h : c ≠ '$') (cs : List Char) :
    expandWith value (c :: cs) = c :: expandWith value cs := by
  rw [expandWith]
  exact h

/-- A text without references stays as it is, if a reference or nothing follows. -/
theorem expandWith_of_isUnreferring (h : IsUnreferring cs) (htail : BeginsReference tail) :
    expandWith value (cs ++ tail) = cs ++ expandWith value tail := by
  induction cs with
  | nil => rfl
  | cons c cs ih =>
    rw [List.cons_append, List.cons_append, ← ih h.of_cons]
    by_cases hc : c = '$'
    · subst hc
      exact expandWith_dollar (takeReference_of_isUnreferring h htail)
    · exact expandWith_cons hc _

namespace Division

variable {rest : List (Reference × List Char)}

/-- A reference of a division does not go on behind it: the next one begins with a dollar sign. -/
theorem endsBefore_append {x : Reference × List Char} (h : x.1.EndsBefore x.2)
    (rest : List (Reference × List Char)) :
    x.1.EndsBefore (x.2 ++ rest.flatMap fun y => y.1.text ++ y.2) := by
  intro hbraced c hc
  cases hx : x.2 with
  | cons d ds =>
    rw [hx] at hc
    exact h hbraced c (by rw [hx]; exact hc)
  | nil =>
    rw [hx, List.nil_append] at hc
    cases rest with
    | nil => cases hc
    | cons y rest =>
      obtain rfl : '$' = c := Option.some.inj hc
      decide

/-- Behind each text of a division there is a reference or nothing. -/
theorem beginsReference (hends : ∀ x ∈ rest, x.1.EndsBefore x.2) :
    BeginsReference (rest.flatMap fun x => x.1.text ++ x.2) := by
  cases rest with
  | nil => exact .inl rfl
  | cons x rest =>
    refine .inr ⟨x.1, x.2 ++ rest.flatMap fun x => x.1.text ++ x.2, ?_,
      endsBefore_append (hends x List.mem_cons_self) rest⟩
    rw [List.flatMap_cons, List.append_assoc]

/-- Expansion puts the value of each variable in the place of its reference. -/
theorem expandWith_text (d : Division) (value : String → String) :
    expandWith value d.text = d.expanded value := by
  obtain ⟨first, rest, hfirst, hrest, hends⟩ := d
  simp only [text, expanded]
  induction rest generalizing first with
  | nil =>
    have hend : expandWith value (first ++ []) = first ++ expandWith value [] :=
      expandWith_of_isUnreferring hfirst (.inl rfl)
    simpa [expandWith] using hend
  | cons x rest ih =>
    obtain ⟨hx, hrest⟩ := List.forall_mem_cons.1 hrest
    obtain ⟨hxends, hends'⟩ := List.forall_mem_cons.1 hends
    rw [expandWith_of_isUnreferring hfirst (beginsReference hends), List.flatMap_cons,
      List.flatMap_cons, List.append_assoc, expandWith_reference (endsBefore_append hxends rest),
      ih x.2 hx hrest hends', List.append_assoc]

/-- What a text expands to depends on the variables that it names only. -/
theorem expanded_congr {d : Division} {value' : String → String}
    (h : ∀ name ∈ d.names, value' name = value name) : d.expanded value' = d.expanded value := by
  unfold expanded
  rw [List.flatMap_def, List.flatMap_def, List.map_congr_left fun x hx => ?_]
  rw [h _ (List.mem_map_of_mem hx)]

/-- A text is divided in one way only. -/
theorem eq_of_text_eq {d other : Division} (h : d.text = other.text) : d = other := by
  obtain ⟨first, rest, hfirst, hrest, hends⟩ := d
  obtain ⟨first', rest', hfirst', hrest', hends'⟩ := other
  suffices heq : first = first' ∧ rest = rest' by
    obtain ⟨rfl, rfl⟩ := heq
    rfl
  simp only [text] at h
  obtain ⟨rfl, htail⟩ := hfirst.append_inj hfirst' (beginsReference hends) (beginsReference hends') h
  refine ⟨rfl, ?_⟩
  clear h hfirst hfirst'
  induction rest generalizing rest' with
  | nil =>
    cases rest' with
    | nil => rfl
    | cons y rest' => cases htail
  | cons x rest ih =>
    cases rest' with
    | nil => cases htail
    | cons y rest' =>
      obtain ⟨hx, hrest⟩ := List.forall_mem_cons.1 hrest
      obtain ⟨hy, hrest'⟩ := List.forall_mem_cons.1 hrest'
      obtain ⟨hxends, hends⟩ := List.forall_mem_cons.1 hends
      obtain ⟨hyends, hends'⟩ := List.forall_mem_cons.1 hends'
      rw [List.flatMap_cons, List.flatMap_cons, List.append_assoc, List.append_assoc] at htail
      obtain ⟨hreference, htail⟩ := Reference.append_inj (endsBefore_append hxends rest)
        (endsBefore_append hyends rest') htail
      obtain ⟨htext, htail⟩ := hx.append_inj hy (beginsReference hends) (beginsReference hends') htail
      rw [ih hrest hends rest' hrest' hends' htail, Prod.ext hreference htext]

/-- Every text can be divided. -/
theorem exists_text_eq (cs : List Char) : ∃ d : Division, d.text = cs := by
  induction cs using expandWith.induct with
  | case1 => exact ⟨⟨[], [], isUnreferring_nil, nofun, nofun⟩, rfl⟩
  | case2 rest name after htake _ ih =>
    obtain ⟨r, -, rfl, hends⟩ := of_takeReference htake
    obtain ⟨d, rfl⟩ := ih
    refine ⟨⟨[], (r, d.first) :: d.rest, isUnreferring_nil,
      List.forall_mem_cons.2 ⟨d.isUnreferring_first, d.isUnreferring⟩,
      List.forall_mem_cons.2 ⟨fun hbraced c hc => ?_, d.endsBefore⟩⟩, ?_⟩
    · refine hends hbraced c ?_
      cases hfirst : d.first with
      | nil => rw [hfirst] at hc; cases hc
      | cons _ _ => rw [text, hfirst]; rw [hfirst] at hc; exact hc
    · simp [text, Reference.text]
  | case3 rest hnone ih =>
    obtain ⟨d, rfl⟩ := ih
    have hfirst : IsUnreferring ('$' :: d.first) := by
      intro r hinfix
      rcases List.infix_cons_iff.1 hinfix with hprefix | hinfix
      · obtain ⟨behind, hbehind⟩ := (List.cons_prefix_cons.1 hprefix).2
        refine takeReference_body_ne_none r
          (behind ++ d.rest.flatMap fun x => x.1.text ++ x.2) ?_
        rw [← List.append_assoc, hbehind]
        exact hnone
      · exact d.isUnreferring_first r hinfix
    exact ⟨⟨'$' :: d.first, d.rest, hfirst, d.isUnreferring, d.endsBefore⟩, rfl⟩
  | case4 c rest hne ih =>
    obtain ⟨d, rfl⟩ := ih
    have hfirst : IsUnreferring (c :: d.first) := by
      intro r hinfix
      rcases List.infix_cons_iff.1 hinfix with hprefix | hinfix
      · exact hne (List.cons_prefix_cons.1 hprefix).1.symm
      · exact d.isUnreferring_first r hinfix
    exact ⟨⟨c :: d.first, d.rest, hfirst, d.isUnreferring, d.endsBefore⟩, rfl⟩

end Division

/-! ### Expanding texts after each other -/

/-- No reference goes on into the text. -/
def EndsReferences (cs : List Char) : Prop :=
  ∀ c ∈ cs.head?, isNameChar c = false ∧ c ≠ '{' ∧ c ≠ '}'

theorem takeVariable_append_of_endsReferences (h : EndsReferences ds) (cs : List Char) :
    takeVariable (cs ++ ds) = (takeVariable cs).map fun x => (x.1, x.2 ++ ds) := by
  have hhead : ∀ c ∈ ds.head?, isNameChar c = false := fun c hc => (h c hc).1
  obtain ⟨htake, hdrop⟩ := takeWhile_isNameChar hhead
  cases cs with
  | nil =>
    cases ds with
    | nil => rfl
    | cons d ds =>
      have hstart : ¬ isNameStart d = true := fun hstart => by
        have hd := hhead d rfl
        rw [isNameChar_of_isNameStart hstart] at hd
        cases hd
      simp [takeVariable, hstart]
  | cons c rest =>
    have hnames : (rest ++ ds).takeWhile isNameChar = rest.takeWhile isNameChar := by
      rw [List.takeWhile_append, htake]
      split
      · next hall =>
        rw [List.append_nil, (List.takeWhile_prefix isNameChar).eq_of_length hall]
      · rfl
    have hrest : (rest ++ ds).dropWhile isNameChar = rest.dropWhile isNameChar ++ ds := by
      rw [List.dropWhile_append, hdrop]
      split
      · next hnil => rw [List.isEmpty_iff.1 hnil, List.nil_append]
      · rfl
    rw [List.cons_append, takeVariable, takeVariable, hnames, hrest]
    split <;> rfl

theorem takeReference_append_of_endsReferences (h : EndsReferences ds) (cs : List Char) :
    takeReference (cs ++ ds) = (takeReference cs).map fun x => (x.1, x.2 ++ ds) := by
  have hplain {cs : List Char} (hbrace : ∀ c ∈ cs.head?, c ≠ '{') :
      takeReference cs = takeVariable cs := by
    cases cs with
    | nil => rfl
    | cons c cs => simp [takeReference, hbrace c rfl]
  cases cs with
  | nil =>
    rw [List.nil_append, hplain fun c hc => (h c hc).2.1, hplain (by simp)]
    exact takeVariable_append_of_endsReferences h []
  | cons c rest =>
    by_cases hc : c = '{'
    · subst hc
      simp only [List.cons_append, takeReference, takeVariable_append_of_endsReferences h]
      cases takeVariable rest with
      | none => rfl
      | some x =>
        obtain ⟨name, after⟩ := x
        cases after with
        | nil =>
          cases ds with
          | nil => rfl
          | cons d ds => simp [(h d rfl).2.2]
        | cons e after =>
          by_cases he : e = '}'
          · simp [he]
          · simp [he]
    · rw [List.cons_append, hplain (by simpa using hc), hplain (by simpa using hc)]
      exact takeVariable_append_of_endsReferences h (c :: rest)

/-- Where no reference goes on from one text into the next, each is expanded for itself. -/
theorem expandWith_append (h : EndsReferences ds) (cs : List Char) :
    expandWith value (cs ++ ds) = expandWith value cs ++ expandWith value ds := by
  induction cs using expandWith.induct with
  | case1 => simp [expandWith]
  | case2 rest name after htake _ ih =>
    have hlonger : takeReference (rest ++ ds) = some (name, after ++ ds) := by
      rw [takeReference_append_of_endsReferences h, htake]
      rfl
    rw [List.cons_append, expandWith_of_takeReference hlonger, expandWith_of_takeReference htake, ih,
      List.append_assoc]
  | case3 rest hnone ih =>
    rw [List.cons_append, expandWith_dollar hnone, List.cons_append, ← ih]
    refine expandWith_dollar ?_
    rw [takeReference_append_of_endsReferences h, hnone]
    rfl
  | case4 c rest hne ih =>
    rw [List.cons_append, expandWith_cons hne, expandWith_cons hne, ih, List.cons_append]

/-- A text without dollar signs stays as it is. -/
theorem expandWith_append_of_notMem (h : '$' ∉ cs) (ds : List Char) :
    expandWith value (cs ++ ds) = cs ++ expandWith value ds := by
  induction cs with
  | nil => rfl
  | cons c cs ih =>
    rw [List.mem_cons, not_or] at h
    rw [List.cons_append, expandWith_cons (Ne.symm h.1), ih h.2, List.cons_append]

theorem expandWith_of_notMem (h : '$' ∉ cs) : expandWith value cs = cs := by
  have hend : expandWith value (cs ++ []) = cs ++ expandWith value [] :=
    expandWith_append_of_notMem h []
  simpa [expandWith] using hend

end ApiShell.Request
