import ApiShell.Proofs.Encoding.Percent
import ApiShell.Proofs.Run
import ApiShell.Proofs.Text.Split
import ApiShell.Request.Template

/-!
# What substitution puts into a template

Placeholders do not overlap: a name has no braces, so each placeholder of a template is an innermost
pair of braces with a name between them.  A template is therefore cut in one way only into literal
texts without placeholders and the names between them, a `Cut`.  Substitution keeps the literal
texts and puts the encoded value of each name between them; nothing that it put there is read
again.  It fails where a name has no value, and names the first one.

A filled template is the text of its pieces one after the other.  A value brings in no slash, so the
segments of the filled template are those of the template, each filled for itself.
-/

namespace ApiShell.Request

variable {template : String} {values : List (String × String)}

/-! ### Pieces and segments -/

/-- The text that is bound to a name; none where there is no value. -/
def boundText (values : List (String × String)) (name : List Char) : List Char :=
  ((Entries.get? values (String.ofList name)).getD "").toList

namespace Piece

/-- What a piece puts into a path. -/
def filled (values : List (String × String)) : Piece → List Char
  | literal c => [c]
  | placeholder name => Percent.encodeAll (boundText values name)

end Piece

/-- A filled template is the text of its pieces. -/
theorem eq_flatMap_of_fill {ps : List Piece} {cs : List Char}
    (h : fill template values ps = .ok cs) : cs = ps.flatMap (Piece.filled values) := by
  induction ps generalizing cs with
  | nil => exact (Except.ok.inj h).symm
  | cons p ps ih =>
    cases p with
    | literal c =>
      obtain ⟨rest, hrest, rfl⟩ := map_eq_ok_iff.1 h
      rw [List.flatMap_cons, ← ih hrest]
      rfl
    | placeholder name =>
      rw [fill] at h
      split at h
      · cases h
      · next value hvalue =>
        obtain ⟨rest, hrest, rfl⟩ := map_eq_ok_iff.1 h
        rw [List.flatMap_cons, ← ih hrest, Piece.filled, boundText, hvalue]
        rfl

/-- The pieces of a template between its slashes. -/
def segments (ps : List Piece) : List (List Piece) := ps.splitOn (.literal '/')

theorem mem_of_takeName {cs name after : List Char} (h : takeName cs = some (name, after)) {c : Char}
    (hc : c ∈ after) : c ∈ cs := by
  unfold takeName at h
  dsimp only at h
  split at h
  · cases h
  · next hdrop _ =>
    obtain ⟨-, rfl⟩ := Prod.mk.inj (Option.some.inj h)
    exact List.mem_of_mem_drop (hdrop ▸ List.mem_cons_of_mem _ hc)
  · cases h

/-- The literal pieces of a text are characters of it. -/
theorem mem_of_literal_mem_pieces {c : Char} {cs : List Char} (h : .literal c ∈ pieces cs) :
    c ∈ cs := by
  fun_induction pieces cs with
  | case1 => cases h
  | case2 rest name after hname hlength ih =>
    rcases List.mem_cons.1 h with h | h
    · cases h
    · exact List.mem_cons_of_mem _ (mem_of_takeName hname (ih h))
  | case3 rest hname ih =>
    rcases List.mem_cons.1 h with h | h
    · cases h
      exact List.mem_cons_self
    · exact List.mem_cons_of_mem _ (ih h)
  | case4 d rest hne ih =>
    rcases List.mem_cons.1 h with h | h
    · cases h
      exact List.mem_cons_self
    · exact List.mem_cons_of_mem _ (ih h)

/-- A value brings in no mark of a path. -/
theorem notMem_encodeAll {c : Char} (h : c ≠ '%' ∧ Percent.isUnreserved c = false) (cs : List Char) :
    c ∉ Percent.encodeAll cs := by
  intro hc
  rcases Percent.mem_encode hc with hc | hc | hc
  · exact h.1 hc
  · rw [h.2] at hc
    cases hc
  · cases hc

variable {name cs tail : List Char}

/-! ### Placeholders -/

/-- A text that may stand between the braces of a placeholder. -/
def IsName (name : List Char) : Prop := name ≠ [] ∧ '{' ∉ name ∧ '}' ∉ name

/-- There is no placeholder in the text. -/
def IsLiteral (cs : List Char) : Prop := ∀ name, IsName name → ¬ '{' :: (name ++ ['}']) <:+: cs

/-- A template cut at its placeholders: literal texts without placeholders, and names between
them. -/
structure Cut where
  /-- The text up to the first placeholder. -/
  first : List Char
  /-- The name of each placeholder, with the text behind it. -/
  rest : List (List Char × List Char)
  isLiteral_first : IsLiteral first
  isName : ∀ x ∈ rest, IsName x.1
  isLiteral : ∀ x ∈ rest, IsLiteral x.2

namespace Cut

/-- The names of the placeholders, in order. -/
def names (cut : Cut) : List (List Char) := cut.rest.map Prod.fst

/-- The text that is cut. -/
def text (cut : Cut) : List Char :=
  cut.first ++ cut.rest.flatMap fun x => '{' :: (x.1 ++ '}' :: x.2)

/-- The literal texts with other texts in the places of the placeholders. -/
def fillWith (cut : Cut) (texts : List (List Char)) : List Char :=
  cut.first ++ (List.zipWith (fun text x => text ++ x.2) texts cut.rest).flatten

/-- The pieces of the text. -/
def pieces (cut : Cut) : List Piece :=
  cut.first.map .literal ++ cut.rest.flatMap fun x => .placeholder x.1 :: x.2.map .literal

end Cut

/-! ### Names and literal texts -/

theorem isLiteral_nil : IsLiteral [] := fun _ _ hinfix => nomatch List.infix_nil.1 hinfix

/-- A character goes before a literal text unless a placeholder starts with it. -/
theorem isLiteral_cons_iff {c : Char} : IsLiteral (c :: cs) ↔
    IsLiteral cs ∧ ∀ name behind, IsName name → c = '{' → cs ≠ name ++ '}' :: behind := by
  constructor
  · refine fun h => ⟨fun name hname hinfix => h name hname (List.infix_cons hinfix), ?_⟩
    rintro name behind hname rfl rfl
    exact h name hname ⟨[], behind, by simp⟩
  · rintro ⟨hcs, hstart⟩ name hname hinfix
    rcases List.infix_cons_iff.1 hinfix with hprefix | hinfix
    · obtain ⟨hc, behind, hbehind⟩ := List.cons_prefix_cons.1 hprefix
      exact hstart name behind hname hc.symm (by simp [← hbehind])
    · exact hcs name hname hinfix

/-- A name is taken up to the brace that closes it. -/
theorem takeName_append (h : IsName name) (after : List Char) :
    takeName (name ++ '}' :: after) = some (name, after) := by
  have hbraces : ∀ c ∈ name, (c != '{' && c != '}') = true := by
    intro c hc
    have hopen : c ≠ '{' := fun heq => h.2.1 (heq ▸ hc)
    have hclose : c ≠ '}' := fun heq => h.2.2 (heq ▸ hc)
    simp [hopen, hclose]
  have htake : (name ++ '}' :: after).takeWhile (fun c => c != '{' && c != '}') = name := by
    rw [List.takeWhile_append_of_pos hbraces]
    simp
  unfold takeName
  dsimp only
  rw [htake, List.drop_left]
  obtain ⟨c, cs, rfl⟩ := List.exists_cons_of_ne_nil h.1
  rfl

/-- What is taken as a name is one, with the brace that closes it behind it. -/
theorem eq_append_of_takeName {after : List Char} (h : takeName cs = some (name, after)) :
    IsName name ∧ cs = name ++ '}' :: after := by
  unfold takeName at h
  dsimp only at h
  split at h
  · cases h
  · next hdrop hne =>
    obtain ⟨rfl, rfl⟩ := Prod.mk.inj (Option.some.inj h)
    have hall : ∀ c ∈ cs.takeWhile (fun c => c != '{' && c != '}'), (c != '{' && c != '}') = true :=
      List.all_eq_true.1 List.all_takeWhile
    have hopen : '{' ∉ cs.takeWhile (fun c => c != '{' && c != '}') :=
      fun hc => absurd (hall _ hc) (by decide)
    have hclose : '}' ∉ cs.takeWhile (fun c => c != '{' && c != '}') :=
      fun hc => absurd (hall _ hc) (by decide)
    have hsplit := List.takeWhile_append_dropWhile (p := fun c => c != '{' && c != '}') (l := cs)
    rw [Text.drop_length_takeWhile] at hdrop
    rw [hdrop] at hsplit
    exact ⟨⟨hne, hopen, hclose⟩, hsplit.symm⟩
  · cases h

/-- Behind a brace of a literal text no name can be taken, if a placeholder or nothing follows. -/
theorem takeName_of_isLiteral (h : IsLiteral ('{' :: cs))
    (htail : tail = [] ∨ tail.head? = some '{') : takeName (cs ++ tail) = none := by
  by_contra hne
  obtain ⟨⟨name, after⟩, htake⟩ := Option.ne_none_iff_exists'.1 hne
  obtain ⟨hname, hsplit⟩ := eq_append_of_takeName htake
  rcases List.append_eq_append_iff.1 hsplit with ⟨behind, rfl, rfl⟩ | ⟨behind, rfl, hbehind⟩
  · -- the name would go on into what follows the literal text
    cases behind with
    | nil => simp at htail
    | cons c behind =>
      have hc : c = '{' := by simpa using htail
      exact hname.2.1 (List.mem_append_right _ (hc ▸ List.mem_cons_self))
  · cases behind with
    | nil =>
      rw [List.nil_append] at hbehind
      simp [← hbehind] at htail
    | cons c behind =>
      -- the placeholder would end in the literal text
      obtain ⟨rfl, -⟩ := List.cons.inj hbehind
      exact (isLiteral_cons_iff.1 h).2 name behind hname rfl rfl

/-! ### The pieces of a cut -/

theorem pieces_placeholder (h : IsName name) (after : List Char) :
    pieces ('{' :: (name ++ '}' :: after)) = .placeholder name :: pieces after := by
  rw [pieces]
  split
  · next taken rest htake =>
    rw [takeName_append h] at htake
    obtain ⟨rfl, rfl⟩ := Prod.mk.inj (Option.some.inj htake)
    rfl
  · next htake =>
    rw [takeName_append h] at htake
    cases htake

theorem pieces_brace (h : takeName cs = none) : pieces ('{' :: cs) = .literal '{' :: pieces cs := by
  rw [pieces]
  split
  · next htake =>
    rw [h] at htake
    cases htake
  · rfl

theorem pieces_cons {c : Char} (h : c ≠ '{') (cs : List Char) :
    pieces (c :: cs) = .literal c :: pieces cs := by
  rw [pieces]
  exact h

/-- A literal text stays as it is, if a placeholder or nothing follows. -/
theorem pieces_literal (h : IsLiteral cs) (htail : tail = [] ∨ tail.head? = some '{') :
    pieces (cs ++ tail) = cs.map .literal ++ pieces tail := by
  induction cs with
  | nil => rfl
  | cons c cs ih =>
    rw [List.cons_append, List.map_cons, List.cons_append, ← ih (isLiteral_cons_iff.1 h).1]
    by_cases hc : c = '{'
    · subst hc
      exact pieces_brace (takeName_of_isLiteral h htail)
    · exact pieces_cons hc _

namespace Cut

/-- The pieces of a cut text are the pieces of the cut. -/
theorem pieces_text (cut : Cut) : Request.pieces cut.text = cut.pieces := by
  obtain ⟨first, rest, hfirst, hname, hrest⟩ := cut
  simp only [text, Cut.pieces]
  induction rest generalizing first with
  | nil =>
    rw [List.flatMap_nil, List.flatMap_nil, pieces_literal hfirst (.inl rfl), Request.pieces]
  | cons x rest ih =>
    obtain ⟨hx, hname⟩ := List.forall_mem_cons.1 hname
    obtain ⟨hlit, hrest⟩ := List.forall_mem_cons.1 hrest
    rw [List.flatMap_cons, List.flatMap_cons, pieces_literal hfirst (.inr rfl), List.cons_append,
      List.append_assoc, List.cons_append, pieces_placeholder hx, ih x.2 hlit hname hrest]
    rfl

/-- The texts and names that a list of pieces has. -/
def parts : List Piece → List Char × List (List Char × List Char)
  | [] => ([], [])
  | .literal c :: ps => (c :: (parts ps).1, (parts ps).2)
  | .placeholder name :: ps => ([], (name, (parts ps).1) :: (parts ps).2)

theorem parts_literal (cs : List Char) (ps : List Piece) :
    parts (cs.map .literal ++ ps) = (cs ++ (parts ps).1, (parts ps).2) := by
  induction cs with
  | nil => rfl
  | cons c cs ih => rw [List.map_cons, List.cons_append, parts, ih]; rfl

/-- A cut can be read off its pieces. -/
theorem parts_pieces (cut : Cut) : parts cut.pieces = (cut.first, cut.rest) := by
  have hrest (rest : List (List Char × List Char)) :
      parts (rest.flatMap fun x => .placeholder x.1 :: x.2.map .literal) = ([], rest) := by
    induction rest with
    | nil => rfl
    | cons x rest ih =>
      rw [List.flatMap_cons, List.cons_append, parts, parts_literal, ih, List.append_nil]
  rw [Cut.pieces, parts_literal, hrest, List.append_nil]

/-- A text is cut in one way only. -/
theorem eq_of_text_eq {cut other : Cut} (h : cut.text = other.text) : cut = other := by
  have hparts : (cut.first, cut.rest) = (other.first, other.rest) := by
    rw [← parts_pieces, ← parts_pieces, ← pieces_text, ← pieces_text, h]
  obtain ⟨first, rest, _, _, _⟩ := cut
  obtain ⟨rfl, rfl⟩ := Prod.mk.inj hparts
  rfl

/-- Every text can be cut. -/
theorem exists_text_eq (cs : List Char) : ∃ cut : Cut, cut.text = cs := by
  induction cs using Request.pieces.induct with
  | case1 => exact ⟨⟨[], [], isLiteral_nil, nofun, nofun⟩, rfl⟩
  | case2 rest name after htake _ ih =>
    obtain ⟨hname, rfl⟩ := eq_append_of_takeName htake
    obtain ⟨cut, rfl⟩ := ih
    refine ⟨⟨[], (name, cut.first) :: cut.rest, isLiteral_nil,
      List.forall_mem_cons.2 ⟨hname, cut.isName⟩,
      List.forall_mem_cons.2 ⟨cut.isLiteral_first, cut.isLiteral⟩⟩, ?_⟩
    simp [text]
  | case3 rest hnone ih =>
    obtain ⟨cut, rfl⟩ := ih
    have hfirst : IsLiteral ('{' :: cut.first) := by
      refine isLiteral_cons_iff.2 ⟨cut.isLiteral_first, fun name behind hname _ hsplit => ?_⟩
      rw [text, hsplit, List.append_assoc, List.cons_append, takeName_append hname] at hnone
      cases hnone
    exact ⟨⟨'{' :: cut.first, cut.rest, hfirst, cut.isName, cut.isLiteral⟩, rfl⟩
  | case4 c rest hne ih =>
    obtain ⟨cut, rfl⟩ := ih
    have hfirst : IsLiteral (c :: cut.first) :=
      isLiteral_cons_iff.2 ⟨cut.isLiteral_first, fun _ _ _ hc => absurd hc hne⟩
    exact ⟨⟨c :: cut.first, cut.rest, hfirst, cut.isName, cut.isLiteral⟩, rfl⟩

end Cut

/-! ### Filling a cut -/

/-- The name has no value. -/
def isUnbound (values : List (String × String)) (name : List Char) : Bool :=
  (Entries.get? values (String.ofList name)).isNone

/-- The text is the encoded value of the name: it can stand in a path, and is read as the value. -/
def Encodes (values : List (String × String)) (name text : List Char) : Prop :=
  ∃ value, Entries.get? values (String.ofList name) = some value ∧ Percent.IsEncoded text ∧
    Text.ofUtf8? (Percent.decode text) = some value.toList

theorem encodes_encodeAll (h : isUnbound values name = false) :
    Encodes values name (Percent.encodeAll (boundText values name)) := by
  obtain ⟨value, hvalue⟩ := Option.isSome_iff_exists.1 (Option.isNone_eq_false_iff.1 h)
  refine ⟨value, hvalue, Percent.isEncoded_encodeAll _, ?_⟩
  rw [Percent.encodeAll, Percent.decode_encode rfl, Text.ofUtf8?_utf8, boundText, hvalue]
  rfl

theorem fill_literal (cs : List Char) (ps : List Piece) :
    fill template values (cs.map .literal ++ ps) = (fill template values ps).map (cs ++ ·) := by
  induction cs with
  | nil => cases h : fill template values ps <;> simp [h, Except.map]
  | cons c cs ih =>
    rw [List.map_cons, List.cons_append, fill, ih]
    cases fill template values ps <;> rfl

theorem fill_unbound (h : isUnbound values name = true) (ps : List Piece) :
    fill template values (.placeholder name :: ps) =
      .error (.unboundPlaceholder (String.ofList name) template) := by
  rw [fill, Option.isNone_iff_eq_none.1 h]

theorem fill_bound (h : isUnbound values name = false) (ps : List Piece) :
    fill template values (.placeholder name :: ps) =
      (fill template values ps).map (Percent.encodeAll (boundText values name) ++ ·) := by
  obtain ⟨value, hvalue⟩ := Option.isSome_iff_exists.1 (Option.isNone_eq_false_iff.1 h)
  rw [fill, boundText, hvalue]
  rfl

/-- Placeholders with literal texts behind them: the first name without a value is a fault, else
each placeholder gets the encoded value of its name. -/
theorem fill_rest (rest : List (List Char × List Char)) :
    match (rest.map Prod.fst).find? (isUnbound values) with
    | some name => fill template values
          (rest.flatMap fun x => .placeholder x.1 :: x.2.map .literal) =
        .error (.unboundPlaceholder (String.ofList name) template)
    | none => ∃ texts, List.Forall₂ (Encodes values) (rest.map Prod.fst) texts ∧
        fill template values (rest.flatMap fun x => .placeholder x.1 :: x.2.map .literal) =
          .ok (List.zipWith (fun text x => text ++ x.2) texts rest).flatten := by
  induction rest with
  | nil => exact ⟨[], .nil, rfl⟩
  | cons x rest ih =>
    rw [List.map_cons, List.find?_cons, List.flatMap_cons, List.cons_append]
    cases hx : isUnbound values x.1 with
    | true => exact fill_unbound hx _
    | false =>
      dsimp only
      rw [fill_bound hx, fill_literal]
      cases hfind : (rest.map Prod.fst).find? (isUnbound values) with
      | some name =>
        rw [hfind] at ih
        dsimp only at ih ⊢
        rw [ih]
        rfl
      | none =>
        rw [hfind] at ih
        obtain ⟨texts, htexts, hfill⟩ := ih
        refine ⟨_ :: texts, .cons (encodes_encodeAll hx) htexts, ?_⟩
        rw [hfill, List.zipWith_cons_cons, List.flatten_cons, List.append_assoc]
        rfl

/-- Substitution cuts a template at its placeholders, in the one way in which it can be cut.  It
fails with the first name that has no value, if there is one; else it keeps the literal texts and
puts texts between them that consist of unreserved characters and escaped bytes and are read as the
values. -/
theorem substitute_cut (template : String) (values : List (String × String)) :
    ∃ cut : Cut, cut.text = template.toList ∧
      (∀ other : Cut, other.text = template.toList → other = cut) ∧
      match cut.names.find? (isUnbound values) with
      | some name => substitute template values =
          .error (.unboundPlaceholder (String.ofList name) template)
      | none => ∃ texts, List.Forall₂ (Encodes values) cut.names texts ∧
          substitute template values = .ok (String.ofList (cut.fillWith texts)) := by
  obtain ⟨cut, hcut⟩ := Cut.exists_text_eq template.toList
  refine ⟨cut, hcut, fun other hother => Cut.eq_of_text_eq (hother.trans hcut.symm), ?_⟩
  rw [substitute, ← hcut, cut.pieces_text, Cut.pieces, fill_literal, Cut.names]
  have hfill := @fill_rest template values cut.rest
  cases hfind : (cut.rest.map Prod.fst).find? (isUnbound values) with
  | some name =>
    rw [hfind] at hfill
    dsimp only at hfill ⊢
    rw [hfill]
    rfl
  | none =>
    rw [hfind] at hfill
    obtain ⟨texts, htexts, hfill⟩ := hfill
    exact ⟨texts, htexts, by rw [hfill]; rfl⟩

end ApiShell.Request
