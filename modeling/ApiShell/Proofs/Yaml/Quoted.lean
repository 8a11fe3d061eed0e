import ApiShell.Proofs.Json.Layout
import ApiShell.Proofs.Yaml.Cursor

/-!
# JSON strings as quoted scalars

A string of a JSON text is read as a double-quoted scalar, and mostly says the same there, since both
put the same codes together.  They differ in what they do with line breaks, of which a JSON string may
hold three as they are: the next line, the line separator and the paragraph separator.  In a quoted
scalar a next line becomes a space or goes away, the spaces around every break go away, and a mark that
begins or ends a document must not stand behind a break.

`foldUnits` gives the codes that are left, and `quotedScalar_pieces` says that reading gives these or
fails at a mark.  Spaces and next lines are counted: folding loses some of them, or it leaves the string
as it is (`foldUnits_cases`).  So the scalar says what the string says exactly where nothing is folded
(`foldedText_eq_iff`).
-/

namespace ApiShell.Yaml

open Json (Piece piecesText units)

/-! ### Folding -/

/-- The characters that folding is about and that can stand in a JSON string as they are: the space
and three line breaks. -/
def isFolding (c : Char) : Bool := c == ' ' || c == '\u0085' || c == '\u2028' || c == '\u2029'

/-- A break as it is kept. -/
def keptBreak (c : Char) : Char := if c == '\u2028' || c == '\u2029' then c else '\n'

/-- What is left of a run of spaces and line breaks. -/
def foldRun (run : List Char) : List ℕ :=
  match run.filter isBreak with
  | [] => run.map Char.toNat
  | b :: bs =>
    let first := if keptBreak b != '\n' then [keptBreak b] else if bs.isEmpty then [' '] else []
    (first ++ bs.map keptBreak).map Char.toNat

/-- The space or line break that stands in a string as it is. -/
def foldingChar? : Piece → Option Char
  | .plain c _ _ _ => if isFolding c then some c else none
  | _ => none

/-- The codes that are left of a string; `run` holds the spaces and line breaks just before. -/
def foldUnits (run : List Char) : List Piece → List ℕ
  | [] => foldRun run
  | p :: ps =>
    match foldingChar? p with
    | some c => foldUnits (run ++ [c]) ps
    | none => foldRun run ++ p.unit :: foldUnits [] ps

/-- Behind a line break stands a mark that begins or ends a document. -/
def hasMark : List Char → Bool
  | [] => false
  | c :: cs => (isBreak c && (Cursor.start cs).atSeparator) || hasMark cs

/-- The scalar that a string is read as. -/
def foldedText (ps : List Piece) : String := String.ofList (charsOfCodes (foldUnits [] ps))

section

variable {c : Char} {p : Piece} {ps : List Piece} {run tail : List Char}

@[simp] theorem foldRun_nil : foldRun [] = [] := rfl

theorem exists_of_foldingChar? (h : foldingChar? p = some c) :
    p.text = [c] ∧ p.unit = c.toNat ∧ isFolding c = true := by
  cases p with
  | plain d =>
    obtain ⟨hfolding, heq⟩ := Option.ite_none_right_eq_some.1 h
    obtain rfl := Option.some.inj heq
    exact ⟨rfl, rfl, hfolding⟩
  | short => cases h
  | code => cases h

/-- Every string begins with a run of spaces and line breaks, which may be empty. -/
theorem exists_run (ps : List Piece) : ∃ (run : List Char) (qs : List Piece),
    (∀ c ∈ run, isFolding c = true) ∧ piecesText ps = run ++ piecesText qs ∧
      units ps = run.map Char.toNat ++ units qs ∧ (∀ q ∈ qs.head?, foldingChar? q = none) ∧
      ps.length = run.length + qs.length ∧
      ∀ before, foldUnits before ps = foldUnits (before ++ run) qs := by
  induction ps with
  | nil => exact ⟨[], [], by simp, rfl, rfl, by simp, rfl, fun before => by rw [List.append_nil]⟩
  | cons p ps ih =>
    cases hp : foldingChar? p with
    | none =>
      refine ⟨[], p :: ps, by simp, rfl, rfl, ?_, by simp, fun before => by rw [List.append_nil]⟩
      rintro q ⟨⟩
      exact hp
    | some c =>
      obtain ⟨htext, hunit, hc⟩ := exists_of_foldingChar? hp
      obtain ⟨run, qs, hrun, hps, hunits, hqs, hlength, hfold⟩ := ih
      refine ⟨c :: run, qs, List.forall_mem_cons.2 ⟨hc, hrun⟩, ?_, ?_, hqs, ?_, fun before => ?_⟩
      · rw [Json.piecesText_cons, htext, hps]
        rfl
      · rw [Json.units_cons, hunit, hunits]
        rfl
      · rw [List.length_cons, List.length_cons, hlength]
        omega
      · rw [foldUnits, hp]
        dsimp only
        rw [hfold, List.append_assoc, List.singleton_append]

/-- A run ends where neither a space nor a break follows. -/
theorem foldUnits_of_head? (h : ∀ p ∈ ps.head?, foldingChar? p = none) (run : List Char) :
    foldUnits run ps = foldRun run ++ foldUnits [] ps := by
  cases ps with
  | nil => simp [foldUnits]
  | cons p ps => simp [foldUnits, h p rfl]

theorem isFolding_ne_mark (h : isFolding c = true) : c ≠ '-' ∧ c ≠ '.' := by
  constructor <;> rintro rfl <;> exact absurd h (by decide)

/-- No mark stands in front of a space or a break. -/
theorem atSeparator_of_isFolding {c : Cursor} {ch : Char} {cs : List Char} (hrest : c.rest = ch :: cs)
    (h : isFolding ch = true) : c.atSeparator = false := by
  obtain ⟨hdash, hdot⟩ := isFolding_ne_mark h
  simp [Cursor.atSeparator, Cursor.isDocumentMark, Cursor.peek, hrest, hdash, hdot]

/-- Behind a run of spaces and breaks a mark stands only if the run ends with a break. -/
theorem hasMark_append (hrun : ∀ c ∈ run, isFolding c = true) (tail : List Char) :
    hasMark (run ++ tail) =
      ((run.getLast?.any isBreak && (Cursor.start tail).atSeparator) || hasMark tail) := by
  induction run with
  | nil => rfl
  | cons c run ih =>
    rw [List.cons_append, hasMark, ih fun d hd => hrun d (List.mem_cons_of_mem c hd)]
    cases run with
    | nil => simp
    | cons d run =>
      have hfolding := hrun d (by simp)
      have hnone : (Cursor.start (d :: run ++ tail)).atSeparator = false :=
        atSeparator_of_isFolding rfl hfolding
      rw [hnone, Bool.and_false, Bool.false_or, List.getLast?_cons_cons]

/-! ### Reading -/

/-- A line break that can stand in a JSON string as it is. -/
structure IsBareBreak (b : Char) : Prop where
  isBreak : isBreak b = true
  ne_space : b ≠ ' '
  ne_return : b ≠ '\r'
  ne_tab : b ≠ '\t'

theorem isFolding_cases (h : isFolding c = true) : c = ' ' ∨ IsBareBreak c := by
  simp only [isFolding, Bool.or_eq_true, beq_iff_eq] at h
  rcases h with ((rfl | rfl) | rfl) | rfl
  · exact .inl rfl
  · exact .inr ⟨rfl, by decide, by decide, by decide⟩
  · exact .inr ⟨rfl, by decide, by decide, by decide⟩
  · exact .inr ⟨rfl, by decide, by decide, by decide⟩

theorem lineBreak?_eq {c : Cursor} {b : Char} {cs : List Char} (hrest : c.rest = b :: cs)
    (hb : IsBareBreak b) : c.lineBreak? = some (keptBreak b, c.next) := by
  unfold Cursor.lineBreak? keptBreak
  rw [hrest]
  split
  · next heq => exact absurd (List.cons.inj heq).1 hb.ne_return
  · next heq =>
    obtain ⟨rfl, rfl⟩ := List.cons.inj heq
    rw [hb.isBreak, Bool.not_true, if_neg Bool.false_ne_true]
    split_ifs <;> rfl
  · next heq => cases heq

/-- A run begins with spaces, and then it ends or goes on with a break. -/
theorem exists_spaces (hrun : ∀ c ∈ run, isFolding c = true) :
    ∃ n breaks, run = List.replicate n ' ' ++ breaks ∧ ∀ b ∈ breaks.head?, IsBareBreak b := by
  induction run with
  | nil => exact ⟨0, [], rfl, nofun⟩
  | cons c run ih =>
    rcases isFolding_cases (hrun c List.mem_cons_self) with rfl | hc
    · obtain ⟨n, breaks, rfl, hbreaks⟩ := ih fun d hd => hrun d (List.mem_cons_of_mem _ hd)
      exact ⟨n + 1, breaks, rfl, hbreaks⟩
    · refine ⟨0, c :: run, rfl, ?_⟩
      rintro b ⟨⟩
      exact hc

/-- What stands behind a run: something that is no blank and no break. -/
def EndsRun (tail : List Char) : Prop :=
  ∀ c ∈ tail.head?, c ≠ ' ' ∧ c ≠ '\t' ∧ isBreak c = false

/-- The spaces in front of a run's end are taken. -/
theorem takeWhile_spaces {c : Cursor} {n : ℕ} (hrest : c.rest = List.replicate n ' ' ++ tail)
    (htail : EndsRun tail) :
    (c.takeWhile fun ch => ch == ' ' || ch == '\t') = (List.replicate n ' ', c.advance n) := by
  have htaken := Cursor.takeWhile_eq (p := fun ch => ch == ' ' || ch == '\t') hrest
    (fun a ha => by simp [List.eq_of_mem_replicate ha]) fun a ha => by
      obtain ⟨hspace, htab, -⟩ := htail a ha
      simp [hspace, htab]
  rwa [List.length_replicate] at htaken

/-- The spaces in front of a break are taken. -/
theorem takeWhile_spaces_break {c : Cursor} {n : ℕ} {b : Char} {more : List Char}
    (hrest : c.rest = List.replicate n ' ' ++ b :: more) (hb : IsBareBreak b) :
    (c.takeWhile fun ch => ch == ' ' || ch == '\t') = (List.replicate n ' ', c.advance n) := by
  have htaken := Cursor.takeWhile_eq (p := fun ch => ch == ' ' || ch == '\t') hrest
    (fun a ha => by simp [List.eq_of_mem_replicate ha]) fun a ha => by
      obtain rfl := Option.some.inj ha
      simp [hb.ne_space, hb.ne_tab]
  rwa [List.length_replicate] at htaken

theorem rest_advance_spaces {c : Cursor} {n : ℕ} (hrest : c.rest = List.replicate n ' ' ++ tail) :
    (c.advance n).rest = tail := by
  have hafter := Cursor.rest_advance hrest
  rwa [List.length_replicate] at hafter

/-- Behind the spaces of a run that ends there is no break. -/
theorem lineBreak?_spaces {c : Cursor} {n : ℕ} (hrest : c.rest = List.replicate n ' ' ++ tail)
    (htail : EndsRun tail) : (c.advance n).lineBreak? = none :=
  Cursor.lineBreak?_eq_none fun a ha => (htail a (by rwa [rest_advance_spaces hrest] at ha)).2.2

theorem filter_spaces (n : ℕ) : (List.replicate n ' ').filter isBreak = [] := by
  rw [List.filter_replicate]
  rfl

theorem filter_spaces_break {b : Char} (hb : isBreak b = true) (n : ℕ) (more : List Char) :
    (List.replicate n ' ' ++ b :: more).filter isBreak = b :: more.filter isBreak := by
  rw [List.filter_append, filter_spaces, List.nil_append, List.filter_cons_of_pos hb]

/-- Behind a break, a run ends with a break if what follows in it does. -/
theorem all_getLast?_append_cons {b : Char} (hb : isBreak b = true) (spaces more : List Char) :
    (spaces ++ b :: more).getLast?.all isBreak = more.getLast?.all isBreak := by
  rw [List.getLast?_append_of_ne_nil _ (List.cons_ne_nil b more)]
  cases more with
  | nil => simp [hb]
  | cons d more => rw [List.getLast?_cons_cons]

/-- A run of spaces in which no mark stands has no break. -/
theorem quotedBreaks_spaces {c : Cursor} {n : ℕ} (htail : EndsRun tail)
    (hrest : c.rest = List.replicate n ' ' ++ tail) (hnot : c.atSeparator = false) (fuel : ℕ) :
    quotedBreaks (fuel + 1) c = .ok ([], c.advance n) := by
  rw [quotedBreaks, hnot, Cursor.skipWhile, takeWhile_spaces hrest htail]
  dsimp only
  rw [lineBreak?_spaces hrest htail]
  rfl

/-- A break behind spaces is kept. -/
theorem quotedBreaks_break {c : Cursor} {n : ℕ} {b : Char} {more : List Char}
    (hrest : c.rest = List.replicate n ' ' ++ b :: more) (hb : IsBareBreak b)
    (hnot : c.atSeparator = false) (fuel : ℕ) :
    quotedBreaks (fuel + 1) c =
      (quotedBreaks fuel (c.advance n).next).map fun r => (keptBreak b :: r.1, r.2) := by
  rw [quotedBreaks, hnot, Cursor.skipWhile, takeWhile_spaces_break hrest hb]
  dsimp only
  rw [lineBreak?_eq (rest_advance_spaces hrest) hb]
  exact (map_eq_pure_bind _ (quotedBreaks fuel (c.advance n).next)).symm

/-- The breaks behind the first one of a run are kept, unless a mark stands behind one of them. -/
theorem quotedBreaks_eq {tail : List Char} (htail : EndsRun tail) (fuel : ℕ) {run : List Char}
    {c : Cursor} (hrest : c.rest = run ++ tail) (hrun : ∀ ch ∈ run, isFolding ch = true)
    (hfuel : run.length < fuel) :
    quotedBreaks fuel c =
      if (run.getLast?.all isBreak && (Cursor.start tail).atSeparator) = true then badToken
      else .ok ((run.filter isBreak).map keptBreak, c.advance run.length) := by
  induction fuel generalizing run c with
  | zero => exact absurd hfuel (Nat.not_lt_zero _)
  | succ fuel ih =>
    cases run with
    | nil =>
      rw [List.nil_append] at hrest
      have hsame : c.atSeparator = (Cursor.start tail).atSeparator := by
        simp only [Cursor.atSeparator, Cursor.isDocumentMark, Cursor.peek, hrest, Cursor.start]
      rw [← hsame]
      cases hmark : c.atSeparator with
      | true => rw [quotedBreaks, hmark]; rfl
      | false => exact @quotedBreaks_spaces _ c 0 htail hrest hmark fuel
    | cons ch run =>
      have hnot := atSeparator_of_isFolding hrest (hrun ch List.mem_cons_self)
      obtain ⟨n, breaks, hspaces, hbreaks⟩ := exists_spaces hrun
      rw [hspaces] at hrest hrun hfuel ⊢
      cases breaks with
      | nil =>
        have hpos : n ≠ 0 := by
          rintro rfl
          cases hspaces
        rw [List.append_nil] at hrest ⊢
        have hlast : (List.replicate n ' ').getLast?.all isBreak = false := by
          rw [List.getLast?_replicate, if_neg hpos]
          rfl
        rw [quotedBreaks_spaces htail hrest hnot, hlast, filter_spaces, List.length_replicate]
        rfl
      | cons b more =>
        have hb := hbreaks b rfl
        rw [List.append_assoc, List.cons_append] at hrest
        have hmore := @ih more (c.advance n).next (Cursor.rest_next (rest_advance_spaces hrest))
          (fun d hd => hrun d (by simp [hd])) (by simp at hfuel; omega)
        rw [quotedBreaks_break hrest hb hnot, hmore, all_getLast?_append_cons hb.isBreak,
          filter_spaces_break hb.isBreak, List.length_append, List.length_replicate,
          List.length_cons, Cursor.advance_add, Cursor.advance]
        split <;> rfl

/-! ### Reading pieces -/

theorem isBreak_eq_false (hlow : 32 ≤ c.toNat) (h : isFolding c = false) : isBreak c = false := by
  rw [Bool.eq_false_iff]
  intro hbreak
  simp only [isBreak, Bool.or_eq_true, beq_iff_eq] at hbreak
  rcases hbreak with (((rfl | rfl) | rfl) | rfl) | rfl
  · exact absurd hlow (by decide)
  · exact absurd hlow (by decide)
  · cases h
  · cases h
  · cases h

/-- A piece that is neither a space nor a break is written without them. -/
theorem forall_mem_text (h : foldingChar? p = none) :
    ∀ d ∈ p.text, d ≠ ' ' ∧ d ≠ '\t' ∧ isBreak d = false := by
  have hhex (d : Json.HexDigit) : d.1 ≠ ' ' ∧ d.1 ≠ '\t' ∧ isBreak d.1 = false := by
    obtain ⟨d, hd⟩ := d
    refine ⟨?_, ?_, Bool.eq_false_iff.2 fun hbreak => ?_⟩
    · rintro rfl
      cases hd
    · rintro rfl
      cases hd
    · simp only [isBreak, Bool.or_eq_true, beq_iff_eq] at hbreak
      rcases hbreak with (((rfl | rfl) | rfl) | rfl) | rfl <;> cases hd
  cases p with
  | plain d hlow =>
    have hnot : isFolding d = false := by
      by_contra hfolding
      rw [Bool.not_eq_false] at hfolding
      rw [foldingChar?, if_pos hfolding] at h
      cases h
    rw [Piece.text]
    refine List.forall_mem_singleton.2 ⟨?_, ?_, isBreak_eq_false hlow hnot⟩
    · rintro rfl
      cases hnot
    · rintro rfl
      exact absurd hlow (by decide)
  | short letter char hletter =>
    rw [Piece.text]
    refine List.forall_mem_cons.2 ⟨by decide, List.forall_mem_singleton.2 ⟨?_, ?_, ?_⟩⟩
    · rintro rfl
      cases hletter
    · rintro rfl
      cases hletter
    · rw [Bool.eq_false_iff]
      intro hbreak
      simp only [isBreak, Bool.or_eq_true, beq_iff_eq] at hbreak
      rcases hbreak with (((rfl | rfl) | rfl) | rfl) | rfl <;> cases hletter
  | code a b c d =>
    rw [Piece.text]
    simp only [List.forall_mem_cons]
    exact ⟨by decide, by decide, hhex a, hhex b, hhex c, hhex d, by simp⟩

theorem endsRun_piecesText (h : ∀ p ∈ ps.head?, foldingChar? p = none) (rest : List Char) :
    EndsRun (piecesText ps ++ '"' :: rest) := by
  intro d hd
  cases ps with
  | nil =>
    obtain rfl := Option.some.inj hd
    decide
  | cons p ps =>
    obtain ⟨e, es, htext⟩ := List.exists_cons_of_length_pos p.length_text_pos
    rw [Json.piecesText_cons, htext] at hd
    obtain rfl := Option.some.inj hd
    exact forall_mem_text (h p rfl) _ (by rw [htext]; exact List.mem_cons_self)

/-- No mark reaches beyond the closing quote. -/
theorem atSeparator_quote (cs rest : List Char) :
    (Cursor.start (cs ++ '"' :: rest)).atSeparator = (Cursor.start (cs ++ ['"'])).atSeparator := by
  unfold Cursor.atSeparator Cursor.isDocumentMark Cursor.peek Cursor.start
  match cs with
  | [] => simp
  | [_] => simp
  | [_, _] => simp
  | [_, _, _] => rfl
  | _ :: _ :: _ :: _ :: _ => rfl

theorem hasMark_text (h : ∀ d ∈ run, isBreak d = false) (tail : List Char) :
    hasMark (run ++ tail) = hasMark tail := by
  induction run with
  | nil => rfl
  | cons d run ih =>
    obtain ⟨hd, hrun⟩ := List.forall_mem_cons.1 h
    rw [List.cons_append, hasMark, hd, Bool.false_and, Bool.false_or, ih hrun]

theorem escapeCode?_of_shortEscape? {letter char : Char} (h : Json.shortEscape? letter = some char) :
    escapeCode? letter = some char.toNat := by
  unfold Json.shortEscape? at h
  split at h
  all_goals first
    | (obtain rfl := Option.some.inj h; rfl)
    | cases h

theorem value_lt (d : Json.HexDigit) : d.value < 16 := by
  have hvalue := d.hexValue?_eq
  unfold Json.hexValue? at hvalue
  have hle (a b : Char) : a ≤ b ↔ a.toNat ≤ b.toNat := Iff.rfl
  split_ifs at hvalue with h h h <;>
    · simp only [Bool.and_eq_true, decide_eq_true_eq, hle] at h
      have hvalue := Option.some.inj hvalue
      have h0 : '0'.toNat = 48 := rfl
      have h9 : '9'.toNat = 57 := rfl
      have ha : 'a'.toNat = 97 := rfl
      have hf : 'f'.toNat = 102 := rfl
      have hA : 'A'.toNat = 65 := rfl
      have hF : 'F'.toNat = 70 := rfl
      omega

/-- An escape is read as its code. -/
theorem escapeSequence_eq {c : Cursor} {cs : List Char} (hp : p.text = '\\' :: run)
    (hrest : c.rest = run ++ cs) : escapeSequence c = .ok ([p.unit], c.advance run.length) := by
  cases p with
  | plain d _ _ hslash => exact absurd (List.cons.inj hp).1 hslash
  | short letter char hletter =>
    obtain rfl := (List.cons.inj hp).2
    unfold escapeSequence
    rw [Cursor.head_eq hrest, escapeCode?_of_shortEscape? hletter]
    rfl
  | code x y z w =>
    obtain rfl := (List.cons.inj hp).2
    have hdigits : (c.next.rest.take 4).filterMap Json.hexValue? =
        [x.value, y.value, z.value, w.value] := by
      rw [Cursor.rest_next hrest]
      simp [Json.HexDigit.hexValue?_eq]
    have hx := value_lt x
    have hy := value_lt y
    have hz := value_lt z
    have hw := value_lt w
    have hcode : [x.value, y.value, z.value, w.value].foldl (fun n d => n * 16 + d) 0 =
        (Piece.code x y z w).unit := by
      simp only [List.foldl_cons, List.foldl_nil, Piece.unit, Nat.zero_mul, Nat.zero_add]
    have hsmall : (Piece.code x y z w).unit < 65536 := by
      rw [Piece.unit]
      omega
    unfold escapeSequence
    rw [Cursor.head_eq hrest, show escapeCode? 'u' = none from rfl,
      show escapeWidth? 'u' = some 4 from rfl]
    dsimp only
    rw [hdigits, if_neg (by simp), hcode, if_neg (by omega), if_neg (by omega)]
    rfl

/-- What `quotedCodes` gives for codes in front of what it gives for the rest. -/
def addCodes (codes : List ℕ) (result : Except Trouble (List ℕ × Cursor)) :
    Except Trouble (List ℕ × Cursor) :=
  result.map fun r => (codes ++ r.1, r.2)

section

variable {fuel : ℕ} {c : Cursor} {ch : Char} {cs : List Char}

theorem quotedCodes_char (hrest : c.rest = ch :: cs) (hblank : ch ≠ ' ' ∧ ch ≠ '\t' ∧ isBreak ch = false)
    (hquote : ch ≠ '"') (hslash : ch ≠ '\\') :
    quotedCodes true (fuel + 1) c = addCodes [ch.toNat] (quotedCodes true fuel c.next) := by
  rw [quotedCodes]
  dsimp only
  rw [Cursor.head_eq hrest, hrest, if_neg (by simp),
    if_neg (by simp [hblank.1, hblank.2.1, hblank.2.2]), if_pos rfl, if_neg (by simpa using hquote),
    if_neg (by simpa using hslash)]
  cases quotedCodes true fuel c.next <;> rfl

theorem quotedCodes_escape {codes : List ℕ} {after : Cursor} (hrest : c.rest = '\\' :: cs)
    (hescape : escapeSequence c.next = .ok (codes, after)) :
    quotedCodes true (fuel + 1) c = addCodes codes (quotedCodes true fuel after) := by
  rw [quotedCodes]
  dsimp only
  rw [Cursor.head_eq hrest, hrest, if_neg (by simp), if_neg (by decide), if_pos rfl,
    if_neg (by decide), if_pos (by decide), hescape]
  show (quotedCodes true fuel after >>= _) = _
  cases quotedCodes true fuel after <;> rfl

theorem quotedCodes_quote (hrest : c.rest = '"' :: cs) :
    quotedCodes true (fuel + 1) c = .ok ([], c.next) := by
  rw [quotedCodes]
  dsimp only
  rw [Cursor.head_eq hrest, hrest, if_neg (by simp), if_neg (by decide), if_pos rfl,
    if_pos (by decide)]
  rfl

/-- A piece that is neither a space nor a break stands for its code. -/
theorem quotedCodes_piece (hrest : c.rest = p.text ++ cs) (h : foldingChar? p = none) :
    quotedCodes true (fuel + 1) c =
      addCodes [p.unit] (quotedCodes true fuel (c.advance p.text.length)) := by
  cases p with
  | plain ch hlow hquote hslash =>
    exact quotedCodes_char hrest (forall_mem_text h ch List.mem_cons_self) hquote hslash
  | short letter char hletter =>
    exact quotedCodes_escape hrest (escapeSequence_eq rfl (Cursor.rest_next hrest))
  | code x y z w => exact quotedCodes_escape hrest (escapeSequence_eq rfl (Cursor.rest_next hrest))

theorem any_getLast?_eq_all {p : Char → Bool} (hne : run ≠ []) :
    run.getLast?.any p = run.getLast?.all p := by
  rw [List.getLast?_eq_getLast_of_ne_nil hne]
  rfl

theorem head_isBlank (hrun : ∀ ch ∈ run, isFolding ch = true) (hne : run ≠ [])
    {tail : List Char} (hrest : c.rest = run ++ tail) :
    (c.head == ' ' || c.head == '\t' || isBreak c.head) = true := by
  obtain ⟨ch, more, rfl⟩ := List.exists_cons_of_ne_nil hne
  rw [Cursor.head_eq hrest]
  rcases isFolding_cases (hrun ch List.mem_cons_self) with rfl | hb
  · rfl
  · rw [hb.isBreak, Bool.or_true]

/-- A run of spaces stands for itself. -/
theorem quotedCodes_spaces {tail : List Char} {n : ℕ} (htail : EndsRun tail) (hsome : tail ≠ [])
    (hhead : (c.head == ' ' || c.head == '\t' || isBreak c.head) = true)
    (hrest : c.rest = List.replicate n ' ' ++ tail) :
    quotedCodes true (fuel + 1) c =
      addCodes (foldRun (List.replicate n ' ')) (quotedCodes true fuel (c.advance n)) := by
  have hempty : c.rest.isEmpty = false := by
    rw [hrest]
    simp [hsome]
  have hempty' : (c.advance n).rest.isEmpty = false := by
    rw [rest_advance_spaces hrest]
    simp [hsome]
  rw [quotedCodes]
  dsimp only
  rw [hempty, hhead, if_neg Bool.false_ne_true, if_pos rfl, takeWhile_spaces hrest htail]
  dsimp only
  rw [lineBreak?_spaces hrest htail]
  dsimp only
  rw [hempty', if_neg Bool.false_ne_true, foldRun, filter_spaces]
  exact (map_eq_pure_bind _ (quotedCodes true fuel (c.advance n))).symm

/-- A run with a break is folded, unless a mark stands behind one of its breaks. -/
theorem quotedCodes_break {tail more : List Char} {n : ℕ} {b : Char} (htail : EndsRun tail)
    (hb : IsBareBreak b) (hmore : ∀ ch ∈ more, isFolding ch = true)
    (hhead : (c.head == ' ' || c.head == '\t' || isBreak c.head) = true)
    (hrest : c.rest = List.replicate n ' ' ++ b :: (more ++ tail)) :
    quotedCodes true (fuel + 1) c =
      if (more.getLast?.all isBreak && (Cursor.start tail).atSeparator) = true then badToken
      else addCodes (foldRun (List.replicate n ' ' ++ b :: more))
        (quotedCodes true fuel ((c.advance n).next.advance more.length)) := by
  have hempty : c.rest.isEmpty = false := by
    rw [hrest]
    simp
  have hbehind := Cursor.rest_next (rest_advance_spaces hrest)
  have hbreaks := quotedBreaks_eq htail (c.advance n).next.rest.length.succ hbehind hmore
    (by rw [hbehind, List.length_append]; omega)
  rw [quotedCodes]
  dsimp only
  rw [hempty, hhead, if_neg Bool.false_ne_true, if_pos rfl, takeWhile_spaces_break hrest hb]
  dsimp only
  rw [lineBreak?_eq (rest_advance_spaces hrest) hb, foldRun, filter_spaces_break hb.isBreak]
  dsimp only
  rw [hbreaks]
  split
  · rfl
  · rw [← List.isEmpty_map (f := keptBreak)]
    exact (map_eq_pure_bind _ (quotedCodes true fuel ((c.advance n).next.advance more.length))).symm

/-- A run of spaces and breaks is folded, unless a mark stands behind one of its breaks. -/
theorem quotedCodes_run {tail : List Char} (htail : EndsRun tail) (hsome : tail ≠ [])
    (hrun : ∀ ch ∈ run, isFolding ch = true) (hne : run ≠ []) (hrest : c.rest = run ++ tail) :
    quotedCodes true (fuel + 1) c =
      if (run.getLast?.any isBreak && (Cursor.start tail).atSeparator) = true then badToken
      else addCodes (foldRun run) (quotedCodes true fuel (c.advance run.length)) := by
  have hhead := head_isBlank hrun hne hrest
  obtain ⟨n, breaks, rfl, hbreaks⟩ := exists_spaces hrun
  cases breaks with
  | nil =>
    rw [List.append_nil] at hrest ⊢
    have hlast : (List.replicate n ' ').getLast?.any isBreak = false := by
      rw [List.getLast?_replicate]
      split <;> rfl
    rw [quotedCodes_spaces htail hsome hhead hrest, hlast, List.length_replicate]
    rfl
  | cons b more =>
    have hb := hbreaks b rfl
    rw [List.append_assoc, List.cons_append] at hrest
    rw [quotedCodes_break htail hb (fun d hd => hrun d (by simp [hd])) hhead hrest,
      any_getLast?_eq_all hne, all_getLast?_append_cons hb.isBreak, List.length_append,
      List.length_replicate, List.length_cons, Cursor.advance_add, Cursor.advance]

/-- The pieces of a string are read up to the closing quote, unless a mark stands behind a break. -/
theorem quotedCodes_pieces (fuel : ℕ) {ps : List Piece} {rest : List Char} {c : Cursor}
    (hrest : c.rest = piecesText ps ++ '"' :: rest) (hfuel : ps.length < fuel) :
    quotedCodes true fuel c =
      if hasMark (piecesText ps ++ ['"']) = true then badToken
      else .ok (foldUnits [] ps, c.advance ((piecesText ps).length + 1)) := by
  induction fuel generalizing ps c with
  | zero => exact absurd hfuel (Nat.not_lt_zero _)
  | succ fuel ih =>
    obtain ⟨run, qs, hrun, htext, -, hqs, hlength, hfold⟩ := exists_run ps
    rw [htext, List.append_assoc] at hrest
    rw [htext, hfold, List.nil_append, foldUnits_of_head? hqs, List.append_assoc, hasMark_append hrun,
      List.length_append]
    by_cases hne : run = []
    · subst hne
      rw [List.nil_append] at hrest
      rw [foldRun_nil, List.nil_append, List.length_nil, Nat.zero_add]
      simp only [List.getLast?_nil, Option.any_none, Bool.false_and, Bool.false_or]
      cases qs with
      | nil => exact quotedCodes_quote hrest
      | cons q qs =>
        have hq := forall_mem_text (hqs q rfl)
        have hmark : hasMark (piecesText (q :: qs) ++ ['"']) = hasMark (piecesText qs ++ ['"']) := by
          rw [Json.piecesText_cons, List.append_assoc]
          exact hasMark_text (fun d hd => (hq d hd).2.2) _
        have hunits : foldUnits [] (q :: qs) = q.unit :: foldUnits [] qs := by
          rw [foldUnits, hqs q rfl]
          rfl
        rw [Json.piecesText_cons, List.append_assoc] at hrest
        rw [quotedCodes_piece hrest (hqs q rfl), ih (Cursor.rest_advance hrest) (by
          rw [hlength, List.length_nil, List.length_cons] at hfuel
          omega), hmark, hunits, Json.piecesText_cons, List.length_append, Nat.add_assoc,
          Cursor.advance_add c q.text.length]
        split <;> rfl
    · rw [quotedCodes_run (endsRun_piecesText hqs rest) (by simp) hrun hne hrest,
        atSeparator_quote (piecesText qs) rest, ih (Cursor.rest_advance hrest) ?_]
      · rw [← Cursor.advance_add, Nat.add_assoc]
        cases run.getLast?.any isBreak && (Cursor.start (piecesText qs ++ ['"'])).atSeparator with
        | true => rfl
        | false =>
          rw [if_neg Bool.false_ne_true, Bool.false_or]
          split <;> rfl
      · have hpos := List.length_pos_of_ne_nil hne
        omega

/-- A string is read as its folded text, unless a mark stands behind one of its breaks. -/
theorem quotedScalar_pieces {rest : List Char} (hrest : c.rest = '"' :: (piecesText ps ++ '"' :: rest)) :
    quotedScalar c =
      if hasMark (piecesText ps ++ ['"']) = true then badToken
      else .ok (.scalar false (foldedText ps), c.advance ((piecesText ps).length + 2)) := by
  have hinside := Cursor.rest_next hrest
  have hfuel : ps.length < c.rest.length.succ := by
    have hle := Json.length_le_piecesText ps
    rw [hrest, List.length_cons, List.length_append]
    omega
  rw [quotedScalar, Cursor.head_eq hrest, show (('"' : Char) == '"') = true from rfl,
    quotedCodes_pieces _ hinside hfuel]
  split <;> rfl

end

end

/-! ### What folding keeps -/

/-- Spaces and next lines, of which a folded next line leaves a space at most. -/
def burden (ns : List ℕ) : ℕ := 2 * ns.count 0x85 + ns.count 0x20

/-- Two characters that are no space and break. -/
def Apart (a b : Char) : Prop := ¬ (a = ' ' ∧ isBreak b = true) ∧ ¬ (isBreak a = true ∧ b = ' ')

/-- Nothing is folded: no next line, and no space beside a break. -/
structure IsUnfolded (cs : List Char) : Prop where
  nextLine : '\u0085' ∉ cs
  chain : cs.IsChain Apart

section

variable {run cs ds : List Char} {ps : List Piece}

theorem burden_append (ms ns : List ℕ) : burden (ms ++ ns) = burden ms + burden ns := by
  simp only [burden, List.count_append]
  omega

theorem burden_cons (n : ℕ) (ns : List ℕ) : burden (n :: ns) = burden [n] + burden ns :=
  burden_append [n] ns

theorem burden_of_ne {n : ℕ} (h : n ≠ 0x85 ∧ n ≠ 0x20) : burden [n] = 0 := by
  simp [burden, h.1, h.2]

theorem burden_codeChar (n : ℕ) : burden [(Json.codeChar n).toNat] = burden [n] := by
  unfold Json.codeChar
  split
  · next hhalf =>
    rw [burden_of_ne (n := n) (by constructor <;> rintro rfl <;> exact absurd hhalf (by decide))]
    rfl
  · by_cases hvalid : n.isValidChar
    · rw [Char.toNat_ofNat, if_pos hvalid]
    · rw [Char.toNat_ofNat, if_neg hvalid,
        burden_of_ne (n := n) (by constructor <;> rintro rfl <;> exact hvalid (by decide))]
      rfl

/-- Codes and their characters have the same spaces and next lines. -/
theorem burden_charsOfCodes (ns : List ℕ) : burden ((charsOfCodes ns).map Char.toNat) = burden ns := by
  induction ns using charsOfCodes.induct with
  | case1 => rfl
  | case2 n => exact burden_codeChar n
  | case3 m n ns hhalves ih =>
    have hranges := hhalves
    simp only [Json.isHighHalf, Json.isLowHalf, Bool.and_eq_true, decide_eq_true_eq] at hranges
    have hvalid : (0x10000 + (m - 0xD800) * 0x400 + (n - 0xDC00)).isValidChar := .inr (by omega)
    rw [charsOfCodes, if_pos hhalves, List.map_cons, burden_cons, burden_cons m, burden_cons n, ih,
      Char.toNat_ofNat, if_pos hvalid, burden_of_ne (n := m) (by omega),
      burden_of_ne (n := n) (by omega), burden_of_ne (by omega), Nat.zero_add, Nat.zero_add]
  | case4 m n ns hhalves ih =>
    rw [charsOfCodes, if_neg hhalves, List.map_cons, burden_cons, burden_codeChar, ih,
      ← burden_cons]

/-! #### Runs -/

theorem toNat_keptBreak (c : Char) : (keptBreak c).toNat ≠ 0x85 ∧ (keptBreak c).toNat ≠ 0x20 := by
  unfold keptBreak
  split
  · next h =>
    rw [Bool.or_eq_true, beq_iff_eq, beq_iff_eq] at h
    rcases h with rfl | rfl <;> decide
  · decide

theorem burden_keptBreaks (bs : List Char) : burden ((bs.map keptBreak).map Char.toNat) = 0 := by
  induction bs with
  | nil => rfl
  | cons b bs ih => rw [List.map_cons, List.map_cons, burden_cons, ih, burden_of_ne (toNat_keptBreak b)]

theorem burden_toNat (cs : List Char) :
    burden (cs.map Char.toNat) = 2 * cs.count '\u0085' + cs.count ' ' := by
  have hinj : Function.Injective Char.toNat := fun _ _ h => Char.toNat_inj.1 h
  rw [burden, ← List.count_map_of_injective cs _ hinj, ← List.count_map_of_injective cs _ hinj]
  rfl

/-- Only a next line is folded into a space. -/
theorem burden_foldRun_cons {b : Char} {bs : List Char} (h : run.filter isBreak = b :: bs) :
    burden (foldRun run) = if keptBreak b = '\n' ∧ bs = [] then 1 else 0 := by
  rw [foldRun, h]
  dsimp only
  rw [List.map_append, burden_append, burden_keptBreaks, Nat.add_zero]
  by_cases hkept : keptBreak b = '\n'
  · cases bs with
    | nil => simp [hkept, burden]
    | cons c bs => simp [hkept, burden]
  · rw [if_pos (by simpa using hkept), if_neg (by simp [hkept])]
    exact burden_of_ne (toNat_keptBreak b)

theorem isUnfolded_intro (hline : '\u0085' ∉ cs) (h : ' ' ∉ cs ∨ ∀ c ∈ cs, isBreak c = false) :
    IsUnfolded cs := by
  refine ⟨hline, List.Pairwise.isChain (List.pairwise_of_forall_mem_list fun a ha b hb => ?_)⟩
  rcases h with hspace | hbreak
  · exact ⟨fun h => hspace (h.1 ▸ ha), fun h => hspace (h.2 ▸ hb)⟩
  · refine ⟨fun h => ?_, fun h => ?_⟩
    · rw [hbreak b hb] at h
      exact Bool.false_ne_true h.2
    · rw [hbreak a ha] at h
      exact Bool.false_ne_true h.1

/-- Separators of lines and paragraphs are kept. -/
theorem foldRun_of_separators (h : ∀ c ∈ run, c = '\u2028' ∨ c = '\u2029') :
    foldRun run = run.map Char.toNat := by
  have hkept : ∀ c ∈ run, keptBreak c = c := by
    intro c hc
    rcases h c hc with rfl | rfl <;> rfl
  have hbreak : run.filter isBreak = run := by
    refine List.filter_eq_self.2 fun c hc => ?_
    rcases h c hc with rfl | rfl <;> rfl
  rw [foldRun, hbreak]
  cases run with
  | nil => rfl
  | cons b bs =>
    have hfirst : (keptBreak b != '\n') = true := by
      rw [hkept b List.mem_cons_self]
      rcases h b List.mem_cons_self with rfl | rfl <;> rfl
    have hrest : bs.map keptBreak = bs := by
      rw [List.map_congr_left fun c hc => hkept c (List.mem_cons_of_mem b hc), List.map_id']
    dsimp only
    rw [if_pos hfirst, hkept b List.mem_cons_self, hrest]
    rfl

theorem eq_separator (hc : isFolding c = true) (hspace : c ≠ ' ') (hline : c ≠ '\u0085') :
    c = '\u2028' ∨ c = '\u2029' := by
  simpa [isFolding, hspace, hline] using hc

/-- Folding loses something of a run, or it leaves the run as it is. -/
theorem foldRun_cases (hrun : ∀ c ∈ run, isFolding c = true) :
    burden (foldRun run) < burden (run.map Char.toNat) ∨
      foldRun run = run.map Char.toNat ∧ IsUnfolded run := by
  cases hbreaks : run.filter isBreak with
  | nil =>
    have hnone : ∀ c ∈ run, isBreak c = false := by
      intro c hc
      have hnot := List.filter_eq_nil_iff.1 hbreaks c hc
      exact Bool.eq_false_iff.2 hnot
    have hline : '\u0085' ∉ run := fun hmem => absurd (hnone _ hmem) (by decide)
    refine .inr ⟨?_, isUnfolded_intro hline (.inr hnone)⟩
    rw [foldRun, hbreaks]
  | cons b bs =>
    have hb : b ∈ run ∧ isBreak b = true := by
      rw [← List.mem_filter, hbreaks]
      exact List.mem_cons_self
    rw [burden_foldRun_cons hbreaks, burden_toNat]
    by_cases hline : '\u0085' ∈ run
    · have hcount := List.count_pos_iff.2 hline
      left
      split <;> omega
    by_cases hspace : ' ' ∈ run
    · have hcount := List.count_pos_iff.2 hspace
      have hkept : keptBreak b = b := by
        rcases eq_separator (hrun b hb.1) (by rintro rfl; cases hb.2)
          (ne_of_mem_of_not_mem hb.1 hline) with rfl | rfl <;> rfl
      left
      rw [if_neg (by rw [hkept]; rintro ⟨rfl, -⟩; exact absurd (hrun _ hb.1) (by decide))]
      omega
    · refine .inr ⟨foldRun_of_separators fun c hc => ?_, isUnfolded_intro hline (.inl hspace)⟩
      exact eq_separator (hrun c hc) (ne_of_mem_of_not_mem hc hspace) (ne_of_mem_of_not_mem hc hline)

/-- A run in which nothing is folded has breaks only or spaces only. -/
theorem forall_of_isChain (hrun : ∀ c ∈ run, isFolding c = true) (h : run.IsChain Apart) :
    (∀ c ∈ run, c ≠ ' ') ∨ ∀ c ∈ run, c = ' ' := by
  induction run with
  | nil => exact .inr (by simp)
  | cons c run ih =>
    cases run with
    | nil =>
      by_cases hc : c = ' '
      · exact .inr (by simpa using hc)
      · exact .inl (by simpa using hc)
    | cons d run =>
      obtain ⟨⟨hspace, hbreak⟩, htail⟩ := List.isChain_cons_cons.1 h
      have hd := isFolding_cases (hrun d (by simp))
      rcases ih (fun e he => hrun e (List.mem_cons_of_mem c he)) htail with hbreaks | hspaces
      · refine .inl (List.forall_mem_cons.2 ⟨?_, hbreaks⟩)
        rintro rfl
        rcases hd with rfl | ⟨hd, -⟩
        · exact hbreaks ' ' List.mem_cons_self rfl
        · exact hspace ⟨rfl, hd⟩
      · refine .inr (List.forall_mem_cons.2 ⟨?_, hspaces⟩)
        rcases isFolding_cases (hrun c List.mem_cons_self) with hc | ⟨hc, -⟩
        · exact hc
        · exact absurd ⟨hc, hspaces d List.mem_cons_self⟩ hbreak

theorem foldRun_of_isUnfolded (hrun : ∀ c ∈ run, isFolding c = true) (h : IsUnfolded run) :
    foldRun run = run.map Char.toNat := by
  rcases forall_of_isChain hrun h.chain with hspace | hspaces
  · exact foldRun_of_separators fun c hc =>
      eq_separator (hrun c hc) (hspace c hc) (ne_of_mem_of_not_mem hc h.nextLine)
  · have hbreaks : run.filter isBreak = [] := by
      refine List.filter_eq_nil_iff.2 fun c hc => ?_
      rw [hspaces c hc]
      decide
    rw [foldRun, hbreaks]

/-! #### Strings -/

/-- Around something that is no space and no break, what stands before and behind it folds apart. -/
theorem isUnfolded_append_iff {text : List Char} (hne : text ≠ [])
    (htext : ∀ d ∈ text, d ≠ ' ' ∧ d ≠ '\t' ∧ isBreak d = false) :
    IsUnfolded (cs ++ (text ++ ds)) ↔ IsUnfolded cs ∧ IsUnfolded ds := by
  have hline : '\u0085' ∉ text := fun hmem => absurd (htext _ hmem).2.2 (by decide)
  have hchain : text.IsChain Apart :=
    (isUnfolded_intro hline (.inr fun d hd => (htext d hd).2.2)).chain
  have hbefore (a d : Char) (hd : d ∈ text) : Apart a d := by
    refine ⟨fun h => ?_, fun h => (htext d hd).1 h.2⟩
    rw [(htext d hd).2.2] at h
    exact Bool.false_ne_true h.2
  have hbehind (d b : Char) (hd : d ∈ text) : Apart d b := by
    refine ⟨fun h => (htext d hd).1 h.1, fun h => ?_⟩
    rw [(htext d hd).2.2] at h
    exact Bool.false_ne_true h.1
  have hhead : ∀ d ∈ (text ++ ds).head?, d ∈ text := by
    intro d hd
    rw [List.head?_append_of_ne_nil _ hne] at hd
    exact List.mem_of_mem_head? hd
  constructor
  · rintro ⟨hnext, h⟩
    simp only [List.mem_append, not_or] at hnext
    obtain ⟨hcs, htail, -⟩ := List.isChain_append.1 h
    exact ⟨⟨hnext.1, hcs⟩, hnext.2.2, (List.isChain_append.1 htail).2.1⟩
  · rintro ⟨⟨hcs, hcsChain⟩, hds, hdsChain⟩
    refine ⟨by simp [hcs, hds, hline], List.isChain_append.2 ⟨hcsChain, ?_, ?_⟩⟩
    · exact List.isChain_append.2
        ⟨hchain, hdsChain, fun d hd b _ => hbehind d b (List.mem_of_mem_getLast? hd)⟩
    · exact fun a _ d hd => hbefore a d (hhead d hd)

/-- Folding loses something of a string, or it leaves the string as it is. -/
theorem foldUnits_cases (n : ℕ) {ps : List Piece} (hn : ps.length < n) :
    burden (foldUnits [] ps) < burden (units ps) ∨
      foldUnits [] ps = units ps ∧ IsUnfolded (piecesText ps) := by
  induction n generalizing ps with
  | zero => exact absurd hn (Nat.not_lt_zero _)
  | succ n ih =>
    obtain ⟨run, qs, hrun, htext, hunits, hqs, hlength, hfold⟩ := exists_run ps
    rw [htext, hunits, hfold, List.nil_append, foldUnits_of_head? hqs]
    have hcases := foldRun_cases hrun
    cases qs with
    | nil => simpa [foldUnits] using hcases
    | cons q qs =>
      have hq := forall_mem_text (hqs q rfl)
      have hne : q.text ≠ [] := List.ne_nil_of_length_pos q.length_text_pos
      have hfirst : foldUnits [] (q :: qs) = q.unit :: foldUnits [] qs := by
        rw [foldUnits, hqs q rfl]
        rfl
      have hrest := @ih qs (by rw [List.length_cons] at hlength; omega)
      rw [hfirst, Json.units_cons, Json.piecesText_cons, burden_append, burden_append, burden_cons,
        burden_cons q.unit (units qs), isUnfolded_append_iff hne hq]
      rcases hcases with hless | ⟨hsame, hunfolded⟩
      · rcases hrest with hless' | ⟨hsame', -⟩
        · left
          omega
        · left
          rw [hsame']
          omega
      · rcases hrest with hless' | ⟨hsame', hunfolded'⟩
        · left
          rw [hsame]
          omega
        · exact .inr ⟨by rw [hsame, hsame'], hunfolded, hunfolded'⟩

theorem foldUnits_of_isUnfolded (n : ℕ) {ps : List Piece} (hn : ps.length < n)
    (h : IsUnfolded (piecesText ps)) : foldUnits [] ps = units ps := by
  induction n generalizing ps with
  | zero => exact absurd hn (Nat.not_lt_zero _)
  | succ n ih =>
    obtain ⟨run, qs, hrun, htext, hunits, hqs, hlength, hfold⟩ := exists_run ps
    rw [hunits, hfold, List.nil_append, foldUnits_of_head? hqs]
    rw [htext] at h
    cases qs with
    | nil =>
      rw [Json.piecesText_nil, List.append_nil] at h
      rw [foldRun_of_isUnfolded hrun h]
      rfl
    | cons q qs =>
      have hne : q.text ≠ [] := List.ne_nil_of_length_pos q.length_text_pos
      obtain ⟨hrunText, hrest⟩ := (isUnfolded_append_iff hne (forall_mem_text (hqs q rfl))).1 h
      have hsame := @ih qs (by rw [List.length_cons] at hlength; omega) hrest
      rw [foldRun_of_isUnfolded hrun hrunText, foldUnits, hqs q rfl]
      dsimp only
      rw [foldRun_nil, List.nil_append, hsame, Json.units_cons]

/-- The scalar says what the string says exactly where nothing is folded. -/
theorem foldedText_eq_iff (ps : List Piece) :
    foldedText ps = Json.stringOf ps ↔ IsUnfolded (piecesText ps) := by
  constructor
  · intro h
    rcases foldUnits_cases _ (Nat.lt_succ_self ps.length) with hless | ⟨-, hunfolded⟩
    · have hchars : charsOfCodes (foldUnits [] ps) = charsOfCodes (units ps) := String.ofList_inj.1 h
      rw [← burden_charsOfCodes, hchars, burden_charsOfCodes] at hless
      exact absurd hless (Nat.lt_irrefl _)
    · exact hunfolded
  · intro h
    rw [foldedText, foldUnits_of_isUnfolded _ (Nat.lt_succ_self ps.length) h]
    rfl

end

end ApiShell.Yaml
