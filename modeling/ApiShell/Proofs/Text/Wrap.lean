import ApiShell.Proofs.Text.Blank
import ApiShell.Proofs.Text.Split
import ApiShell.Text.Wrap
import Mathlib

/-!
# What wrapping keeps of a text

The words of a text, joined, are the text, and so are the lines that are filled with them
(`flatten_spacedWords`, `flatten_fillLines`).  What is cut off from a line is lost, and nothing comes in
but spaces and the mark of an ellipsis.  A text of printable characters that fits into one line stays as
it is (`wrap_of_length_le`).
-/

namespace ApiShell.Text

variable {width : ℕ} {line cs : List Char} {words : List (List Char)}

/-! ### Words and lines -/

/-- Put a character before words: before the first one, or as a word of its own before a blank. -/
def putBefore (c : Char) (s : List (List Char) × List Char) : List (List Char) × List Char :=
  if isBlank c then
    match s.2 with
    | d :: _ => if isBlank d then (s.1, c :: s.2) else (s.2 :: s.1, [c])
    | [] => (s.1, [c])
  else (s.1, c :: s.2)

theorem flatten_putBefore (c : Char) (s : List (List Char) × List Char) :
    ((putBefore c s).2 :: (putBefore c s).1).flatten = c :: (s.2 :: s.1).flatten := by
  obtain ⟨words, word⟩ := s
  unfold putBefore
  dsimp only
  split
  · cases word with
    | nil => rfl
    | cons d word =>
      dsimp only
      split <;> rfl
  · rfl

theorem flatten_foldr_putBefore (cs : List Char) :
    ((cs.foldr putBefore ([], [])).2 :: (cs.foldr putBefore ([], [])).1).flatten = cs := by
  induction cs with
  | nil => rfl
  | cons c cs ih => rw [List.foldr_cons, flatten_putBefore, ih]

/-- The words of a text, each with the blanks behind it, are all of it; a text of blanks has none. -/
theorem flatten_spacedWords (cs : List Char) : spacedWords cs = [] ∨ (spacedWords cs).flatten = cs := by
  have hsplit := List.takeWhile_append_dropWhile (p := isBlank) (l := cs)
  have hwords := flatten_foldr_putBefore (cs.dropWhile isBlank)
  unfold spacedWords
  dsimp only
  generalize hfold : List.foldr _ _ (cs.dropWhile isBlank) = s
  change (cs.dropWhile isBlank).foldr putBefore ([], []) = s at hfold
  rw [hfold] at hwords
  obtain ⟨words, rest⟩ := s
  cases rest with
  | nil => exact .inl rfl
  | cons c rest =>
    right
    rw [List.flatten_cons] at hwords
    show (cs.takeWhile isBlank ++ c :: rest) ++ words.flatten = cs
    rw [List.append_assoc, hwords, hsplit]

/-- Lines that are filled with words are these words, one after the other. -/
theorem flatten_fillLines (width : ℕ) (line : List Char) (words : List (List Char)) :
    (fillLines .ellipsis width line words).flatten = line ++ words.flatten := by
  induction words generalizing line with
  | nil => simp [fillLines]
  | cons word words ih =>
    rw [fillLines]
    dsimp only
    split
    · rw [ih, List.flatten_cons, List.append_assoc]
    · have hfinished : (if line.isEmpty then [] else [line]).flatten = line := by
        cases line <;> simp
      rw [List.flatten_append, hfinished, ih, List.flatten_cons]

/-! ### Printable characters -/

/-- A printable character of ASCII. -/
def IsPrintable (c : Char) : Prop := 0x20 ≤ c.toNat ∧ c.toNat < 0x7F

instance (c : Char) : Decidable (IsPrintable c) := inferInstanceAs (Decidable (_ ∧ _))

theorem charCells_of_isPrintable {c : Char} (h : IsPrintable c) : charCells c = 1 := by
  rw [charCells, if_pos (by simpa [IsPrintable] using h)]

theorem cells_eq_sum (cs : List Char) : cells cs = (cs.map charCells).sum := by
  have hfold : ∀ n, cs.foldl (fun n c => n + charCells c) n = n + (cs.map charCells).sum := by
    induction cs with
    | nil => intro n; rfl
    | cons c cs ih => intro n; rw [List.foldl_cons, ih, List.map_cons, List.sum_cons, Nat.add_assoc]
  rw [cells, hfold, Nat.zero_add]

theorem cells_append (cs ds : List Char) : cells (cs ++ ds) = cells cs + cells ds := by
  rw [cells_eq_sum, cells_eq_sum, cells_eq_sum, List.map_append, List.sum_append]

/-- A text in which every character takes one cell. -/
theorem cells_eq_length (h : ∀ c ∈ cs, charCells c = 1) : cells cs = cs.length := by
  rw [cells_eq_sum, List.map_congr_left h, List.map_const', List.sum_replicate, smul_eq_mul, mul_one]

theorem takeCells_eq_self (h : ∀ c ∈ cs, charCells c = 1) (hfits : cs.length ≤ width) :
    takeCells width cs = cs := by
  induction cs generalizing width with
  | nil => rfl
  | cons c cs ih =>
    rw [List.length_cons] at hfits
    rw [takeCells, h c List.mem_cons_self, if_pos (by omega),
      ih (fun d hd => h d (List.mem_cons_of_mem c hd)) (by omega)]

theorem fitCells_of_length_le (h : ∀ c ∈ cs, charCells c = 1) (hfits : cs.length ≤ width) :
    fitCells width cs = cs ++ List.replicate (width - cs.length) ' ' := by
  rw [fitCells, takeCells_eq_self h hfits, cells_eq_length h]

/-! ### Texts that fit -/

theorem dropExcess_of_length_le (h : line.length ≤ width) : dropExcess width line = line := by
  rw [dropExcess, Nat.sub_eq_zero_of_le h]
  simp

theorem expandTabs_of_notMem (h : '\t' ∉ cs) (column : ℕ) : expandTabs column cs = cs := by
  induction cs generalizing column with
  | nil => rfl
  | cons c cs ih =>
    have hc : c ≠ '\t' := fun heq => h (heq ▸ List.mem_cons_self)
    rw [expandTabs, if_neg (by simpa using hc), ih fun hmem => h (List.mem_cons_of_mem c hmem)]

/-- Words that fit into one line make one line. -/
theorem fillLines_of_length_le (h : ∀ c ∈ line ++ words.flatten, charCells c = 1)
    (hfits : (line ++ words.flatten).length ≤ width) :
    fillLines .ellipsis width line words = [line ++ words.flatten] := by
  induction words generalizing line with
  | nil => rw [fillLines, List.flatten_nil, List.append_nil]
  | cons word words ih =>
    rw [List.flatten_cons, ← List.append_assoc] at h hfits ⊢
    have hroom : cells line + cells (trimRightOf isBlank word) ≤ width := by
      have hbare : trimRightOf isBlank word <+: word :=
        ⟨_, (eq_trimRightOf_append isBlank word).symm⟩
      have hline : ∀ c ∈ line, charCells c = 1 := fun c hc =>
        h c (List.mem_append_left _ (List.mem_append_left _ hc))
      have hword : ∀ c ∈ trimRightOf isBlank word, charCells c = 1 := fun c hc =>
        h c (List.mem_append_left _ (List.mem_append_right _ (hbare.subset hc)))
      have hlength := hbare.length_le
      rw [List.length_append, List.length_append] at hfits
      rw [cells_eq_length hline, cells_eq_length hword]
      omega
    rw [fillLines]
    dsimp only
    rw [if_pos hroom, ih h hfits]

/-- A text of printable characters that fits into one line stays as it is. -/
theorem wrap_of_length_le (h : ∀ c ∈ cs, IsPrintable c) (hfits : cs.length ≤ width) :
    wrap .ellipsis width cs = [cs] := by
  have hcells : ∀ c ∈ cs, charCells c = 1 := fun c hc => charCells_of_isPrintable (h c hc)
  have hbreak : '\n' ∉ cs := fun hmem => absurd (h _ hmem) (by decide)
  have htab : '\t' ∉ cs := fun hmem => absurd (h _ hmem) (by decide)
  have hpiece : splitAt '\n' cs = [cs] :=
    @splitAt_joinWith '\n' [cs] (by simp) (by simpa using hbreak)
  have hline : [cs].map (fun line => cutLine .ellipsis width (dropExcess width line)) = [cs] := by
    rw [List.map_singleton, dropExcess_of_length_le hfits, cutLine,
      if_pos (by rwa [cells_eq_length hcells])]
  rw [wrap, hpiece, List.flatMap_singleton, wrapLine, expandTabs_of_notMem htab]
  split
  · exact hline
  · next hwords =>
    have hflat := (flatten_spacedWords cs).resolve_left hwords
    rw [← List.nil_append (spacedWords cs).flatten] at hflat
    rw [fillLines_of_length_le (by rwa [hflat]) (by rwa [hflat]), hflat]
    exact hline

/-! ### Characters that do not come in -/

section Count

variable {p : Char → Bool}

theorem takeCells_sublist (width : ℕ) (cs : List Char) : (takeCells width cs).Sublist cs := by
  induction cs generalizing width with
  | nil => exact List.Sublist.refl []
  | cons c cs ih =>
    rw [takeCells]
    split
    · exact (ih _).cons_cons c
    · exact List.nil_sublist _

/-- The characters of pieces are characters of the joined text. -/
theorem flatten_sublist_joinWith (sep : List Char) (pieces : List (List Char)) :
    pieces.flatten.Sublist (joinWith sep pieces) := by
  induction pieces with
  | nil => exact List.Sublist.refl []
  | cons piece pieces ih =>
    cases pieces with
    | nil => simp [joinWith]
    | cons next pieces =>
      rw [joinWith_cons_cons, List.flatten_cons]
      exact (List.Sublist.refl piece).append (ih.trans (List.sublist_append_right sep _))

variable (hblank : p ' ' = false)
include hblank

theorem countP_blanks (n : ℕ) : (List.replicate n ' ').countP p = 0 := by
  rw [List.countP_replicate, if_neg (Bool.eq_false_iff.1 hblank)]

theorem countP_fitCells_le (width : ℕ) (cs : List Char) :
    (fitCells width cs).countP p ≤ cs.countP p := by
  rw [fitCells, List.countP_append, countP_blanks hblank, Nat.add_zero]
  exact (takeCells_sublist width cs).countP_le

theorem countP_expandTabs_le (column : ℕ) (cs : List Char) :
    (expandTabs column cs).countP p ≤ cs.countP p := by
  induction cs generalizing column with
  | nil => exact le_refl _
  | cons c cs ih =>
    rw [expandTabs, List.countP_cons]
    split
    · rw [List.countP_append, countP_blanks hblank, Nat.zero_add]
      exact (ih _).trans (Nat.le_add_right _ _)
    · rw [List.countP_cons]
      exact Nat.add_le_add_right (ih _) _

variable (hellipsis : p '…' = false)
include hellipsis

theorem countP_cutLine_le (width : ℕ) (line : List Char) :
    (cutLine .ellipsis width line).countP p ≤ line.countP p := by
  unfold cutLine
  split
  · exact le_refl _
  · dsimp only
    rw [List.countP_append, List.countP_singleton, if_neg (Bool.eq_false_iff.1 hellipsis), Nat.add_zero]
    exact countP_fitCells_le hblank _ _

/-- The lines of a text have no more characters of a kind than the text. -/
theorem countP_wrapLine_le (width : ℕ) (cs : List Char) :
    (wrapLine .ellipsis width cs).flatten.countP p ≤ cs.countP p := by
  have hcut : ∀ lines : List (List Char),
      (lines.map fun line => cutLine .ellipsis width (dropExcess width line)).flatten.countP p ≤
        lines.flatten.countP p := by
    intro lines
    induction lines with
    | nil => exact le_refl _
    | cons line lines ih =>
      rw [List.map_cons, List.flatten_cons, List.flatten_cons, List.countP_append, List.countP_append]
      have hexcess : (dropExcess width line).countP p ≤ line.countP p :=
        (List.take_sublist _ line).countP_le
      exact Nat.add_le_add ((countP_cutLine_le hblank hellipsis width _).trans hexcess) ih
  refine (hcut _).trans (le_trans (le_of_eq ?_) (countP_expandTabs_le hblank 0 cs))
  generalize expandTabs 0 cs = cs
  congr 1
  split
  · simp
  · next words hwords =>
    rw [flatten_fillLines, List.nil_append]
    exact (flatten_spacedWords cs).resolve_left hwords

theorem countP_wrap_le (width : ℕ) (cs : List Char) :
    (wrap .ellipsis width cs).flatten.countP p ≤ cs.countP p := by
  have hpieces : (splitAt '\n' cs).flatten.countP p ≤ cs.countP p := by
    have hsublist := flatten_sublist_joinWith ['\n'] (splitAt '\n' cs)
    rw [joinWith_splitAt] at hsublist
    exact hsublist.countP_le
  refine le_trans ?_ hpieces
  unfold wrap
  induction splitAt '\n' cs with
  | nil => exact le_refl _
  | cons piece pieces ih =>
    rw [List.flatMap_cons, List.flatten_append, List.flatten_cons, List.countP_append,
      List.countP_append]
    exact Nat.add_le_add (countP_wrapLine_le hblank hellipsis width piece) ih

end Count

end ApiShell.Text
