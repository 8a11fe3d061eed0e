import ApiShell.Yaml.Token
import Mathlib

/-!
# Places in a text

A cursor is a place in a text: what follows it, and the number of characters and of lines before it.
Going on takes characters off the rest one by one.  The line of a place changes only where a break was
passed (`line_advance_eq_iff`), so a text is known to be on one line by its characters.

Light space is what the scanner steps over between tokens: spaces and breaks, but no tabs.
`Cursor.Skips` is the relation between a place and another one behind nothing but light space.
-/

namespace ApiShell.Yaml

/-- Characters differ if only one of them is of some class. -/
theorem ne_of_class {p : Char → Bool} {c d : Char} (hc : p c = true) (hd : p d = false) : c ≠ d := by
  rintro rfl
  rw [hc] at hd
  cases hd

namespace Cursor

variable {c : Cursor} {ch : Char} {as cs : List Char}

theorem head_eq (h : c.rest = ch :: cs) : c.head = ch := by
  rw [head, h]
  rfl

theorem rest_next (h : c.rest = ch :: cs) : c.next.rest = cs := by
  unfold next
  rw [h]
  dsimp only
  split <;> rfl

theorem index_next (h : c.rest = ch :: cs) : c.next.index = c.index + 1 := by
  unfold next
  rw [h]
  dsimp only
  split <;> rfl

theorem rest_advance (h : c.rest = as ++ cs) : (c.advance as.length).rest = cs := by
  induction as generalizing c with
  | nil => exact h
  | cons a as ih => exact ih (rest_next h)

theorem index_advance (h : c.rest = as ++ cs) :
    (c.advance as.length).index = c.index + as.length := by
  induction as generalizing c with
  | nil => rfl
  | cons a as ih =>
    have hstep := ih (c := c.next) (rest_next h)
    rw [index_next h] at hstep
    rw [List.length_cons, advance, hstep]
    omega

theorem advance_add (c : Cursor) (m n : ℕ) : c.advance (m + n) = (c.advance m).advance n := by
  induction m generalizing c with
  | zero => rw [Nat.zero_add, advance]
  | succ m ih => rw [Nat.add_right_comm, advance, advance, ih]

/-- A run of characters of a class up to one that is not of the class. -/
theorem takeWhile_eq {p : Char → Bool} (h : c.rest = as ++ cs) (has : ∀ a ∈ as, p a = true)
    (hcs : ∀ a ∈ cs.head?, p a = false) : c.takeWhile p = (as, c.advance as.length) := by
  have htaken : c.rest.takeWhile p = as := by
    rw [h, List.takeWhile_append_of_pos has]
    cases cs with
    | nil => rw [List.takeWhile_nil, List.append_nil]
    | cons a cs => rw [List.takeWhile_cons_of_neg (by simp [hcs a rfl]), List.append_nil]
  rw [takeWhile, htaken]

theorem lineBreak?_eq_none (h : ∀ a ∈ c.rest.head?, isBreak a = false) : c.lineBreak? = none := by
  unfold lineBreak?
  split
  · next heq =>
    rw [heq] at h
    exact absurd (h '\r' rfl) (by decide)
  · next a as _ heq =>
    rw [heq] at h
    rw [h a rfl]
    rfl
  · rfl

theorem exists_rest_of_head {ch : Char} (h : c.head = ch) (hne : ch ≠ '\x00') :
    ∃ cs, c.rest = ch :: cs := by
  cases hrest : c.rest with
  | nil =>
    rw [head, hrest] at h
    exact absurd h.symm hne
  | cons a cs => exact ⟨cs, by rw [← h, head_eq hrest]⟩

/-! ### Lines -/

theorem line_next {ch : Char} {cs : List Char} (h : c.rest = ch :: cs) : c.next.line =
    if ((isBreak ch && ch != '\r') || (ch == '\r' && cs.head? != some '\n')) = true then c.line + 1
    else c.line := by
  unfold next
  rw [h]
  dsimp only
  split <;> rfl

theorem line_le_next (c : Cursor) : c.line ≤ c.next.line := by
  cases h : c.rest with
  | nil =>
    unfold next
    rw [h]
  | cons ch cs =>
    rw [line_next h]
    split
    · exact Nat.le_succ _
    · exact Nat.le_refl _

theorem line_le_advance (c : Cursor) (n : ℕ) : c.line ≤ (c.advance n).line := by
  induction n generalizing c with
  | zero => exact Nat.le_refl _
  | succ n ih => exact c.line_le_next.trans (ih c.next)

/-- A place is on the same line where no break stands before it. -/
theorem line_advance_eq_iff {as cs : List Char} (h : c.rest = as ++ cs) (hcs : cs.head? ≠ some '\n') :
    (c.advance as.length).line = c.line ↔ ∀ a ∈ as, isBreak a = false := by
  induction as generalizing c with
  | nil => simp [advance]
  | cons a as ih =>
    have hrest := ih (rest_next h)
    have hle := c.next.line_le_advance as.length
    rw [List.forall_mem_cons, List.length_cons, advance]
    cases hbreak : isBreak a with
    | false =>
      have hreturn : (a == '\r') = false := by
        rw [beq_eq_false_iff_ne]
        rintro rfl
        cases hbreak
      have hline : c.next.line = c.line := by
        rw [line_next h, hbreak, hreturn, Bool.false_and, Bool.false_and, Bool.or_self,
          if_neg Bool.false_ne_true]
      rw [hline] at hrest
      rw [hrest]
      exact ⟨fun h => ⟨rfl, h⟩, fun h => h.2⟩
    | true =>
      refine ⟨fun hline => ?_, fun h => absurd h.1 (by decide)⟩
      have hnext := line_next h
      split at hnext
      · omega
      next hends =>
      -- Only the first one of a carriage return and a line feed does not end its line.
      obtain ⟨as, rfl⟩ : ∃ as', as = '\n' :: as' := by
        simp only [hbreak, Bool.true_and, Bool.or_eq_true, bne_iff_ne, beq_iff_eq, Bool.and_eq_true,
          not_or, not_and, not_not] at hends
        have hfeed := hends.2 hends.1
        cases as with
        | nil => exact absurd hfeed hcs
        | cons b as => exact ⟨as, by rw [Option.some.inj hfeed]⟩
      rw [hnext] at hrest
      have hnone := hrest.1 hline '\n' List.mem_cons_self
      simp [isBreak] at hnone

end Cursor

/-! ### Light space -/

/-- Space that the scanner steps over. -/
def isLight (c : Char) : Bool := c == ' ' || isBreak c

theorem dropWhile_isLight_cons {ch : Char} (h : isLight ch = false) (cs : List Char) :
    (ch :: cs).dropWhile isLight = ch :: cs :=
  List.dropWhile_cons_of_neg (by rw [h]; decide)

/-- A place behind light space, seen from another place. -/
def Cursor.Skips (c c' : Cursor) : Prop :=
  ∃ light, c.rest = light ++ c'.rest ∧ (∀ ch ∈ light, isLight ch = true) ∧ c' = c.advance light.length

namespace Cursor

variable {c c' c'' : Cursor}

theorem Skips.refl (c : Cursor) : c.Skips c := ⟨[], rfl, by simp, rfl⟩

theorem Skips.trans (h : c.Skips c') (h' : c'.Skips c'') : c.Skips c'' := by
  obtain ⟨light, hrest, hlight, hc⟩ := h
  obtain ⟨light', hrest', hlight', hc'⟩ := h'
  refine ⟨light ++ light', by rw [hrest, hrest', List.append_assoc], ?_, ?_⟩
  · exact List.forall_mem_append.2 ⟨hlight, hlight'⟩
  · rw [List.length_append, advance_add, ← hc, hc']

theorem Skips.dropWhile_eq (h : c.Skips c') :
    c'.rest.dropWhile isLight = c.rest.dropWhile isLight := by
  obtain ⟨light, hrest, hlight, -⟩ := h
  rw [hrest, List.dropWhile_append_of_pos hlight]

theorem Skips.length_le (h : c.Skips c') : c'.rest.length ≤ c.rest.length := by
  obtain ⟨light, hrest, -⟩ := h
  rw [hrest, List.length_append]
  exact Nat.le_add_left _ _

theorem Skips.eq_advance {light : List Char} (h : c.Skips c') (hrest : c.rest = light ++ c'.rest) :
    c' = c.advance light.length := by
  obtain ⟨light', hrest', -, hc'⟩ := h
  rw [hc', List.append_cancel_right (hrest'.symm.trans hrest)]

theorem skips_advance {light cs : List Char} (hrest : c.rest = light ++ cs)
    (hlight : ∀ ch ∈ light, isLight ch = true) : c.Skips (c.advance light.length) :=
  ⟨light, by rw [rest_advance hrest, hrest], hlight, rfl⟩

theorem skips_spaces (c : Cursor) : c.Skips (c.takeWhile (· == ' ')).2 := by
  refine skips_advance List.takeWhile_append_dropWhile.symm fun ch hch => ?_
  have hspace := List.mem_takeWhile_imp hch
  rw [isLight, hspace, Bool.true_or]

theorem skips_lineBreak {br : Char} (h : c.lineBreak? = some (br, c')) : c.Skips c' := by
  unfold lineBreak? at h
  split at h
  · next cs heq =>
    obtain ⟨-, rfl⟩ := Prod.mk.inj (Option.some.inj h)
    exact @skips_advance c ['\r', '\n'] cs heq (by simp [isLight, isBreak])
  · next ch cs _ heq =>
    split at h
    · cases h
    next hbreak =>
    have hlight : isLight ch = true := by
      rw [isLight, show isBreak ch = true by simpa using hbreak, Bool.or_true]
    have hc' : c' = c.next := by
      split at h <;> exact (Prod.mk.inj (Option.some.inj h)).2.symm
    rw [hc']
    exact @skips_advance c [ch] cs heq (List.forall_mem_singleton.2 hlight)
  · cases h

theorem rest_lineBreak_lt {br : Char} (h : c.lineBreak? = some (br, c')) :
    c'.rest.length < c.rest.length := by
  unfold lineBreak? at h
  split at h
  · next cs heq =>
    obtain ⟨-, rfl⟩ := Prod.mk.inj (Option.some.inj h)
    have hafter : (c.advance 2).rest = cs := @rest_advance c ['\r', '\n'] cs heq
    rw [hafter, heq]
    exact Nat.lt_succ_of_lt (Nat.lt_succ_self _)
  · next ch cs _ heq =>
    split at h
    · cases h
    have hc' : c' = c.next := by
      split at h <;> exact (Prod.mk.inj (Option.some.inj h)).2.symm
    rw [hc', rest_next heq, heq]
    exact Nat.lt_succ_self _
  · cases h

theorem isBreak_head?_of_lineBreak? (h : c.lineBreak? = none) :
    ∀ a ∈ c.rest.head?, isBreak a = false := by
  intro a ha
  obtain ⟨cs, hcs⟩ := List.head?_eq_some_iff.1 ha
  unfold lineBreak? at h
  split at h
  · cases h
  · next heq =>
    obtain ⟨rfl, rfl⟩ := List.cons.inj (hcs.symm.trans heq)
    split at h
    · next hbreak => simpa using hbreak
    · split at h <;> cases h
  · next heq => cases hcs.symm.trans heq

/-- Where no break follows the spaces, all light space has been skipped. -/
theorem rest_spaces (h : (c.takeWhile (· == ' ')).2.lineBreak? = none) :
    (c.takeWhile (· == ' ')).2.rest = c.rest.dropWhile isLight := by
  rw [← (skips_spaces c).dropWhile_eq]
  have hrest : (c.takeWhile (· == ' ')).2.rest = c.rest.dropWhile (· == ' ') :=
    rest_advance List.takeWhile_append_dropWhile.symm
  have hbreak := isBreak_head?_of_lineBreak? h
  rw [hrest] at hbreak ⊢
  cases htail : c.rest.dropWhile (· == ' ') with
  | nil => rfl
  | cons a cs =>
    have hspace : (a == ' ') = false := by
      have hhead := List.head?_dropWhile_not (· == ' ') c.rest
      rw [htail] at hhead
      exact hhead
    rw [htail] at hbreak
    rw [List.dropWhile_cons_of_neg]
    rw [isLight, hspace, hbreak a rfl]
    decide

end Cursor

end ApiShell.Yaml
