import ApiShell.Decimal.Shortest
import ApiShell.Proofs.Text.Digit
import Mathlib.Data.List.Basic

/-!
# The characters of written numbers

A floating-point number that is finite is written with ASCII digits, signs, a point and the letter
of the exponent, and with nothing else; a point or an exponent is always there, so its text is never
the text of a natural number.
-/

namespace ApiShell

/-! ### Digits that are found -/

namespace Decimal

theorem mem_of_mem_dropTrailingZeros {cs : List Char} {c : Char} (h : c ∈ dropTrailingZeros cs) :
    c ∈ cs := by
  unfold dropTrailingZeros at h
  have hmem := (List.dropWhile_sublist _).mem (List.mem_reverse.1 h)
  exact List.mem_reverse.1 hmem

theorem Interval.isDigit_of_mem_shortestFrom {i : Interval} {places : Int} {fuel count : Nat}
    {c : Char} (h : c ∈ (i.shortestFrom places fuel count).digits) : c.isDigit = true := by
  induction fuel generalizing count with
  | zero =>
    rw [List.mem_singleton.1 h]
    decide
  | succ fuel ih =>
    simp only [shortestFrom] at h
    split at h
    · next n _ =>
      have hmem := mem_of_mem_dropTrailingZeros h
      rw [Nat.toList_repr] at hmem
      exact Nat.isDigit_of_mem_toDigits (by decide) (by decide) hmem
    · exact ih h

theorem isDigit_of_mem_shortest {d : Dyadic} {c : Char} (h : c ∈ (shortest d).digits) :
    c.isDigit = true := by
  unfold shortest at h
  split at h
  · rw [List.mem_singleton.1 h]
    decide
  · exact Interval.isDigit_of_mem_shortestFrom h

/-! ### Digits in their places -/

/-- A character of a written number. -/
def IsNumberChar (c : Char) : Prop := c.isDigit = true ∨ c ∈ ['.', 'e', '+', '-']

theorem isNumberChar_of_mem_exponentText {e : Int} {c : Char} (h : c ∈ exponentText e) :
    IsNumberChar c := by
  have hrepr : ∀ n : Nat, ∀ d ∈ (Nat.repr n).toList, d.isDigit = true := by
    intro n d hd
    rw [Nat.toList_repr] at hd
    exact Nat.isDigit_of_mem_toDigits (by decide) (by decide) hd
  unfold exponentText at h
  rcases List.mem_cons.1 h with rfl | h
  · right
    split <;> decide
  · left
    split at h
    · rcases List.mem_cons.1 h with rfl | h
      · decide
      · exact hrepr _ c h
    · exact hrepr _ c h

theorem Layout.isNumberChar_of_mem_place {layout : Layout} {d : Digits} {c : Char}
    (hdigits : ∀ c ∈ d.digits, c.isDigit = true) (h : c ∈ layout.place d) : IsNumberChar c := by
  have hzeros : ∀ n, c ∈ List.replicate n '0' → IsNumberChar c := by
    intro n hc
    rw [List.eq_of_mem_replicate hc]
    exact .inl (by decide)
  have htake : ∀ n, c ∈ d.digits.take n → IsNumberChar c :=
    fun n hc => .inl (hdigits c (List.mem_of_mem_take hc))
  have hdrop : ∀ n, c ∈ d.digits.drop n → IsNumberChar c :=
    fun n hc => .inl (hdigits c (List.mem_of_mem_drop hc))
  have hpoint : IsNumberChar '.' := .inr (by decide)
  have hzero : IsNumberChar '0' := .inl (by decide)
  have hletter : IsNumberChar 'e' := .inr (by decide)
  unfold Layout.place at h
  split at h
  · split at h
    · simp only [List.cons_append, List.mem_cons, List.mem_append] at h
      rcases h with rfl | rfl | h | h
      · exact hzero
      · exact hpoint
      · exact hzeros _ h
      · exact .inl (hdigits c h)
    · simp only [List.mem_append, List.mem_cons] at h
      rcases h with (h | h) | rfl | h
      · exact htake _ h
      · exact hzeros _ h
      · exact hpoint
      · split at h
        · rw [List.mem_singleton.1 h]
          exact hzero
        · exact hdrop _ h
  · simp only [List.mem_append, List.mem_cons] at h
    rcases h with (h | h) | rfl | h
    · exact htake _ h
    · split at h
      · rcases List.mem_cons.1 h with rfl | h
        · exact hpoint
        · exact hdrop _ h
      · split at h
        · rcases List.mem_cons.1 h with rfl | h
          · exact hpoint
          · rw [List.mem_singleton.1 h]
            exact hzero
        · exact absurd h List.not_mem_nil
    · exact hletter
    · exact isNumberChar_of_mem_exponentText h

/-- A number has a point, or an exponent with its letter. -/
theorem Layout.mem_place (layout : Layout) (d : Digits) :
    '.' ∈ layout.place d ∨ 'e' ∈ layout.place d := by
  unfold Layout.place
  split
  · left
    split <;> simp
  · right
    simp

/-- A finite number is written with characters of numbers, and with a point or an exponent. -/
theorem Layout.write_of_dyadic (layout : Layout) {x : Float} {d : Dyadic}
    (h : dyadic? x = some d) :
    (∀ c ∈ layout.write x, IsNumberChar c) ∧ ('.' ∈ layout.write x ∨ 'e' ∈ layout.write x) := by
  have hwrite : layout.write x =
      (if d.negative then ['-'] else []) ++ layout.place (shortest d) := by
    rw [Layout.write, h]
  rw [hwrite]
  constructor
  · intro c hc
    rcases List.mem_append.1 hc with hsign | hplace
    · split at hsign
      · rw [List.mem_singleton.1 hsign]
        exact .inr (by decide)
      · exact absurd hsign List.not_mem_nil
    · exact isNumberChar_of_mem_place (fun _ => isDigit_of_mem_shortest) hplace
  · have hplace := layout.mem_place (shortest d)
    exact hplace.imp (List.mem_append_right _) (List.mem_append_right _)

end Decimal

end ApiShell
