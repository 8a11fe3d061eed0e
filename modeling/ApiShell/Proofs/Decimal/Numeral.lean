import ApiShell.Decimal.Numeral
import ApiShell.Proofs.Json.Token
import ApiShell.Proofs.Text.Blank
import ApiShell.Proofs.Text.Digit

/-!
# Integers in decimal digits

The text of an integer is read as this integer.
-/

namespace ApiShell.Decimal

theorem digitIn?_of_isDigit {c : Char} (h : c.isDigit = true) :
    digitIn? 10 c = some (c.toNat - '0'.toNat) := by
  have hlt : c.toNat - '0'.toNat < 10 := by
    simp only [Char.isDigit, Bool.and_eq_true, decide_eq_true_eq, ge_iff_le,
      UInt32.le_iff_toNat_le] at h
    have hcode : c.val.toNat = c.toNat := rfl
    have hzero : '0'.toNat = 48 := rfl
    have hhigh : c.toNat ≤ 57 := hcode ▸ h.2
    omega
  rw [digitIn?, Text.decimalDigit?_of_isDigit h]
  exact Option.filter_some_pos (decide_eq_true hlt)

/-- Digits without underscores are read one by one. -/
theorem groupedDigits_of_isDigit {cs : List Char} (h : ∀ c ∈ cs, c.isDigit = true) {last : Bool}
    (hne : cs ≠ [] ∨ last = true) :
    groupedDigits 10 last cs = some (cs.map fun c => c.toNat - '0'.toNat) := by
  induction cs generalizing last with
  | nil =>
    obtain rfl := hne.resolve_left fun h => h rfl
    rfl
  | cons c cs ih =>
    have hc := h c List.mem_cons_self
    have hmark : c ≠ '_' := by
      rintro rfl
      exact absurd hc (by decide)
    have hrest : groupedDigits 10 true cs = _ :=
      ih (fun d hd => h d (List.mem_cons_of_mem c hd)) (.inr rfl)
    rw [groupedDigits, digitIn?_of_isDigit hc, hrest]
    · rfl
    · exact hmark

theorem ofDigits_map (cs : List Char) :
    ofDigits 10 (cs.map fun c => c.toNat - '0'.toNat) = Nat.ofDigitChars 10 cs 0 := by
  unfold ofDigits
  generalize 0 = n
  induction cs generalizing n with
  | nil => rfl
  | cons c cs ih => rw [List.map_cons, List.foldl_cons, ih, Nat.ofDigitChars_cons]

theorem isPadding_of_isDigit {c : Char} (h : c.isDigit = true) : isPadding c = false := by
  rw [isPadding, Text.isBlank_of_isAlphanum (Bool.or_eq_true_iff.2 (.inr h)), Bool.false_and]

theorem takeSign_of_isDigit {c : Char} (h : c.isDigit = true) (cs : List Char) :
    takeSign (c :: cs) = (false, c :: cs) := by
  unfold takeSign
  split
  · next heq =>
    obtain ⟨rfl, -⟩ := List.cons.inj heq
    exact absurd h (by decide)
  · next heq =>
    obtain ⟨rfl, -⟩ := List.cons.inj heq
    exact absurd h (by decide)
  · rfl

variable (n : Int)

theorem isDigit_of_mem_toDigits_natAbs : ∀ c ∈ Nat.toDigits 10 n.natAbs, c.isDigit = true :=
  fun _ hc => Nat.isDigit_of_mem_toDigits (by decide) (by decide) hc

/-- There are no blanks in the text of an integer. -/
theorem trimOf_toString : Text.trimOf isPadding (toString n).toList = (toString n).toList := by
  refine Text.trimOf_eq_self fun c hc => ?_
  rw [Json.toList_toString, List.mem_append] at hc
  rcases hc with hc | hc
  · split at hc
    · rw [List.mem_singleton.1 hc]
      decide
    · cases hc
  · exact isPadding_of_isDigit (isDigit_of_mem_toDigits_natAbs n c hc)

theorem takeSign_toString :
    takeSign (toString n).toList = (decide (n < 0), Nat.toDigits 10 n.natAbs) := by
  rw [Json.toList_toString]
  split
  · next hneg =>
    rw [decide_eq_true hneg]
    rfl
  · next hpos =>
    rw [decide_eq_false hpos, List.nil_append]
    have hdigits := isDigit_of_mem_toDigits_natAbs n
    cases hcs : Nat.toDigits 10 n.natAbs with
    | nil => rfl
    | cons c cs =>
      rw [hcs] at hdigits
      exact takeSign_of_isDigit (hdigits c List.mem_cons_self) cs

/-- The text of an integer is read as the integer. -/
theorem integer?_toString : integer? 10 (toString n).toList = some n := by
  have hgrouped : groupedDigits 10 false _ = _ :=
    groupedDigits_of_isDigit (isDigit_of_mem_toDigits_natAbs n) (.inl Nat.toDigits_ne_nil)
  have hvalue := (ofDigits_map (Nat.toDigits 10 n.natAbs)).trans Nat.ofDigitChars_ten_toDigits
  rw [integer?, trimOf_toString, takeSign_toString]
  dsimp only
  rw [hgrouped]
  show some (if decide (n < 0) = true then -((ofDigits 10 _ : Nat) : Int) else _) = some n
  rw [hvalue]
  congr 1
  split
  · next hneg =>
    rw [decide_eq_true_eq] at hneg
    omega
  · next hpos =>
    rw [decide_eq_true_eq] at hpos
    omega

end ApiShell.Decimal
