import ApiShell.Text.Digit

/-!
# Numbers in decimal digits

The digits from `0` to `9` are decimal digits with the values that they have everywhere, so the digits
of a natural number are read back as the number.  Digits of other scripts are read as well, and
nothing else is.
-/

namespace ApiShell.Text

variable {c : Char} {cs : List Char} {n : Nat}

/-! ### Digits from `0` to `9` -/

theorem decimalDigit?_of_isDigit (h : c.isDigit = true) :
    decimalDigit? c = some (c.toNat - '0'.toNat) := by
  have hrange : (0x30 ≤ c.toNat && c.toNat < 0x30 + 10) = true := by
    simp only [Char.isDigit, Bool.and_eq_true, decide_eq_true_eq, ge_iff_le,
      UInt32.le_iff_toNat_le] at h ⊢
    exact ⟨h.1, Nat.lt_succ_of_le h.2⟩
  -- ASCII digits belong to the first script of the table.
  have hfirst : digitZeros.find? (fun z => z ≤ c.toNat && c.toNat < z + 10) = some 0x30 :=
    List.find?_cons_of_pos hrange
  rw [decimalDigit?, hfirst]
  rfl

theorem isDecimal_of_isDigit (h : c.isDigit = true) : isDecimal c = true := by
  rw [isDecimal, decimalDigit?_of_isDigit h]
  rfl

theorem decimalValue?_of_isDigit (h : ∀ c ∈ cs, c.isDigit = true) :
    decimalValue? cs = some (Nat.ofDigitChars 10 cs 0) := by
  unfold decimalValue?
  generalize 0 = n
  induction cs generalizing n with
  | nil => rfl
  | cons c cs ih =>
    have hfirst := decimalDigit?_of_isDigit (h c List.mem_cons_self)
    have hrest := ih fun d hd => h d (List.mem_cons_of_mem c hd)
    simp only [List.foldl_cons, Option.bind_some, hfirst, Option.map_some, hrest,
      Nat.ofDigitChars_cons]

/-- The digits of a natural number write the number. -/
theorem decimalValue?_toDigits (n : Nat) : decimalValue? (Nat.toDigits 10 n) = some n := by
  have hdigits : ∀ c ∈ Nat.toDigits 10 n, c.isDigit = true := fun c hc =>
    Nat.isDigit_of_mem_toDigits (by decide) (by decide) hc
  rw [decimalValue?_of_isDigit hdigits, Nat.ofDigitChars_ten_toDigits]

/-! ### What can be read -/

/-- Where nothing was read, nothing is read. -/
theorem foldl_decimalDigit?_none (cs : List Char) :
    cs.foldl (fun n c => n.bind fun n => (decimalDigit? c).map (10 * n + ·)) none = none := by
  induction cs with
  | nil => rfl
  | cons c cs ih => exact ih

/-- What is read of a text holds decimal digits only. -/
theorem isDecimal_of_decimalValue? (h : decimalValue? cs = some n) :
    ∀ c ∈ cs, isDecimal c = true := by
  unfold decimalValue? at h
  generalize some 0 = start at h
  induction cs generalizing start with
  | nil => exact fun c hc => absurd hc List.not_mem_nil
  | cons c cs ih =>
    rw [List.foldl_cons] at h
    refine List.forall_mem_cons.2 ⟨?_, ih _ h⟩
    rw [isDecimal]
    cases hc : decimalDigit? c with
    | some d => rfl
    | none =>
      have hnone : (start.bind fun n => (decimalDigit? c).map (10 * n + ·)) = none := by
        rw [hc]
        cases start <;> rfl
      rw [hnone, foldl_decimalDigit?_none] at h
      cases h

end ApiShell.Text
