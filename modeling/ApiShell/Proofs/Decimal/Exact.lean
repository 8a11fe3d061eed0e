import ApiShell.Proofs.Decimal.Numeral
import ApiShell.Proofs.Decimal.Shortest

/-!
# Integers among the floating-point numbers

Reading the text of an integer as a floating-point number and cutting it gives the integer back for
some integers only: those with at most 53 binary digits before the zeros at their end, within the range
of the numbers (`truncate_float?_toString_iff`).  Each of them is the value of a number
(`Dyadic.ofExact`), which the text is rounded to; and whatever a number is cut to is one of them.
-/

namespace ApiShell.Decimal

/-- The integer is the value of a floating-point number. -/
def IsExact (n : ℤ) : Prop := ∃ m e : ℕ, m < 2 ^ 53 ∧ e ≤ 971 ∧ n.natAbs = m * 2 ^ e

/-! ### Numbers from their parts -/

namespace Dyadic

variable {d : Dyadic}

/-- All bits, the sign first. -/
def bits (d : Dyadic) : ℕ := d.magnitudeBits + if d.negative then 2 ^ 63 else 0

/-- The exponent as it stands in the bits; all ones belong to no finite number. -/
theorem IsBinary64.bits_lt (h : d.IsBinary64) :
    d.bits < 2 ^ 64 ∧ d.bits / 2 ^ 52 % 2 ^ 11 < 2047 := by
  have hmantissa := h.mantissa_lt
  have hexponent := h.exponent_le
  have hleast := h.le_exponent
  have hnormal := h.normal
  unfold bits magnitudeBits
  split <;> omega

/-- Bits whose exponent is not all ones are those of a number. -/
theorem IsBinary64.valid_bits (h : d.IsBinary64) :
    Float.Model.Format.binary64.Valid (UInt64.ofNatLT d.bits h.bits_lt.1).toBitVec := by
  refine ⟨fun hexponent => absurd (congrArg BitVec.toNat hexponent) (Nat.ne_of_lt ?_)⟩
  have hfield : (@Float.Model.UnpackedFloat.unpackExponent .binary64
      (UInt64.ofNatLT d.bits h.bits_lt.1).toBitVec).toNat = d.bits / 2 ^ 52 % 2 ^ 11 := by
    rw [Float.Model.UnpackedFloat.unpackExponent, BitVec.toNat_cast, BitVec.extractLsb,
      BitVec.extractLsb'_toNat, Nat.shiftRight_eq_div_pow]
    rfl
  rw [hfield]
  exact h.bits_lt.2

/-- The number with these parts. -/
def IsBinary64.toFloat (h : d.IsBinary64) : Float := .ofModel ⟨.ofNatLT d.bits h.bits_lt.1, h.valid_bits⟩

theorem IsBinary64.dyadic?_toFloat (h : d.IsBinary64) : dyadic? h.toFloat = some d := by
  have hbits : h.toFloat.toBits.toNat = d.bits := rfl
  have hmantissa := h.mantissa_lt
  have hexponent := h.exponent_le
  have hleast := h.le_exponent
  have hsign : (d.bits / 2 ^ 63 == 1) = d.negative := by
    rw [Bool.eq_iff_iff, beq_iff_eq, bits, magnitudeBits]
    cases d.negative <;> simp <;> omega
  unfold dyadic?
  simp only [hbits, Nat.pow_eq, hsign]
  rcases lt_or_ge d.mantissa (2 ^ 52) with hfew | hmany
  · -- Without its first bit the mantissa stands at the least exponent.
    have hlow : d.exponent = -1074 := h.normal.resolve_right (by omega)
    have hfield : d.bits / 2 ^ 52 % 2 ^ 11 = 0 := by
      rw [bits, magnitudeBits]
      split <;> omega
    have hfraction : d.bits % 2 ^ 52 = d.mantissa := by
      rw [bits, magnitudeBits]
      split <;> omega
    rw [if_neg (by omega), if_pos hfield, hfraction, ← hlow]
  · have hfield : d.bits / 2 ^ 52 % 2 ^ 11 = (d.exponent + 1075).toNat := by
      rw [bits, magnitudeBits]
      split <;> omega
    have hfraction : d.bits % 2 ^ 52 + 2 ^ 52 = d.mantissa := by
      rw [bits, magnitudeBits]
      split <;> omega
    have hplace : ((d.bits / 2 ^ 52 % 2 ^ 11 : ℕ) : ℤ) - 1075 = d.exponent := by omega
    rw [if_neg (by omega), if_neg (by omega), hfraction, hplace]

end Dyadic

/-! ### Cutting -/

section

variable {n : ℤ}

/-- What is cut off leaves a mantissa, or a mantissa with zeros after it. -/
theorem isExact_truncate {d : Dyadic} (h : d.IsBinary64) : IsExact d.truncate := by
  have hmantissa := h.mantissa_lt
  have hexponent := h.exponent_le
  have hnatAbs : d.truncate.natAbs = d.num / d.den := by
    rw [Dyadic.truncate, Dyadic.whole]
    split
    · rw [Int.natAbs_neg, Int.natAbs_natCast]
    · rw [Int.natAbs_natCast]
  rcases le_total 0 d.exponent with hlarge | hsmall
  · refine ⟨d.mantissa, d.exponent.toNat, hmantissa, by omega, ?_⟩
    rw [hnatAbs, Dyadic.num, Dyadic.den, Int.toNat_of_nonpos (by omega : -d.exponent ≤ 0)]
    simp
  · refine ⟨d.mantissa / d.den, 0, (Nat.div_le_self _ _).trans_lt hmantissa, by norm_num, ?_⟩
    rw [hnatAbs, Dyadic.num, Int.toNat_of_nonpos hsmall]
    simp

/-- The number whose value is a positive mantissa with zeros after it: the mantissa is filled up to
53 bits. -/
def Dyadic.ofExact (negative : Bool) (m e : ℕ) : Dyadic :=
  ⟨negative, m * 2 ^ (52 - m.log2), (e : ℤ) - (52 - m.log2 : ℕ)⟩

theorem Dyadic.isBinary64_ofExact (negative : Bool) {m e : ℕ} (hpos : m ≠ 0) (hm : m < 2 ^ 53)
    (he : e ≤ 971) : (ofExact negative m e).IsBinary64 := by
  have hlog : m.log2 ≤ 52 := Nat.le_of_lt_succ ((Nat.log2_lt hpos).2 hm)
  have hfilled : 2 ^ (m.log2 + 1) * 2 ^ (52 - m.log2) = 2 ^ 53 := by
    rw [← pow_add]
    congr 1
    omega
  have hleast : 2 ^ m.log2 * 2 ^ (52 - m.log2) = 2 ^ 52 := by
    rw [← pow_add]
    congr 1
    omega
  refine ⟨?_, ?_, ?_, .inr ?_⟩ <;> dsimp only [ofExact]
  · rw [← hfilled]
    exact Nat.mul_lt_mul_of_pos_right Nat.lt_log2_self (by positivity)
  · omega
  · omega
  · rw [← hleast]
    exact Nat.mul_le_mul_right _ (Nat.log2_self_le hpos)

theorem Dyadic.value_ofExact (negative : Bool) (m e : ℕ) :
    ((ofExact negative m e).mantissa : ℚ) * 2 ^ (ofExact negative m e).exponent = (m * 2 ^ e : ℕ) := by
  dsimp only [ofExact]
  push_cast
  rw [mul_assoc, ← zpow_natCast, ← zpow_add₀ (by norm_num), ← zpow_natCast]
  congr 2
  ring

/-- A number whose value is a natural number is cut to it. -/
theorem Dyadic.whole_of_value {d : Dyadic} {k : ℕ} (h : (d.mantissa : ℚ) * 2 ^ d.exponent = k) :
    d.whole = k := by
  have hden : 0 < d.den := Nat.pow_pos (by decide)
  have hquotient : ((d.num : ℕ) : ℚ) / (d.den : ℕ) = k := by
    have hpower := pow_toNat_div 2 (-d.exponent)
    rw [neg_neg, zpow_neg, one_div, inv_inv] at hpower
    rw [← h, Dyadic.num, Dyadic.den]
    simp only [Nat.pow_eq]
    push_cast
    rw [mul_div_assoc, hpower]
  rw [div_eq_iff (by exact_mod_cast hden.ne')] at hquotient
  have hnum : d.num = k * d.den := by exact_mod_cast hquotient
  rw [Dyadic.whole, hnum, Nat.mul_div_cancel _ hden]

/-- An exact integer is the value of a number, with its own sign. -/
theorem IsExact.exists_value (h : IsExact n) : ∃ d : Dyadic, d.IsBinary64 ∧
    d.negative = decide (n < 0) ∧ (d.mantissa : ℚ) * 2 ^ d.exponent = n.natAbs := by
  obtain ⟨m, e, hm, he, hn⟩ := h
  rcases eq_or_ne m 0 with rfl | hpos
  · refine ⟨⟨decide (n < 0), 0, -1074⟩, ⟨by norm_num, by norm_num, by norm_num, .inl rfl⟩, rfl, ?_⟩
    rw [hn]
    simp
  · refine ⟨.ofExact (decide (n < 0)) m e, Dyadic.isBinary64_ofExact _ hpos hm he, rfl, ?_⟩
    rw [Dyadic.value_ofExact, hn]

theorem Dyadic.truncate_of_value {d : Dyadic} (hnegative : d.negative = decide (n < 0))
    (hvalue : (d.mantissa : ℚ) * 2 ^ d.exponent = n.natAbs) : d.truncate = n := by
  rw [Dyadic.truncate, hnegative, Dyadic.whole_of_value hvalue]
  split
  · next h =>
    have := of_decide_eq_true h
    omega
  · next h =>
    have := of_decide_eq_false (Bool.eq_false_iff.2 h)
    omega

/-- The digits of the value of a number are read as the number. -/
theorem ofDecimal_natAbs {x : Float} {d : Dyadic} (h : dyadic? x = some d) {k : ℕ}
    (hvalue : (d.mantissa : ℚ) * 2 ^ d.exponent = k) : ofDecimal d.negative k 0 = x := by
  have hd := isBinary64_of_dyadic? h
  by_cases hmantissa : d.mantissa = 0
  · have hk : k = 0 := by
      rw [hmantissa, Nat.cast_zero, zero_mul] at hvalue
      exact_mod_cast hvalue.symm
    rw [hk]
    exact nearest_eq h (nearestBits_zero hd hmantissa 1)
  · refine ofDecimal_eq_of_contains h hmantissa ?_
    obtain ⟨hlow, hhigh⟩ := Interval.low_lt_value hmantissa
    have hscale : (0 : ℚ) < (Interval.ofDyadic d).scale := by
      exact_mod_cast Nat.pos_of_ne_zero (Interval.scale_ofDyadic_ne_zero d)
    rw [zpow_zero, mul_one, ← hvalue, ← Interval.value_ofDyadic]
    apply Interval.contains_of_lt
    · gcongr
    · gcongr

end

/-! ### Reading -/

section

variable (n : ℤ)

/-- A digit has no lower-case form of its own. -/
theorem lowerChar_of_isDigit {c : Char} (h : c.isDigit = true) : Text.lowerChar c = [c] := by
  have hcode : c.toNat ≤ 57 := by
    simp only [Char.isDigit, Bool.and_eq_true, decide_eq_true_eq, UInt32.le_iff_toNat_le] at h
    exact h.2
  rw [Text.lowerChar, if_pos (by omega)]
  refine congrArg (fun lowered => [lowered]) (dif_neg ?_)
  rintro ⟨hupper, -⟩
  have hcapital : 65 ≤ c.toNat := UInt32.le_iff_toNat_le.1 hupper
  omega

/-- Digits are not the name of a number. -/
theorem ne_lowerChars {c : Char} (h : c.isDigit = true) (cs : List Char) (name : String)
    (hname : name.toList.head?.any Char.isDigit = false) :
    (String.ofList (Text.lowerChars (c :: cs)) == name) = false := by
  refine beq_eq_false_iff_ne.2 fun heq => ?_
  have hsigma : c ≠ Text.capitalSigma := by
    rintro rfl
    exact absurd h (by decide)
  rw [← heq, String.toList_ofList, Text.lowerChars, Text.lowerAfter, if_neg hsigma,
    lowerChar_of_isDigit h] at hname
  exact absurd h (Bool.eq_false_iff.1 hname)

/-- Digits to the end are all taken. -/
theorem someGrouped_of_isDigit {cs : List Char} (h : ∀ c ∈ cs, c.isDigit = true) :
    someGrouped cs = some (cs.map fun c => c.toNat - '0'.toNat, []) := by
  have hrun : cs.takeWhile (fun c => Text.isDecimal c || c == '_') = cs :=
    List.takeWhile_eq_self_iff.2 fun c hc => by rw [Text.isDecimal_of_isDigit (h c hc), Bool.true_or]
  rw [someGrouped, hrun]
  cases cs with
  | nil => rfl
  | cons c cs =>
    rw [if_neg (by simp), groupedDigits_of_isDigit h (.inl (List.cons_ne_nil c cs)),
      List.drop_length]
    rfl

/-- The digits of a natural number are read as the floating-point number nearest to it. -/
theorem unsignedFloat?_toDigits (negative : Bool) (k : ℕ) :
    unsignedFloat? negative (Nat.toDigits 10 k) = some (ofDecimal negative k 0) := by
  have hdigits : ∀ c ∈ Nat.toDigits 10 k, c.isDigit = true := fun c hc =>
    Nat.isDigit_of_mem_toDigits (by decide) (by decide) hc
  have hgrouped := someGrouped_of_isDigit hdigits
  have hvalue : ofDigits 10 ((Nat.toDigits 10 k).map fun c => c.toNat - '0'.toNat) = k :=
    (ofDigits_map _).trans Nat.ofDigitChars_ten_toDigits
  cases hcs : Nat.toDigits 10 k with
  | nil => exact absurd hcs Nat.toDigits_ne_nil
  | cons c cs =>
    rw [hcs] at hdigits hgrouped hvalue
    have hc := hdigits c List.mem_cons_self
    rw [unsignedFloat?]
    simp only [ne_lowerChars hc cs "inf" (by decide), ne_lowerChars hc cs "infinity" (by decide),
      ne_lowerChars hc cs "nan" (by decide), Bool.or_false, hgrouped,
      Option.bind_eq_bind, Option.bind_some, Option.pure_def]
    rw [List.append_nil, hvalue]
    rfl

/-- The text of an integer is read as the floating-point number nearest to it. -/
theorem float?_toString :
    float? (toString n).toList = some (ofDecimal (decide (n < 0)) n.natAbs 0) := by
  rw [float?, trimOf_toString, takeSign_toString]
  exact unsignedFloat?_toDigits _ _

/-- Cutting the floating-point number that the text of an integer is read as gives the integer exactly
if it is the value of such a number. -/
theorem truncate_float?_toString_iff :
    (float? (toString n).toList).bind (fun x => (dyadic? x).map Dyadic.truncate) = some n ↔
      IsExact n := by
  rw [float?_toString, Option.bind_some]
  constructor
  · intro h
    obtain ⟨d, hd, rfl⟩ := Option.map_eq_some_iff.1 h
    exact isExact_truncate (isBinary64_of_dyadic? hd)
  · intro h
    obtain ⟨d, hd, hnegative, hvalue⟩ := h.exists_value
    rw [← hnegative, ofDecimal_natAbs hd.dyadic?_toFloat hvalue, hd.dyadic?_toFloat, Option.map_some,
      Dyadic.truncate_of_value hnegative hvalue]

end

end ApiShell.Decimal
