import ApiShell.Decimal.Shortest
import Mathlib

/-!
# Fractions that round to a number

A finite number is a mantissa of at most 53 bits times a power of two, and its bits are these two side
by side (`toBits_of_dyadic?`).  The bits of a fraction are found by its own exponent, the one at which
its mantissa has 53 bits, or the least one.

Every fraction of the interval of a number is rounded to this number (`nearestBits_of_contains`).  Its
exponent is that of the number, except just below a power of two: there it is one less, and the
mantissa is rounded up to the next power.
-/

namespace ApiShell.Decimal

/-! ### Numbers of 64 bits -/

/-- The mantissa has at most 53 bits, and fewer only at the least exponent. -/
structure Dyadic.IsBinary64 (d : Dyadic) : Prop where
  mantissa_lt : d.mantissa < 2 ^ 53
  le_exponent : -1074 ≤ d.exponent
  exponent_le : d.exponent ≤ 971
  normal : d.exponent = -1074 ∨ 2 ^ 52 ≤ d.mantissa

/-- The bits of the absolute value. -/
def Dyadic.magnitudeBits (d : Dyadic) : ℕ := (d.exponent + 1074).toNat * 2 ^ 52 + d.mantissa

theorem isBinary64_of_dyadic? {x : Float} {d : Dyadic} (h : dyadic? x = some d) : d.IsBinary64 := by
  unfold dyadic? at h
  simp only [Nat.pow_eq] at h
  have hfraction : x.toBits.toNat % 2 ^ 52 < 2 ^ 52 := Nat.mod_lt _ (by norm_num)
  have hbiased : x.toBits.toNat / 2 ^ 52 % 2 ^ 11 < 2 ^ 11 := Nat.mod_lt _ (by norm_num)
  split at h
  · cases h
  split at h
  · obtain rfl := Option.some.inj h
    exact ⟨by dsimp only; omega, le_refl _, by norm_num, .inl rfl⟩
  · obtain rfl := Option.some.inj h
    exact ⟨by dsimp only; omega, by dsimp only; omega, by dsimp only; omega,
      .inr (by dsimp only; omega)⟩

/-- The bits of a number: its sign, its exponent and its mantissa. -/
theorem toBits_of_dyadic? {x : Float} {d : Dyadic} (h : dyadic? x = some d) :
    x.toBits.toNat = d.magnitudeBits + if d.negative then 2 ^ 63 else 0 := by
  unfold dyadic? at h
  simp only [Nat.pow_eq] at h
  have hlt : x.toBits.toNat < 2 ^ 64 := x.toBits.toNat_lt
  have hnegative : (x.toBits.toNat / 2 ^ 63 == 1) = decide (2 ^ 63 ≤ x.toBits.toNat) := by
    rw [Bool.eq_iff_iff, beq_iff_eq, decide_eq_true_iff]
    omega
  split at h
  · cases h
  split at h
  · obtain rfl := Option.some.inj h
    simp only [Dyadic.magnitudeBits, hnegative, decide_eq_true_eq]
    split <;> omega
  · obtain rfl := Option.some.inj h
    simp only [Dyadic.magnitudeBits, hnegative, decide_eq_true_eq]
    split <;> omega

/-- A number is known by its sign, its exponent and its mantissa. -/
theorem nearest_eq {x : Float} {d : Dyadic} (h : dyadic? x = some d) {num den : ℕ}
    (hbits : nearestBits num den = d.magnitudeBits) : nearest d.negative num den = x := by
  rw [nearest, hbits]
  have hsame : d.magnitudeBits + (if d.negative then Nat.pow 2 63 else 0) = x.toBits.toNat :=
    (toBits_of_dyadic? h).symm
  rw [hsame, UInt64.ofNat_toNat, Float.ofBits_toBits]

/-! ### The natural number nearest to a fraction -/

theorem roundHalfEven_eq_of_nat {num den m : ℕ} (hden : 0 < den)
    (hlow : 2 * (den * m) ≤ 2 * num + den) (hhigh : 2 * num ≤ 2 * (den * m) + den)
    (heven : m % 2 = 0 ∨ 2 * (den * m) < 2 * num + den ∧ 2 * num < 2 * (den * m) + den) :
    roundHalfEven num den = m := by
  have hsplit : den * (num / den) + num % den = num := Nat.div_add_mod num den
  have hr : num % den < den := Nat.mod_lt _ hden
  have hnext : den * (num / den + 1) = den * (num / den) + den := by ring
  have hcases : m = num / den ∨ m = num / den + 1 := by
    have hlower : num / den ≤ m := by
      by_contra hlt
      have := Nat.mul_le_mul_left den (show m + 1 ≤ num / den by omega)
      rw [Nat.mul_add, Nat.mul_one] at this
      omega
    have hupper : m ≤ num / den + 1 := by
      by_contra hlt
      have := Nat.mul_le_mul_left den (show num / den + 1 + 1 ≤ m by omega)
      rw [Nat.mul_add, Nat.mul_one] at this
      omega
    omega
  unfold roundHalfEven
  dsimp only
  rcases hcases with hm | hm <;> rw [hm] at hlow hhigh heven ⊢
  · split
    · rfl
    split
    · omega
    · rw [if_pos (by omega)]
  · rw [hnext] at hlow hhigh heven
    split
    · omega
    split
    · rfl
    · rw [if_neg (by omega)]

/-- A natural number from which a fraction is at most half away is the nearest one; at just half it
has to be even. -/
theorem roundHalfEven_eq {num den m : ℕ} (hden : 0 < den) (hlow : (m : ℚ) - 1 / 2 ≤ num / den)
    (hhigh : (num : ℚ) / den ≤ m + 1 / 2)
    (heven : m % 2 = 0 ∨ (m : ℚ) - 1 / 2 < num / den ∧ (num : ℚ) / den < m + 1 / 2) :
    roundHalfEven num den = m := by
  have hpos : (0 : ℚ) < den := by exact_mod_cast hden
  rw [le_div_iff₀ hpos] at hlow
  rw [div_le_iff₀ hpos] at hhigh
  rw [lt_div_iff₀ hpos, div_lt_iff₀ hpos] at heven
  have hlow' : (2 : ℚ) * (den * m) ≤ 2 * num + den := by linarith
  have hhigh' : (2 : ℚ) * num ≤ 2 * (den * m) + den := by linarith
  have heven' : m % 2 = 0 ∨ (2 : ℚ) * (den * m) < 2 * num + den ∧
      (2 : ℚ) * num < 2 * (den * m) + den := by
    refine heven.imp_right fun h => ⟨?_, ?_⟩
    · linarith [h.1]
    · linarith [h.2]
  exact roundHalfEven_eq_of_nat hden (by exact_mod_cast hlow') (by exact_mod_cast hhigh')
    (by exact_mod_cast heven')

/-! ### The exponent of a fraction -/

/-- At this exponent the mantissa of a fraction has 53 bits, or fewer at the least exponent. -/
structure IsExponentOf (q : ℚ) (e : ℤ) : Prop where
  le : -1074 ≤ e
  lt : q < 2 ^ (e + 53)
  least_or : e = -1074 ∨ (2 : ℚ) ^ (e + 52) ≤ q

theorem IsExponentOf.unique {q : ℚ} {e f : ℤ} (he : IsExponentOf q e) (hf : IsExponentOf q f) :
    e = f := by
  have hle {e f : ℤ} (he : IsExponentOf q e) (hf : IsExponentOf q f) : e ≤ f := by
    rcases he.least_or with rfl | hpow
    · exact hf.le
    · have hlt : (2 : ℚ) ^ (e + 52) < 2 ^ (f + 53) := hpow.trans_lt hf.lt
      have := (zpow_lt_zpow_iff_right₀ (by norm_num)).1 hlt
      omega
  exact le_antisymm (hle he hf) (hle hf he)

/-- An exponent with some bits more. -/
theorem two_zpow_add (e : ℤ) (n : ℕ) : (2 : ℚ) ^ (e + n) = 2 ^ n * 2 ^ e := by
  rw [zpow_add₀ (by norm_num), zpow_natCast, mul_comm]

/-- A power is multiplied to the numerator or to the denominator. -/
theorem pow_toNat_div (b : ℚ) (e : ℤ) : b ^ (-e).toNat / b ^ e.toNat = 1 / b ^ e := by
  rcases le_total 0 e with he | he
  · obtain ⟨n, rfl⟩ := Int.eq_ofNat_of_zero_le he
    simp
  · obtain ⟨n, hn⟩ := Int.eq_ofNat_of_zero_le (neg_nonneg.2 he)
    obtain rfl : e = -n := by omega
    simp

/-- Moving a power between numerator and denominator. -/
theorem scaled_eq (b num den : ℕ) (e : ℤ) :
    ((num * Nat.pow b (-e).toNat : ℕ) : ℚ) / (den * Nat.pow b e.toNat : ℕ) =
      (num : ℚ) / den / b ^ e := by
  simp only [Nat.pow_eq]
  push_cast
  rw [mul_div_mul_comm, pow_toNat_div, mul_one_div]

/-- The numbers of bits of numerator and denominator give the exponent up to one. -/
theorem lt_of_log2 {num den : ℕ} (hnum : num ≠ 0) (hden : den ≠ 0) :
    (2 : ℚ) ^ ((num.log2 : ℤ) - den.log2 - 53 + 52) < (num : ℚ) / den ∧
      (num : ℚ) / den < 2 ^ ((num.log2 : ℤ) - den.log2 - 53 + 54) := by
  have hpos : (0 : ℚ) < den := by exact_mod_cast Nat.pos_of_ne_zero hden
  have hnumlow : (2 : ℚ) ^ num.log2 ≤ num := by exact_mod_cast Nat.log2_self_le hnum
  have hnumhigh : (num : ℚ) < 2 ^ (num.log2 + 1) := by exact_mod_cast Nat.lt_log2_self
  have hdenlow : (2 : ℚ) ^ den.log2 ≤ den := by exact_mod_cast Nat.log2_self_le hden
  have hdenhigh : (den : ℚ) < 2 ^ (den.log2 + 1) := by exact_mod_cast Nat.lt_log2_self
  have hlow : (2 : ℚ) ^ ((num.log2 : ℤ) - den.log2 - 53 + 52) * 2 ^ (den.log2 + 1) =
      2 ^ num.log2 := by
    rw [← zpow_natCast, ← zpow_natCast, ← zpow_add₀ (by norm_num)]
    congr 1
    push_cast
    ring
  have hhigh : (2 : ℚ) ^ ((num.log2 : ℤ) - den.log2 - 53 + 54) * 2 ^ den.log2 =
      2 ^ (num.log2 + 1) := by
    rw [← zpow_natCast, ← zpow_natCast, ← zpow_add₀ (by norm_num)]
    congr 1
    push_cast
    ring
  constructor
  · rw [lt_div_iff₀ hpos]
    calc (2 : ℚ) ^ ((num.log2 : ℤ) - den.log2 - 53 + 52) * den
        < 2 ^ ((num.log2 : ℤ) - den.log2 - 53 + 52) * 2 ^ (den.log2 + 1) := by gcongr
      _ = 2 ^ num.log2 := hlow
      _ ≤ num := hnumlow
  · rw [div_lt_iff₀ hpos]
    calc (num : ℚ) < 2 ^ (num.log2 + 1) := hnumhigh
      _ = 2 ^ ((num.log2 : ℤ) - den.log2 - 53 + 54) * 2 ^ den.log2 := hhigh.symm
      _ ≤ 2 ^ ((num.log2 : ℤ) - den.log2 - 53 + 54) * den := by gcongr

/-- Whether a scaled fraction has more than 53 bits. -/
theorem le_scaled_iff {num den : ℕ} (hden : den ≠ 0) (e : ℤ) :
    2 ^ 53 ≤ num * Nat.pow 2 (-e).toNat / (den * Nat.pow 2 e.toNat) ↔
      (2 : ℚ) ^ (e + 53) ≤ (num : ℚ) / den := by
  have hpos : 0 < den * Nat.pow 2 e.toNat :=
    Nat.mul_pos (Nat.pos_of_ne_zero hden) (Nat.pow_pos (by decide))
  have hpos' : (0 : ℚ) < (den * Nat.pow 2 e.toNat : ℕ) := by exact_mod_cast hpos
  have hstep : (0 : ℚ) < 2 ^ e := by positivity
  have hsplit : (2 : ℚ) ^ (e + 53) = 2 ^ 53 * 2 ^ e := two_zpow_add e 53
  have hscaled := scaled_eq 2 num den e
  rw [Nat.cast_ofNat] at hscaled
  rw [Nat.le_div_iff_mul_le hpos, hsplit, ← le_div_iff₀ hstep, ← hscaled,
    le_div_iff₀ hpos']
  constructor
  · intro h
    exact_mod_cast h
  · intro h
    exact_mod_cast h

/-- The bits of a fraction are found at its exponent. -/
theorem nearestBits_eq {num den : ℕ} (hnum : num ≠ 0) (hden : den ≠ 0) {e : ℤ}
    (he : IsExponentOf ((num : ℚ) / den) e) :
    nearestBits num den = min ((e + 1074).toNat * 2 ^ 52 +
      roundHalfEven (num * Nat.pow 2 (-e).toNat) (den * Nat.pow 2 e.toNat)) (2047 * 2 ^ 52) := by
  obtain ⟨hlow, hhigh⟩ := lt_of_log2 hnum hden
  unfold nearestBits
  rw [if_neg hnum]
  dsimp only
  generalize (num.log2 : ℤ) - den.log2 - 53 = guess at hlow hhigh
  have hchosen : (if num * Nat.pow 2 (-max guess (-1074)).toNat /
      (den * Nat.pow 2 (max guess (-1074)).toNat) ≥ Nat.pow 2 53 then max guess (-1074) + 1
      else max guess (-1074)) = e := by
    refine IsExponentOf.unique (q := (num : ℚ) / den) ?_ he
    rcases le_or_gt (-1074) guess with hle | hlt
    · rw [max_eq_left hle]
      split
      · next hmany =>
        have hmany := (le_scaled_iff hden guess).1 hmany
        refine ⟨by omega, ?_, .inr ?_⟩
        · rwa [show guess + 1 + 53 = guess + 54 by ring]
        · rwa [show guess + 1 + 52 = guess + 53 by ring]
      · next hfew =>
        have hfew := not_le.1 (mt (le_scaled_iff hden guess).2 hfew)
        exact ⟨hle, hfew, .inr hlow.le⟩
    · -- Below the least exponent the fraction has fewer bits.
      have hpow : (2 : ℚ) ^ (guess + 54) ≤ 2 ^ (-1074 + 53 : ℤ) :=
        zpow_le_zpow_right₀ (by norm_num) (by omega)
      have hfew := hhigh.trans_le hpow
      rw [max_eq_right hlt.le]
      split
      · next hmany => exact absurd ((le_scaled_iff hden _).1 hmany) (not_le.2 hfew)
      · exact ⟨le_refl _, hfew, .inl rfl⟩
  rw [hchosen]
  rfl

/-! ### The interval of a number -/

/-- The fraction lies between the ends of the interval, or at one of them if they belong to it. -/
def Interval.Contains (i : Interval) (q : ℚ) : Prop :=
  if i.closed then (i.low : ℚ) / i.scale ≤ q ∧ q ≤ (i.high : ℚ) / i.scale
  else (i.low : ℚ) / i.scale < q ∧ q < (i.high : ℚ) / i.scale

/-- A number of quarters of the unit of a number, as the interval has it. -/
theorem quarters_eq (e : ℤ) (k : ℕ) :
    ((k * Nat.pow 2 (e - 2).toNat : ℕ) : ℚ) / (Nat.pow 2 (2 - e).toNat : ℕ) = k / 4 * 2 ^ e := by
  have hpow := pow_toNat_div 2 (2 - e)
  rw [show -(2 - e) = e - 2 by ring] at hpow
  simp only [Nat.pow_eq]
  push_cast
  rw [mul_div_assoc, hpow, zpow_sub₀ (by norm_num)]
  norm_num
  ring

/-- How far below a number the fractions round to it, in quarters of its unit. -/
def Dyadic.quartersBelow (d : Dyadic) : ℕ := if d.mantissa = 2 ^ 52 ∧ -1074 < d.exponent then 1 else 2

theorem Dyadic.quartersBelow_le (d : Dyadic) : d.quartersBelow ≤ 2 := by
  unfold Dyadic.quartersBelow
  split <;> omega

theorem Dyadic.cast_quartersBelow_le (d : Dyadic) : (d.quartersBelow : ℚ) ≤ 2 := by
  exact_mod_cast d.quartersBelow_le

namespace Interval

theorem scale_ofDyadic_ne_zero (d : Dyadic) : (ofDyadic d).scale ≠ 0 :=
  Nat.pos_iff_ne_zero.1 (Nat.pow_pos (by decide))

theorem low_ofDyadic (d : Dyadic) (hmantissa : d.mantissa ≠ 0) :
    ((ofDyadic d).low : ℚ) / (ofDyadic d).scale =
      ((d.mantissa : ℚ) - d.quartersBelow / 4) * 2 ^ d.exponent := by
  have hbelow := d.quartersBelow_le
  have hlow : (ofDyadic d).low =
      (4 * d.mantissa - d.quartersBelow) * Nat.pow 2 (d.exponent - 2).toNat := by
    simp [ofDyadic, Dyadic.quartersBelow]
  rw [hlow]
  refine (quarters_eq _ _).trans ?_
  rw [Nat.cast_sub (by omega)]
  push_cast
  ring

theorem value_ofDyadic (d : Dyadic) :
    ((ofDyadic d).value : ℚ) / (ofDyadic d).scale = d.mantissa * 2 ^ d.exponent := by
  refine (quarters_eq _ _).trans ?_
  push_cast
  ring

theorem high_ofDyadic (d : Dyadic) :
    ((ofDyadic d).high : ℚ) / (ofDyadic d).scale = ((d.mantissa : ℚ) + 1 / 2) * 2 ^ d.exponent := by
  refine (quarters_eq _ _).trans ?_
  push_cast
  ring

/-- The fractions that round to a number: half a unit on both sides, less below a power of two. -/
theorem contains_ofDyadic_iff {d : Dyadic} (hmantissa : d.mantissa ≠ 0) (q : ℚ) :
    (ofDyadic d).Contains q ↔
      if d.mantissa % 2 = 0 then
        ((d.mantissa : ℚ) - d.quartersBelow / 4) * 2 ^ d.exponent ≤ q ∧
          q ≤ ((d.mantissa : ℚ) + 1 / 2) * 2 ^ d.exponent
      else ((d.mantissa : ℚ) - d.quartersBelow / 4) * 2 ^ d.exponent < q ∧
          q < ((d.mantissa : ℚ) + 1 / 2) * 2 ^ d.exponent := by
  rw [Contains, low_ofDyadic d hmantissa, high_ofDyadic]
  by_cases heven : d.mantissa % 2 = 0
  · rw [if_pos heven, if_pos (show (ofDyadic d).closed = true from decide_eq_true heven)]
  · rw [if_neg heven, if_neg (show ¬(ofDyadic d).closed = true by simpa [ofDyadic] using heven)]

/-- The ends of the interval, which may belong to it or not. -/
theorem Contains.bounds {d : Dyadic} {q : ℚ} (hmantissa : d.mantissa ≠ 0)
    (h : (ofDyadic d).Contains q) :
    ((d.mantissa : ℚ) - d.quartersBelow / 4) * 2 ^ d.exponent ≤ q ∧
      q ≤ ((d.mantissa : ℚ) + 1 / 2) * 2 ^ d.exponent := by
  rw [contains_ofDyadic_iff hmantissa] at h
  split at h
  · exact h
  · exact ⟨h.1.le, h.2.le⟩

end Interval

/-! ### Rounding to a number -/

section

variable {d : Dyadic} {num den : ℕ}

/-- A fraction at most half a unit away from `m` units is rounded to these; at just half, `m` has to
be even. -/
theorem roundHalfEven_scaled_eq (hden : den ≠ 0) {m : ℕ} {e : ℤ}
    (hlow : ((m : ℚ) - 1 / 2) * 2 ^ e ≤ num / den) (hhigh : (num : ℚ) / den ≤ (m + 1 / 2) * 2 ^ e)
    (heven : m % 2 = 0 ∨
      ((m : ℚ) - 1 / 2) * 2 ^ e < num / den ∧ (num : ℚ) / den < (m + 1 / 2) * 2 ^ e) :
    roundHalfEven (num * Nat.pow 2 (-e).toNat) (den * Nat.pow 2 e.toNat) = m := by
  have hunit : (0 : ℚ) < 2 ^ e := by positivity
  have hpos : 0 < den * Nat.pow 2 e.toNat :=
    Nat.mul_pos (Nat.pos_of_ne_zero hden) (Nat.pow_pos (by decide))
  apply roundHalfEven_eq hpos
  · rwa [scaled_eq, Nat.cast_ofNat, le_div_iff₀ hunit]
  · rwa [scaled_eq, Nat.cast_ofNat, div_le_iff₀ hunit]
  · rwa [scaled_eq, Nat.cast_ofNat, lt_div_iff₀ hunit, div_lt_iff₀ hunit]

/-- An exponent and a mantissa that add up to the bits of a number are not cut down to those of
infinity. -/
theorem nearestBits_eq_magnitudeBits (hd : d.IsBinary64) (hnum : num ≠ 0) (hden : den ≠ 0) {m : ℕ}
    {e : ℤ} (he : IsExponentOf ((num : ℚ) / den) e)
    (hround : roundHalfEven (num * Nat.pow 2 (-e).toNat) (den * Nat.pow 2 e.toNat) = m)
    (hbits : (e + 1074).toNat * 2 ^ 52 + m = d.magnitudeBits) :
    nearestBits num den = d.magnitudeBits := by
  have hmantissa := hd.mantissa_lt
  have hexponent := hd.exponent_le
  have hbounded : d.magnitudeBits ≤ 2047 * 2 ^ 52 := by
    unfold Dyadic.magnitudeBits
    omega
  rw [nearestBits_eq hnum hden he, hround, hbits, min_eq_left hbounded]

/-- Just below a power of two the fractions are counted in half units. -/
theorem nearestBits_of_lt_pow (hd : d.IsBinary64) (hnum : num ≠ 0) (hden : den ≠ 0)
    (hexponent : d.exponent ≠ -1074) (hlt : (num : ℚ) / den < 2 ^ (d.exponent + 52))
    (hlow : ((d.mantissa : ℚ) - d.quartersBelow / 4) * 2 ^ d.exponent ≤ num / den) :
    nearestBits num den = d.magnitudeBits := by
  have hle := hd.le_exponent
  have hunit : (0 : ℚ) < 2 ^ d.exponent := by positivity
  have hsplit : (2 : ℚ) ^ (d.exponent + 52) = 2 ^ 52 * 2 ^ d.exponent := two_zpow_add _ 52
  have hhalf : (2 : ℚ) ^ d.exponent = 2 * 2 ^ (d.exponent - 1) := by
    rw [zpow_sub₀ (by norm_num)]
    ring
  have hmantissa : d.mantissa = 2 ^ 52 := by
    have hmany : 2 ^ 52 ≤ d.mantissa := hd.normal.resolve_left hexponent
    have hquarters := d.cast_quartersBelow_le
    have hfew : (d.mantissa : ℚ) - d.quartersBelow / 4 < 2 ^ 52 :=
      lt_of_mul_lt_mul_right (hlow.trans_lt (hsplit ▸ hlt)) hunit.le
    have hfew' : (d.mantissa : ℚ) < (2 ^ 52 + 1 : ℕ) := by
      push_cast
      linarith
    have := Nat.cast_lt.1 hfew'
    omega
  have hquarter : d.quartersBelow = 1 := if_pos ⟨hmantissa, by omega⟩
  rw [hmantissa, hquarter, hhalf] at hlow
  rw [hsplit, hhalf] at hlt
  have hhalfunit : (0 : ℚ) < 2 ^ (d.exponent - 1) := by positivity
  push_cast at hlow
  refine nearestBits_eq_magnitudeBits hd hnum hden ⟨by omega, ?_, .inr ?_⟩
    (roundHalfEven_scaled_eq (m := 2 ^ 53) (e := d.exponent - 1) hden ?_ ?_ (.inl (by norm_num))) ?_
  · rw [show d.exponent - 1 + 53 = d.exponent + 52 by ring, hsplit, hhalf]
    exact hlt
  · rw [zpow_add₀ (by norm_num)]
    refine le_trans ?_ hlow
    norm_num
    linarith
  · push_cast
    linarith
  · push_cast
    linarith
  · rw [Dyadic.magnitudeBits, hmantissa]
    omega

/-- Every fraction of the interval of a number is rounded to this number. -/
theorem nearestBits_of_contains (hd : d.IsBinary64) (hmantissa : d.mantissa ≠ 0) (hden : den ≠ 0)
    (h : (Interval.ofDyadic d).Contains ((num : ℚ) / den)) :
    nearestBits num den = d.magnitudeBits := by
  obtain ⟨hlow, hhigh⟩ := h.bounds hmantissa
  rw [Interval.contains_ofDyadic_iff hmantissa] at h
  have hunit : (0 : ℚ) < 2 ^ d.exponent := by positivity
  have hquarters := d.cast_quartersBelow_le
  have hpos : (1 : ℚ) ≤ d.mantissa := by exact_mod_cast Nat.one_le_iff_ne_zero.2 hmantissa
  have heven : d.mantissa % 2 = 0 ∨
      ((d.mantissa : ℚ) - d.quartersBelow / 4) * 2 ^ d.exponent < num / den ∧
        (num : ℚ) / den < (d.mantissa + 1 / 2) * 2 ^ d.exponent := by
    split at h
    · next heven => exact .inl heven
    · exact .inr h
  have hnum : num ≠ 0 := by
    rintro rfl
    have hpositive : 0 < ((d.mantissa : ℚ) - d.quartersBelow / 4) * 2 ^ d.exponent :=
      mul_pos (by linarith) hunit
    simp only [Nat.cast_zero, zero_div] at hlow
    linarith
  by_cases habove : d.exponent = -1074 ∨ (2 : ℚ) ^ (d.exponent + 52) ≤ num / den
  · have hhalf : ((d.mantissa : ℚ) - 1 / 2) * 2 ^ d.exponent ≤
        ((d.mantissa : ℚ) - d.quartersBelow / 4) * 2 ^ d.exponent :=
      mul_le_mul_of_nonneg_right (by linarith) hunit.le
    refine nearestBits_eq_magnitudeBits hd hnum hden ⟨hd.le_exponent, ?_, habove⟩
      (roundHalfEven_scaled_eq hden (hhalf.trans hlow) hhigh
        (heven.imp_right fun h => ⟨hhalf.trans_lt h.1, h.2⟩)) rfl
    have hbits : (d.mantissa : ℚ) + 1 ≤ 2 ^ 53 := by exact_mod_cast hd.mantissa_lt
    calc (num : ℚ) / den ≤ (d.mantissa + 1 / 2) * 2 ^ d.exponent := hhigh
      _ < 2 ^ 53 * 2 ^ d.exponent := by
        gcongr
        linarith
      _ = 2 ^ (d.exponent + 53) := (two_zpow_add _ 53).symm
  · obtain ⟨hexponent, hlt⟩ := not_or.1 habove
    exact nearestBits_of_lt_pow hd hnum hden hexponent (not_le.1 hlt) hlow

end

end ApiShell.Decimal
