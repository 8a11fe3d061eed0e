import ApiShell.Proofs.Decimal.Layout
import ApiShell.Proofs.Decimal.Rounding

/-!
# The shortest decimal of a number

The shortest decimal of a number lies in the interval of the fractions that round to it
(`contains_shortest`), so it is read back as this number (`ofDecimal_eq`).

That seventeen digits suffice is seen from the width of the interval.  A grid whose points lie closer
together than its ends has a point in it (`isSome_onGrid?`), and at seventeen digits the points are
less than a unit of the number apart, or three quarters of a unit above a power of two.
-/

namespace ApiShell.Decimal

/-! ### Digits and their value -/

/-- The digits of `c · 10 ^ e` without the zeros at the end. -/
def Digits.ofNat (c : ℕ) (e : ℤ) : Digits :=
  ⟨dropTrailingZeros (Nat.repr c).toList, e + (Nat.repr c).toList.length⟩

/-- The decimal that digits stand for. -/
def Digits.value (r : Digits) : ℚ :=
  (Nat.ofDigitChars 10 r.digits 0 : ℚ) * 10 ^ (r.point - r.digits.length)

/-- Digits as they are written: there is one, and only the digits of zero begin with a zero. -/
structure Digits.IsNumeral (r : Digits) : Prop where
  isDigit : ∀ c ∈ r.digits, c.isDigit = true
  ne_nil : r.digits ≠ []
  eq_zero : r.digits.head? = some '0' → r = ⟨['0'], 1⟩

/-- Zeros behind the digits are made up for by the exponent. -/
theorem Digits.mul_pow_eq_value {r : Digits} {n : ℕ} {e : ℤ}
    (he : e + n = r.point - r.digits.length) :
    ((10 ^ n * Nat.ofDigitChars 10 r.digits 0 : ℕ) : ℚ) * 10 ^ e = r.value := by
  rw [value, ← he, zpow_add₀ (by norm_num), zpow_natCast]
  push_cast
  ring

theorem exists_eq_dropTrailingZeros (cs : List Char) :
    ∃ n, cs = dropTrailingZeros cs ++ List.replicate n '0' := by
  have hzeros : ∀ c ∈ cs.reverse.takeWhile (· == '0'), c = '0' := by
    intro c hc
    exact beq_iff_eq.1 (List.mem_takeWhile_imp (p := (· == '0')) hc)
  refine ⟨(cs.reverse.takeWhile (· == '0')).length, ?_⟩
  have hsplit := congrArg List.reverse
    (List.takeWhile_append_dropWhile (p := (· == '0')) (l := cs.reverse))
  rw [List.reverse_append, List.reverse_reverse, List.eq_replicate_of_mem hzeros,
    List.reverse_replicate] at hsplit
  exact hsplit.symm

/-- A number other than zero does not begin with a zero. -/
theorem head?_toDigits_ne {n : ℕ} (hn : n ≠ 0) : (Nat.toDigits 10 n).head? ≠ some '0' := by
  induction n using Nat.strong_induction_on with
  | h n ih =>
    rw [Nat.toDigits_eq_if (by decide)]
    split
    · simpa using hn
    · next hlarge =>
      rw [List.head?_append_of_ne_nil _ Nat.toDigits_ne_nil]
      exact ih (n / 10) (by omega) (by omega)

theorem Digits.digits_ofNat (c : ℕ) (e : ℤ) :
    (ofNat c e).digits = dropTrailingZeros (Nat.toDigits 10 c) :=
  congrArg dropTrailingZeros Nat.toList_repr

theorem Digits.point_ofNat (c : ℕ) (e : ℤ) :
    (ofNat c e).point = e + (Nat.toDigits 10 c).length :=
  congrArg (fun cs : List Char => e + (cs.length : ℤ)) Nat.toList_repr

theorem Digits.value_ofNat (c : ℕ) (e : ℤ) : (ofNat c e).value = c * 10 ^ e := by
  obtain ⟨n, hsplit⟩ := exists_eq_dropTrailingZeros (Nat.toDigits 10 c)
  have hnumber : 10 ^ n * Nat.ofDigitChars 10 (ofNat c e).digits 0 = c := by
    rw [digits_ofNat, ← Nat.ofDigitChars_replicate_zero, ← Nat.ofDigitChars_append, ← hsplit,
      Nat.ofDigitChars_ten_toDigits]
  have hexponent : e + n = (ofNat c e).point - (ofNat c e).digits.length := by
    have hlength := congrArg List.length hsplit
    rw [List.length_append, List.length_replicate] at hlength
    rw [digits_ofNat, point_ofNat]
    omega
  rw [← mul_pow_eq_value hexponent, hnumber]

theorem Digits.isNumeral_ofNat {c : ℕ} (hc : c ≠ 0) (e : ℤ) : (ofNat c e).IsNumeral := by
  obtain ⟨n, hsplit⟩ := exists_eq_dropTrailingZeros (Nat.toDigits 10 c)
  have hhead := head?_toDigits_ne hc
  have hne : dropTrailingZeros (Nat.toDigits 10 c) ≠ [] := by
    intro hnil
    rw [hnil, List.nil_append] at hsplit
    cases n with
    | zero => exact Nat.toDigits_ne_nil hsplit
    | succ n => exact hhead (congrArg List.head? hsplit)
  refine ⟨?_, ?_, ?_⟩
  · rw [digits_ofNat]
    intro d hd
    exact Nat.isDigit_of_mem_toDigits (by decide) (by decide) (mem_of_mem_dropTrailingZeros hd)
  · rwa [digits_ofNat]
  · rw [digits_ofNat]
    intro hzero
    rw [hsplit, List.head?_append_of_ne_nil _ hne] at hhead
    exact absurd hzero hhead

/-! ### Points of a grid -/

namespace Interval

variable {i : Interval} {c : ℕ} {e : ℤ}

theorem contains_of_lt {q : ℚ} (hlow : (i.low : ℚ) / i.scale < q) (hhigh : q < (i.high : ℚ) / i.scale) :
    i.Contains q := by
  unfold Contains
  split
  · exact ⟨hlow.le, hhigh.le⟩
  · exact ⟨hlow, hhigh⟩

/-- The test of a grid point asks whether the point lies in the interval. -/
theorem holds_iff (hscale : i.scale ≠ 0) : i.holds c e = true ↔ i.Contains ((c : ℚ) * 10 ^ e) := by
  have hpos : (0 : ℚ) < i.scale := by exact_mod_cast Nat.pos_of_ne_zero hscale
  have hdown : (0 : ℚ) < 10 ^ (-e).toNat := by positivity
  have hpower : (10 : ℚ) ^ e = 10 ^ e.toNat / 10 ^ (-e).toNat := by
    rw [← inv_inj, inv_div, pow_toNat_div, one_div]
  have hle (n : ℕ) : (n : ℚ) / i.scale ≤ c * 10 ^ e ↔
      n * Nat.pow 10 (-e).toNat ≤ c * Nat.pow 10 e.toNat * i.scale := by
    rw [hpower, ← mul_div_assoc, div_le_div_iff₀ hpos hdown]
    exact_mod_cast Iff.rfl
  have hge (n : ℕ) : (c : ℚ) * 10 ^ e ≤ (n : ℚ) / i.scale ↔
      c * Nat.pow 10 e.toNat * i.scale ≤ n * Nat.pow 10 (-e).toNat := by
    rw [hpower, ← mul_div_assoc, div_le_div_iff₀ hdown hpos]
    exact_mod_cast Iff.rfl
  unfold holds Contains
  split
  · rw [hle, hge, Bool.and_eq_true, decide_eq_true_iff, decide_eq_true_iff]
  · rw [← not_le, ← not_le, hle, hge, Bool.and_eq_true, decide_eq_true_iff, decide_eq_true_iff,
      not_le, not_le]

theorem roundHalfEven_cases (num den : ℕ) :
    roundHalfEven num den = num / den ∨ roundHalfEven num den = num / den + 1 := by
  unfold roundHalfEven
  dsimp only
  split
  · exact .inl rfl
  split
  · exact .inr rfl
  · exact ite_eq_or_eq _ _ _

/-- The point found on a grid passes the test. -/
theorem holds_of_onGrid? (h : i.onGrid? e = some c) : i.holds c e = true := by
  unfold onGrid? at h
  dsimp only at h
  generalize i.value * Nat.pow 10 (-e).toNat = num at h
  generalize i.scale * Nat.pow 10 e.toNat = den at h
  split at h
  · next hfloor hnext =>
    rcases roundHalfEven_cases num den with hround | hround <;> rw [hround] at h
    · exact Option.some.inj h ▸ hfloor
    · exact Option.some.inj h ▸ hnext
  · next hfloor _ => exact Option.some.inj h ▸ hfloor
  · next _ hnext => exact Option.some.inj h ▸ hnext
  · cases h

/-- A grid with points closer together than the ends of the interval has a point in it: of the two
points around the value, one is above the lower end, or the other below the upper end. -/
theorem isSome_onGrid? (hscale : i.scale ≠ 0) (hlow : i.low < i.value) (hhigh : i.value < i.high)
    (hfine : (10 : ℚ) ^ e < (i.high : ℚ) / i.scale - (i.low : ℚ) / i.scale) :
    (i.onGrid? e).isSome = true := by
  have hpos : (0 : ℚ) < i.scale := by exact_mod_cast Nat.pos_of_ne_zero hscale
  have hstep : (0 : ℚ) < 10 ^ e := by positivity
  have hlow' : (i.low : ℚ) / i.scale < i.value / i.scale := by
    gcongr
  have hhigh' : (i.value : ℚ) / i.scale < i.high / i.scale := by
    gcongr
  have hquotient := scaled_eq 10 i.value i.scale e
  unfold onGrid?
  dsimp only
  generalize i.value * Nat.pow 10 (-e).toNat = num at hquotient ⊢
  generalize i.scale * Nat.pow 10 e.toNat = den at hquotient ⊢
  rw [Nat.cast_ofNat] at hquotient
  have hfloor : ((num / den : ℕ) : ℚ) * 10 ^ e ≤ i.value / i.scale := by
    rw [← le_div_iff₀ hstep, ← hquotient]
    exact Nat.cast_div_le
  have hnext : (i.value : ℚ) / i.scale < ((num / den + 1 : ℕ) : ℚ) * 10 ^ e := by
    rw [← div_lt_iff₀ hstep, ← hquotient, Nat.cast_add, Nat.cast_one, ← Nat.floor_div_eq_div (K := ℚ)]
    exact Nat.lt_floor_add_one _
  split
  · rfl
  · rfl
  · rfl
  · next hfloorfails hnextfails =>
    exfalso
    have hbelow : ((num / den : ℕ) : ℚ) * 10 ^ e ≤ i.low / i.scale := by
      by_contra habove
      have hholds := (holds_iff hscale).2 (contains_of_lt (not_le.1 habove) (hfloor.trans_lt hhigh'))
      rw [hfloorfails] at hholds
      cases hholds
    have habove : (i.high : ℚ) / i.scale ≤ ((num / den + 1 : ℕ) : ℚ) * 10 ^ e := by
      by_contra hbelow
      have hholds := (holds_iff hscale).2 (contains_of_lt (hlow'.trans hnext) (not_le.1 hbelow))
      rw [hnextfails] at hholds
      cases hholds
    rw [Nat.cast_add, Nat.cast_one, add_mul, one_mul] at habove
    linarith

/-- The search tries one grid after the other, so it ends at a grid with a point. -/
theorem shortestFrom_eq {places : ℤ} {fuel count : ℕ}
    (h : ∃ k < fuel, (i.onGrid? (places - (count + k : ℕ))).isSome = true) :
    ∃ c e, i.onGrid? e = some c ∧ i.shortestFrom places fuel count = Digits.ofNat c e := by
  induction fuel generalizing count with
  | zero =>
    obtain ⟨k, hk, -⟩ := h
    exact absurd hk (Nat.not_lt_zero k)
  | succ fuel ih =>
    rw [shortestFrom]
    dsimp only
    split
    · next c hgrid => exact ⟨c, _, hgrid, rfl⟩
    · next hgrid =>
      apply ih
      obtain ⟨k, hk, hsome⟩ := h
      cases k with
      | zero =>
        rw [Nat.add_zero, hgrid] at hsome
        cases hsome
      | succ k =>
        refine ⟨k, by omega, ?_⟩
        rwa [Nat.add_right_comm, Nat.add_assoc]

end Interval

/-! ### Seventeen digits -/

theorem lt_pow_length_repr (n : ℕ) : n < 10 ^ (Nat.repr n).length :=
  (Nat.length_repr_le_iff Nat.length_repr_pos).1 le_rfl

theorem pow_length_repr_le {n : ℕ} (hn : n ≠ 0) : 10 ^ ((Nat.repr n).length - 1) ≤ n := by
  have hpos : 0 < (Nat.repr n).length := Nat.length_repr_pos
  by_contra hlt
  rcases Nat.eq_zero_or_pos ((Nat.repr n).length - 1) with hone | hmore
  · rw [hone, pow_zero] at hlt
    omega
  · have hle := (Nat.length_repr_le_iff hmore).2 (not_le.1 hlt)
    omega

/-- The digits of the whole part count the powers of ten of a fraction whose point was moved by `k`
places. -/
theorem pow_length_repr_sub_le {num den t : ℕ} {k : ℤ} (ht : (t : ℚ) = 10 ^ k)
    (h : (10 : ℚ) ^ (-k) ≤ num / den) :
    (10 : ℚ) ^ ((Nat.repr (num * t / den)).length - k - 1) ≤ num / den := by
  have hscaled : (num : ℚ) / den * 10 ^ k = ((num * t : ℕ) : ℚ) / den := by
    rw [Nat.cast_mul, ht, div_mul_eq_mul_div]
  have hfloor : ((num * t / den : ℕ) : ℚ) ≤ num / den * 10 ^ k := by
    rw [hscaled]
    exact Nat.cast_div_le
  have hne : num * t / den ≠ 0 := by
    rw [← Nat.floor_div_eq_div (K := ℚ), ← hscaled]
    refine (Nat.floor_pos.2 ?_).ne'
    rwa [zpow_neg, inv_le_iff_one_le_mul₀ (by positivity)] at h
  have hpower := pow_length_repr_le hne
  generalize num * t / den = n at hfloor hpower ⊢
  have hpos : 0 < (Nat.repr n).length := Nat.length_repr_pos
  have hexponent : ((Nat.repr n).length - k - 1 : ℤ) = ((Nat.repr n).length - 1 : ℕ) - k := by omega
  rw [hexponent, zpow_sub₀ (by norm_num), zpow_natCast, div_le_iff₀ (by positivity)]
  calc (10 : ℚ) ^ ((Nat.repr n).length - 1) ≤ n := by exact_mod_cast hpower
    _ ≤ num / den * 10 ^ k := hfloor

theorem pow_placesBefore_le {num den : ℕ} (h : (10 : ℚ) ^ (-400 : ℤ) ≤ num / den) :
    (10 : ℚ) ^ (placesBefore num den - 1) ≤ num / den :=
  pow_length_repr_sub_le (by simp only [Nat.pow_eq, Nat.cast_pow, Nat.cast_ofNat]; rfl) h

/-- A decimal that is not too small is not zero. -/
theorem ne_zero_of_le_mul_pow {c : ℕ} {e : ℤ} (h : (10 : ℚ) ^ (-400 : ℤ) ≤ c * 10 ^ e) : c ≠ 0 := by
  rintro rfl
  have hpositive : (0 : ℚ) < 10 ^ (-400 : ℤ) := by positivity
  rw [Nat.cast_zero, zero_mul] at h
  linarith

section

variable {d : Dyadic}

/-- The numbers of 64 bits lie far within these powers of ten. -/
theorem Interval.Contains.magnitude {q : ℚ} (hd : d.IsBinary64) (hmantissa : d.mantissa ≠ 0)
    (h : (ofDyadic d).Contains q) : (10 : ℚ) ^ (-400 : ℤ) ≤ q ∧ q < 10 ^ (400 : ℤ) := by
  obtain ⟨hlow, hhigh⟩ := h.bounds hmantissa
  have hpos : (1 : ℚ) ≤ d.mantissa := by exact_mod_cast Nat.one_le_iff_ne_zero.2 hmantissa
  have hquarters := d.cast_quartersBelow_le
  have hbits : (d.mantissa : ℚ) + 1 ≤ 2 ^ 53 := by exact_mod_cast hd.mantissa_lt
  have hthousand : (2 : ℚ) ^ (1200 : ℤ) ≤ 10 ^ (400 : ℤ) := by
    rw [show (1200 : ℤ) = 3 * 400 by norm_num, zpow_mul]
    exact zpow_le_zpow_left₀ (by norm_num) (by norm_num) (by norm_num)
  constructor
  · calc (10 : ℚ) ^ (-400 : ℤ) ≤ 2 ^ (-1200 : ℤ) := by
          rw [zpow_neg, zpow_neg]
          gcongr
      _ ≤ 2 ^ (d.exponent - 1) := zpow_le_zpow_right₀ (by norm_num) (by have := hd.le_exponent; omega)
      _ = 1 / 2 * 2 ^ d.exponent := by
          rw [zpow_sub₀ (by norm_num)]
          ring
      _ ≤ (d.mantissa - d.quartersBelow / 4) * 2 ^ d.exponent :=
          mul_le_mul_of_nonneg_right (by linarith) (by positivity)
      _ ≤ q := hlow
  · calc q ≤ (d.mantissa + 1 / 2) * 2 ^ d.exponent := hhigh
      _ < 2 ^ 53 * 2 ^ d.exponent := mul_lt_mul_of_pos_right (by linarith) (by positivity)
      _ = 2 ^ (d.exponent + 53) := (two_zpow_add _ 53).symm
      _ ≤ 2 ^ (1200 : ℤ) := zpow_le_zpow_right₀ (by norm_num) (by have := hd.exponent_le; omega)
      _ ≤ 10 ^ (400 : ℤ) := hthousand

theorem Interval.low_lt_value (hmantissa : d.mantissa ≠ 0) :
    (ofDyadic d).low < (ofDyadic d).value ∧ (ofDyadic d).value < (ofDyadic d).high := by
  have hstep : 0 < Nat.pow 2 (d.exponent - 2).toNat := Nat.pow_pos (by decide)
  constructor
  · refine Nat.mul_lt_mul_of_pos_right ?_ hstep
    split <;> omega
  · exact Nat.mul_lt_mul_of_pos_right (by omega) hstep

/-- At seventeen digits the points of the grid are closer together than the ends of the interval. -/
theorem pow_lt_width (hd : d.IsBinary64) (hmantissa : d.mantissa ≠ 0) :
    (10 : ℚ) ^ (placesBefore (Interval.ofDyadic d).value (Interval.ofDyadic d).scale - 17) <
      ((Interval.ofDyadic d).high : ℚ) / (Interval.ofDyadic d).scale -
        ((Interval.ofDyadic d).low : ℚ) / (Interval.ofDyadic d).scale := by
  have hscale : (0 : ℚ) < (Interval.ofDyadic d).scale := by
    exact_mod_cast Nat.pos_of_ne_zero (Interval.scale_ofDyadic_ne_zero d)
  obtain ⟨hlow, hhigh⟩ := Interval.low_lt_value hmantissa
  have hcontains : (Interval.ofDyadic d).Contains
      ((Interval.ofDyadic d).value / (Interval.ofDyadic d).scale) :=
    Interval.contains_of_lt (by gcongr) (by gcongr)
  have hplaces := pow_placesBefore_le (hcontains.magnitude hd hmantissa).1
  have hunits : (d.mantissa : ℚ) / 10 ^ 16 < (2 + d.quartersBelow) / 4 := by
    have hbits : (d.mantissa : ℚ) < 2 ^ 53 := by exact_mod_cast hd.mantissa_lt
    unfold Dyadic.quartersBelow
    split
    · next hpower =>
      rw [hpower.1]
      norm_num
    · push_cast
      linarith
  generalize placesBefore (Interval.ofDyadic d).value (Interval.ofDyadic d).scale = p at hplaces ⊢
  rw [Interval.value_ofDyadic] at hplaces
  rw [Interval.high_ofDyadic, Interval.low_ofDyadic d hmantissa]
  calc (10 : ℚ) ^ (p - 17) = 10 ^ (p - 1) / 10 ^ 16 := by
        rw [show p - 17 = p - 1 - (16 : ℕ) by omega, zpow_sub₀ (by norm_num), zpow_natCast]
    _ ≤ d.mantissa * 2 ^ d.exponent / 10 ^ 16 := by gcongr
    _ = d.mantissa / 10 ^ 16 * 2 ^ d.exponent := mul_div_right_comm _ _ _
    _ < (2 + d.quartersBelow) / 4 * 2 ^ d.exponent := mul_lt_mul_of_pos_right hunits (by positivity)
    _ = _ := by ring

/-- The shortest decimal is found on some grid. -/
theorem shortest_eq (hd : d.IsBinary64) (hmantissa : d.mantissa ≠ 0) :
    ∃ (c : ℕ) (e : ℤ), (Interval.ofDyadic d).Contains (c * 10 ^ e) ∧
      shortest d = Digits.ofNat c e := by
  have hscale := Interval.scale_ofDyadic_ne_zero d
  obtain ⟨hlow, hhigh⟩ := Interval.low_lt_value hmantissa
  have hsome : ∃ k < 17, ((Interval.ofDyadic d).onGrid? (placesBefore (Interval.ofDyadic d).value
      (Interval.ofDyadic d).scale - (1 + k : ℕ))).isSome = true :=
    ⟨16, by norm_num, Interval.isSome_onGrid? hscale hlow hhigh (pow_lt_width hd hmantissa)⟩
  obtain ⟨c, e, hgrid, heq⟩ := Interval.shortestFrom_eq hsome
  refine ⟨c, e, (Interval.holds_iff hscale).1 (Interval.holds_of_onGrid? hgrid), ?_⟩
  rw [shortest, if_neg hmantissa]
  exact heq

/-- The shortest decimal of a number lies among the fractions that round to it. -/
theorem contains_shortest (hd : d.IsBinary64) (hmantissa : d.mantissa ≠ 0) :
    (Interval.ofDyadic d).Contains (shortest d).value := by
  obtain ⟨c, e, hcontains, heq⟩ := shortest_eq hd hmantissa
  rwa [heq, Digits.value_ofNat]

theorem isNumeral_shortest (hd : d.IsBinary64) : (shortest d).IsNumeral := by
  by_cases hmantissa : d.mantissa = 0
  · rw [shortest, if_pos hmantissa]
    refine ⟨fun c hc => ?_, List.cons_ne_nil _ _, fun _ => rfl⟩
    rw [List.mem_singleton.1 hc]
    decide
  · obtain ⟨c, e, hcontains, heq⟩ := shortest_eq hd hmantissa
    rw [heq]
    exact Digits.isNumeral_ofNat (ne_zero_of_le_mul_pow (hcontains.magnitude hd hmantissa).1) e

end

/-- Zero has no digits but zeros. -/
theorem nearestBits_zero {d : Dyadic} (hd : d.IsBinary64) (hmantissa : d.mantissa = 0) (den : ℕ) :
    nearestBits 0 den = d.magnitudeBits := by
  have hexponent : d.exponent = -1074 := by
    refine hd.normal.resolve_right fun hnormal => ?_
    rw [hmantissa] at hnormal
    exact absurd hnormal (by decide)
  rw [Dyadic.magnitudeBits, hmantissa, hexponent]
  rfl

/-- Decimals within the range of the numbers are not cut off. -/
theorem ofDecimal_eq_nearest {digits : ℕ} {exponent : ℤ} (negative : Bool)
    (hlow : (10 : ℚ) ^ (-400 : ℤ) ≤ digits * 10 ^ exponent)
    (hhigh : (digits : ℚ) * 10 ^ exponent < 10 ^ (400 : ℤ)) :
    ofDecimal negative digits exponent =
      nearest negative (digits * Nat.pow 10 exponent.toNat) (Nat.pow 10 (-exponent).toNat) := by
  have hdigits : digits ≠ 0 := ne_zero_of_le_mul_pow hlow
  have hpower : (0 : ℚ) < 10 ^ exponent := by positivity
  have hlength : 0 < (Nat.repr digits).length := Nat.length_repr_pos
  have hmin : (-400 : ℤ) < (Nat.repr digits).length + exponent := by
    have hlt : (digits : ℚ) < 10 ^ ((Nat.repr digits).length : ℤ) := by
      exact_mod_cast lt_pow_length_repr digits
    have hchain : (10 : ℚ) ^ (-400 : ℤ) < 10 ^ ((Nat.repr digits).length + exponent) := by
      rw [zpow_add₀ (by norm_num)]
      exact hlow.trans_lt (mul_lt_mul_of_pos_right hlt hpower)
    exact (zpow_lt_zpow_iff_right₀ (by norm_num)).1 hchain
  have hmax : ((Nat.repr digits).length : ℤ) + exponent ≤ 400 := by
    have hle : (10 : ℚ) ^ ((Nat.repr digits).length - 1 : ℕ) ≤ digits := by
      exact_mod_cast pow_length_repr_le hdigits
    have hchain : (10 : ℚ) ^ (((Nat.repr digits).length - 1 : ℕ) + exponent) < 10 ^ (400 : ℤ) := by
      rw [zpow_add₀ (by norm_num), zpow_natCast]
      exact (mul_le_mul_of_nonneg_right hle hpower.le).trans_lt hhigh
    have := (zpow_lt_zpow_iff_right₀ (by norm_num)).1 hchain
    omega
  unfold ofDecimal
  dsimp only
  rw [if_neg (by simpa [hdigits] using hmin.le), if_neg (not_lt.2 hmax)]

/-- A decimal in the interval of a number is read as the number. -/
theorem ofDecimal_eq_of_contains {x : Float} {d : Dyadic} (h : dyadic? x = some d)
    (hmantissa : d.mantissa ≠ 0) {digits : ℕ} {exponent : ℤ}
    (hcontains : (Interval.ofDyadic d).Contains (digits * 10 ^ exponent)) :
    ofDecimal d.negative digits exponent = x := by
  have hd := isBinary64_of_dyadic? h
  obtain ⟨hlow, hhigh⟩ := hcontains.magnitude hd hmantissa
  rw [ofDecimal_eq_nearest d.negative hlow hhigh]
  refine nearest_eq h (nearestBits_of_contains hd hmantissa ?_ ?_)
  · exact Nat.pos_iff_ne_zero.1 (Nat.pow_pos (by decide))
  · have hquotient : ((digits * Nat.pow 10 exponent.toNat : ℕ) : ℚ) /
        (Nat.pow 10 (-exponent).toNat : ℕ) = digits * 10 ^ exponent := by
      have hpower := pow_toNat_div 10 (-exponent)
      rw [neg_neg, zpow_neg, one_div, inv_inv] at hpower
      simp only [Nat.pow_eq]
      push_cast
      rw [mul_div_assoc, hpower]
    rwa [hquotient]

/-- A decimal with the value of the shortest one is read back as the number. -/
theorem ofDecimal_eq {x : Float} {d : Dyadic} (h : dyadic? x = some d) {digits : ℕ} {exponent : ℤ}
    (hvalue : (digits : ℚ) * 10 ^ exponent = (shortest d).value) :
    ofDecimal d.negative digits exponent = x := by
  have hd := isBinary64_of_dyadic? h
  by_cases hmantissa : d.mantissa = 0
  · have hdigits : digits = 0 := by
      have hzero : (shortest d).value = 0 := by
        rw [shortest, if_pos hmantissa]
        exact (congrArg (· * _) Nat.cast_zero).trans (zero_mul _)
      rw [hzero] at hvalue
      have hpower : (10 : ℚ) ^ exponent ≠ 0 := by positivity
      exact_mod_cast (mul_eq_zero.1 hvalue).resolve_right hpower
    rw [hdigits]
    exact nearest_eq h (nearestBits_zero hd hmantissa 1)
  · refine ofDecimal_eq_of_contains h hmantissa ?_
    rw [hvalue]
    exact contains_shortest hd hmantissa

end ApiShell.Decimal
