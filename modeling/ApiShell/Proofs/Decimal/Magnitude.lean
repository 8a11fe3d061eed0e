import ApiShell.Decimal.Binary
import Mathlib

/-!
# Magnitudes

A magnitude is a floating-point number without a negative sign; infinity is one as well.  Sums of
magnitudes are magnitudes, and so are multiples of a magnitude by a positive number.  So a computation
that starts from magnitudes and adds and scales them never ends with a value that is no number.

Arithmetic takes numbers apart, computes and packs the result into bits again; packing may round a
number to infinity, but it keeps the sign (`isMagnitudeForm_pack`).

A negative decimal can be read as minus one times a magnitude: the product has the bits of the magnitude
with the sign bit set (`minusOne_mul_ofDecimal`).
-/

namespace ApiShell.Decimal

open Float.Model (Format UnpackedFloat totalExponent)
open Float.Model.UnpackedFloat

/-- What a number is taken apart into has no negative sign, and is a number. -/
def IsMagnitudeForm : UnpackedFloat → Prop
  | .infinity s | .zero s | .finite s _ _ _ => s = .positive
  | .notANumber => False

/-- A number without a negative sign. -/
def IsMagnitude (x : Float) : Prop := IsMagnitudeForm x.toModel.unpack

/-- A number that is finite and greater than zero. -/
def IsPositive (x : Float) : Prop :=
  ∃ m e h, x.toModel.unpack = .finite .positive m e h

/-! ### Packing -/

section

variable {spec : Format}

/-- Bits without a sign stand for a magnitude, unless the exponent is all ones and the mantissa is not
zero. -/
theorem isMagnitudeForm_unpack {b : BitVec spec.numBits} (hsign : unpackSign b = 0#1)
    (hnumber : unpackExponent b = -1#_ → unpackMantissa b = 0#_) :
    IsMagnitudeForm (unpack spec b) := by
  have hpositive : Sign.ofBitVec (unpackSign b) = .positive := by
    rw [hsign]
    rfl
  unfold unpack
  dsimp only
  split
  · next hexponent =>
    rw [if_pos (hnumber hexponent)]
    exact hpositive
  · split
    · split
      · exact hpositive
      · exact hpositive
    · exact hpositive

theorem isMagnitudeForm_packComponents {exponent : BitVec spec.exponentBits}
    {mantissa : BitVec spec.mantissaBitsWithoutImplicit} (h : exponent = -1#_ → mantissa = 0#_) :
    IsMagnitudeForm (unpack spec (packComponents spec .positive exponent mantissa)) := by
  apply isMagnitudeForm_unpack
  · rw [unpackSign_packComponents]
    rfl
  · rwa [unpackExponent_packComponents, unpackMantissa_packComponents]

/-- Packing keeps the sign, also where it rounds to infinity. -/
theorem isMagnitudeForm_pack {f : UnpackedFloat} (h : IsMagnitudeForm f) :
    IsMagnitudeForm (unpack spec (pack spec f)) := by
  cases f with
  | infinity s =>
    obtain rfl : s = .positive := h
    exact isMagnitudeForm_packComponents fun _ => rfl
  | zero s =>
    obtain rfl : s = .positive := h
    exact isMagnitudeForm_packComponents fun _ => rfl
  | notANumber => exact h.elim
  | finite s m e hm =>
    obtain rfl : s = .positive := h
    unfold pack
    dsimp only
    split
    · exact isMagnitudeForm_packComponents fun _ => rfl
    next hfits =>
    have hones : (-1#_ : BitVec spec.exponentBits).toNat = 2 ^ spec.exponentBits - 1 := by
      simp [BitVec.neg_one_eq_allOnes]
    have hbits : 2 ≤ 2 ^ spec.exponentBits := Nat.le_self_pow spec.he.ne' 2
    split
    · refine isMagnitudeForm_packComponents fun hexponent => ?_
      -- An exponent that is all ones would not have fitted.
      have hvalue := congrArg BitVec.toNat hexponent
      rw [hones, BitVec.toNat_ofNat, Nat.mod_eq_of_lt (by omega)] at hvalue
      omega
    · refine isMagnitudeForm_packComponents fun hexponent => ?_
      have hvalue := congrArg BitVec.toNat hexponent
      rw [hones, BitVec.toNat_zero] at hvalue
      omega

end

/-! ### Sums and multiples -/

section

variable {spec : Format} {f g : UnpackedFloat}

theorem isMagnitudeForm_roundWithAccuracy (m : ℕ) (e : ℤ) (accuracy : Accuracy) :
    IsMagnitudeForm (roundWithAccuracy spec .positive m e accuracy) := by
  unfold roundWithAccuracy
  dsimp only
  split <;> rfl

theorem isMagnitudeForm_normalize {m : ℤ} (hm : 0 ≤ m) (e : ℤ) :
    IsMagnitudeForm (UnpackedFloat.normalize spec m e .positive) := by
  unfold UnpackedFloat.normalize
  split
  · next hlt => exact absurd (compare_lt_iff_lt.1 hlt) (not_lt.2 hm)
  · rfl
  · exact isMagnitudeForm_roundWithAccuracy _ _ _

theorem isMagnitudeForm_add (hf : IsMagnitudeForm f) (hg : IsMagnitudeForm g) :
    IsMagnitudeForm (UnpackedFloat.add spec f g) := by
  cases f with
  | notANumber => exact hf.elim
  | infinity s =>
    obtain rfl : s = .positive := hf
    cases g with
    | notANumber => exact hg.elim
    | infinity t =>
      obtain rfl : t = .positive := hg
      rfl
    | zero t => rfl
    | finite t m e hm => rfl
  | zero s =>
    obtain rfl : s = .positive := hf
    cases g with
    | notANumber => exact hg.elim
    | infinity t => exact hg
    | zero t =>
      obtain rfl : t = .positive := hg
      rfl
    | finite t m e hm => exact hg
  | finite s m e hm =>
    obtain rfl : s = .positive := hf
    cases g with
    | notANumber => exact hg.elim
    | infinity t => exact hg
    | zero t => rfl
    | finite t n k hn =>
      obtain rfl : t = .positive := hg
      exact isMagnitudeForm_normalize (Int.add_nonneg (Int.natCast_nonneg _) (Int.natCast_nonneg _)) _

/-- Only infinity times zero is no number. -/
theorem isMagnitudeForm_mul (hf : IsMagnitudeForm f) {m : ℕ} {e : ℤ} {hm : 0 < m} :
    IsMagnitudeForm (UnpackedFloat.mul spec f (.finite .positive m e hm)) := by
  cases f with
  | notANumber => exact hf.elim
  | infinity s =>
    obtain rfl : s = .positive := hf
    rfl
  | zero s =>
    obtain rfl : s = .positive := hf
    rfl
  | finite s n k hn =>
    obtain rfl : s = .positive := hf
    exact isMagnitudeForm_roundWithAccuracy _ _ _

end

section

variable {x y : Float}

theorem IsMagnitude.add (hx : IsMagnitude x) (hy : IsMagnitude y) : IsMagnitude (x + y) :=
  isMagnitudeForm_pack (isMagnitudeForm_add hx hy)

theorem IsMagnitude.mul (hx : IsMagnitude x) (hy : IsPositive y) : IsMagnitude (x * y) := by
  obtain ⟨m, e, hm, hform⟩ := hy
  have hproduct : IsMagnitudeForm (UnpackedFloat.mul .binary64 x.toModel.unpack y.toModel.unpack) := by
    rw [hform]
    exact isMagnitudeForm_mul hx
  exact isMagnitudeForm_pack hproduct

/-! ### Bits -/

/-- The exponent of a number, read from its bits. -/
theorem toNat_unpackExponent (b : BitVec 64) :
    (@unpackExponent .binary64 b).toNat = b.toNat / 2 ^ 52 % 2 ^ 11 := by
  rw [unpackExponent, BitVec.toNat_cast, BitVec.extractLsb, BitVec.extractLsb'_toNat,
    Nat.shiftRight_eq_div_pow]
  rfl

theorem toNat_unpackMantissa (b : BitVec 64) :
    (@unpackMantissa .binary64 b).toNat = b.toNat % 2 ^ 52 := by
  rw [unpackMantissa, BitVec.toNat_cast, BitVec.extractLsb, BitVec.extractLsb'_toNat,
    Nat.shiftRight_eq_div_pow, pow_zero, Nat.div_one]
  rfl

theorem toNat_unpackSign (b : BitVec 64) :
    (@unpackSign .binary64 b).toNat = b.toNat / 2 ^ 63 := by
  rw [unpackSign, BitVec.toNat_cast, BitVec.extractLsb, BitVec.extractLsb'_toNat,
    Nat.shiftRight_eq_div_pow]
  have hlt := b.isLt
  show b.toNat / 2 ^ 63 % 2 = b.toNat / 2 ^ 63
  omega

/-- The exponent of what is not finite has all its bits. -/
theorem unpackExponent_eq_ones (h : x.toBits.toNat / 2 ^ 52 % 2 ^ 11 = 2047) :
    @unpackExponent .binary64 x.toModel.toBits.toBitVec = -1#_ := by
  apply BitVec.eq_of_toNat_eq
  rw [toNat_unpackExponent]
  exact h

theorem unpackMantissa_ne_zero (h : x.toBits.toNat % 2 ^ 52 ≠ 0) :
    @unpackMantissa .binary64 x.toModel.toBits.toBitVec ≠ 0#_ := by
  intro hzero
  have hvalue := congrArg BitVec.toNat hzero
  rw [toNat_unpackMantissa] at hvalue
  exact h hvalue

/-- A magnitude is a number. -/
theorem IsMagnitude.isNotANumber (h : IsMagnitude x) : isNotANumber x = false := by
  by_contra hbits
  rw [Decimal.isNotANumber, Nat.pow_eq, Nat.pow_eq, Bool.not_eq_false, decide_eq_true_eq] at hbits
  have hexponent := unpackExponent_eq_ones (x := x) (by omega)
  have hmantissa := unpackMantissa_ne_zero (x := x) (by omega)
  unfold IsMagnitude Float.Model.unpack unpack at h
  dsimp only at h
  rw [if_pos hexponent, if_neg hmantissa] at h
  exact h

/-- The bits nearest to a fraction are at most those of infinity. -/
theorem nearestBits_le (num den : ℕ) : nearestBits num den ≤ 2047 * 2 ^ 52 := by
  unfold nearestBits
  split
  · exact Nat.zero_le _
  · exact min_le_right _ _

/-- The number nearest to a fraction is a magnitude. -/
theorem isMagnitude_nearest (num den : ℕ) : IsMagnitude (nearest false num den) := by
  have hbits := nearestBits_le num den
  apply isMagnitudeForm_pack
  have hvalue : (UInt64.ofNat (nearestBits num den + if false = true then Nat.pow 2 63 else 0)).toBitVec.toNat =
      nearestBits num den := by
    show (nearestBits num den + 0) % 2 ^ 64 = _
    omega
  refine @isMagnitudeForm_unpack .binary64 _ ?_ fun hexponent => ?_
  · apply BitVec.eq_of_toNat_eq
    rw [toNat_unpackSign, hvalue]
    exact Nat.div_eq_of_lt (by omega)
  · apply BitVec.eq_of_toNat_eq
    have hones := congrArg BitVec.toNat hexponent
    rw [toNat_unpackExponent, hvalue] at hones
    change nearestBits num den / 2 ^ 52 % 2 ^ 11 = 2047 at hones
    rw [toNat_unpackMantissa, hvalue]
    show nearestBits num den % 2 ^ 52 = 0
    omega

theorem isMagnitude_ofDecimal (digits : ℕ) (e : ℤ) : IsMagnitude (ofDecimal false digits e) := by
  unfold ofDecimal
  generalize Nat.pow 2 1024 = large
  dsimp only
  split_ifs
  · exact isMagnitude_nearest _ _
  · exact isMagnitude_nearest _ _
  · exact isMagnitude_nearest _ _

end

/-! ### Signs -/

/-- Zeros at the end of a mantissa are shifted out without a loss. -/
theorem shiftRight_zeros (m k : ℕ) :
    (⟨2 ^ k * m, false, false⟩ : ExtendedMantissa) >>> k = ⟨m, false, false⟩ := by
  show Nat.repeat ExtendedMantissa.shiftRightOne k _ = _
  induction k generalizing m with
  | zero =>
    rw [pow_zero, one_mul]
    rfl
  | succ k ih =>
    have hdouble : 2 ^ (k + 1) * m = 2 ^ k * (2 * m) := by ring
    rw [Nat.repeat, hdouble, ih, ExtendedMantissa.shiftRightOne]
    simp

theorem log2_zeros {m : ℕ} (hm : 0 < m) (k : ℕ) : (2 ^ k * m).log2 = k + m.log2 := by
  induction k with
  | zero => simp
  | succ k ih =>
    have hdouble : 2 ^ (k + 1) * m = 2 * (2 ^ k * m) := by ring
    rw [hdouble, Nat.log2_two_mul (by positivity), ih]
    omega

/-- A number whose mantissa has zeros at its end is rounded to its canonical form. -/
theorem roundWithAccuracy_zeros {spec : Format} (s : Sign) {m : ℕ} {e : ℤ} (hm : 0 < m)
    (htarget : spec.targetExponent (totalExponent m e) = e) (k : ℕ) :
    roundWithAccuracy spec s (2 ^ k * m) (-k + e) .exact = .finite s m e hm := by
  have htotal : totalExponent (2 ^ k * m) (-k + e) = totalExponent m e := by
    rw [totalExponent, totalExponent, log2_zeros hm]
    push_cast
    ring
  have hfirst : shiftToTargetExponent spec (2 ^ k * m) (-k + e) .exact = (⟨m, false, false⟩, e) := by
    have hamount : (e - (-k + e)).toNat = k := by omega
    rw [shiftToTargetExponent, htotal, htarget, shiftToExponent, hamount]
    exact Prod.ext (shiftRight_zeros m k) (by dsimp only; ring)
  have hsecond : shiftToTargetExponent spec m e .exact = (⟨m, false, false⟩, e) := by
    rw [shiftToTargetExponent, htarget, shiftToExponent, sub_self]
    exact Prod.ext rfl (add_zero e)
  have hrounded : (⟨m, false, false⟩ : ExtendedMantissa).roundedMantissa = m := rfl
  simp only [roundWithAccuracy, hfirst, hrounded, hsecond, dif_neg hm.ne']

/-- The parts that a number is taken apart into are in canonical form. -/
theorem targetExponent_unpack {b : BitVec 64} {s : Sign} {m : ℕ} {e : ℤ} {hm : 0 < m}
    (h : unpack .binary64 b = .finite s m e hm) :
    Format.binary64.targetExponent (totalExponent m e) = e := by
  have hfraction : (@unpackMantissa .binary64 b).toNat < 2 ^ 52 := (@unpackMantissa .binary64 b).isLt
  have hbias (k : ℤ) : k - (Format.binary64.exponentBias + (52 : ℕ)) = k - 1075 := rfl
  have htarget : Format.binary64.targetExponent (totalExponent m e) =
      max ((m.log2 : ℤ) + 1 + e - 53) (-1074) := rfl
  rw [htarget]
  unfold unpack at h
  simp only [hbias] at h
  split at h
  · split at h <;> cases h
  split at h
  · next hexponent =>
    split at h
    · cases h
    -- Without its first bit the mantissa stands at the least exponent.
    · obtain ⟨-, rfl, rfl⟩ := UnpackedFloat.finite.inj h
      have hlog : (@unpackMantissa .binary64 b).toNat.log2 < 52 := (Nat.log2_lt hm.ne').2 hfraction
      rw [hexponent, BitVec.toNat_zero]
      omega
  · next hexponent =>
    obtain ⟨-, rfl, rfl⟩ := UnpackedFloat.finite.inj h
    have hlog : (1#1 ++ @unpackMantissa .binary64 b).toNat.log2 = 52 := by
      have hfilled : (1#1 ++ @unpackMantissa .binary64 b).toNat =
          2 ^ 52 + (@unpackMantissa .binary64 b).toNat := by
        rw [BitVec.toNat_append, ← Nat.shiftLeft_add_eq_or_of_lt hfraction, Nat.shiftLeft_eq]
        rfl
      rw [Nat.log2_eq_iff hm.ne', hfilled]
      omega
    have hpositive : 0 < (@unpackExponent .binary64 b).toNat :=
      Nat.pos_of_ne_zero fun hzero => hexponent (BitVec.eq_of_toNat_eq hzero)
    rw [hlog]
    omega

/-- The parts of minus one. -/
theorem unpack_minusOne :
    (-1.0 : Float).toModel.unpack = .finite .negative (2 ^ 52) (-52) (by decide) := by
  have hbits : (-1.0 : Float).toModel.toBits = 0xBFF0000000000000 := by decide
  rw [Float.Model.unpack, hbits]
  rfl

theorem mul_minusOne (b : BitVec 64) :
    UnpackedFloat.mul .binary64 (.finite .negative (2 ^ 52) (-52) (by decide)) (unpack .binary64 b) =
      (unpack .binary64 b).neg := by
  cases h : unpack .binary64 b with
  | infinity s => cases s <;> rfl
  | notANumber => rfl
  | zero s => cases s <;> rfl
  | finite s m e hm =>
    have hround := roundWithAccuracy_zeros (.negative * s) hm (targetExponent_unpack h) 52
    rw [UnpackedFloat.mul]
    refine hround.trans ?_
    cases s <;> rfl

/-- Minus one times a number is the number with the other sign. -/
theorem minusOne_mul (x : Float) : -1.0 * x = -x := by
  show Float.ofModel (.pack (UnpackedFloat.mul .binary64 (-1.0 : Float).toModel.unpack x.toModel.unpack)) = _
  rw [unpack_minusOne]
  exact congrArg (fun f => Float.ofModel (.pack f)) (mul_minusOne x.toModel.toBits.toBitVec)

/-- Bits that differ in their sign only. -/
theorem unpack_eq_neg {spec : Format} {b c : BitVec spec.numBits} (hb : unpackSign b = 0#1)
    (hc : unpackSign c = 1#1) (hexponent : unpackExponent c = unpackExponent b)
    (hmantissa : unpackMantissa c = unpackMantissa b) : unpack spec c = (unpack spec b).neg := by
  unfold unpack
  dsimp only
  rw [hb, hc]
  simp only [hexponent, hmantissa]
  split_ifs <;> rfl

/-- Bits up to those of infinity are those of a number. -/
theorem valid_of_le {b : BitVec 64} (h : b.toNat ≤ 2047 * 2 ^ 52) : Format.binary64.Valid b := by
  refine ⟨fun hexponent hmantissa => absurd (BitVec.eq_of_toNat_eq ?_) hmantissa⟩
  have hones := congrArg BitVec.toNat hexponent
  rw [toNat_unpackExponent] at hones
  change b.toNat / 2 ^ 52 % 2 ^ 11 = 2047 at hones
  rw [toNat_unpackMantissa]
  show b.toNat % 2 ^ 52 = 0
  omega

/-- A number with the sign bit set is the negative one. -/
theorem ofBits_add_sign {k : ℕ} (h : k ≤ 2047 * 2 ^ 52) :
    Float.ofBits (UInt64.ofNat (k + 2 ^ 63)) = -Float.ofBits (UInt64.ofNat k) := by
  have htoNat {n : ℕ} (hn : n < 2 ^ 64) : (UInt64.ofNat n).toBitVec.toNat = n := Nat.mod_eq_of_lt hn
  have hk := @htoNat k (by omega)
  have hsign := @htoNat (k + 2 ^ 63) (by omega)
  have hneg : unpack .binary64 (UInt64.ofNat (k + 2 ^ 63)).toBitVec =
      (unpack .binary64 (UInt64.ofNat k).toBitVec).neg := by
    apply unpack_eq_neg <;> apply BitVec.eq_of_toNat_eq
    · rw [toNat_unpackSign, hk]
      exact Nat.div_eq_of_lt (by omega)
    · rw [toNat_unpackSign, hsign]
      show _ = 1
      omega
    · rw [toNat_unpackExponent, toNat_unpackExponent, hk, hsign]
      omega
    · rw [toNat_unpackMantissa, toNat_unpackMantissa, hk, hsign]
      omega
  have hsame : pack .binary64 (unpack .binary64 (UInt64.ofNat k).toBitVec) = (UInt64.ofNat k).toBitVec :=
    pack_unpack_of_valid (valid_of_le (hk.trans_le h))
  have hbits (a : UInt64) : Float.ofBits a = .ofModel (.pack (unpack .binary64 a.toBitVec)) := rfl
  have hminus (f : UnpackedFloat) :
      -Float.ofModel (.pack f) = .ofModel (.pack (unpack .binary64 (pack .binary64 f)).neg) := rfl
  rw [hbits, hbits, hminus, hneg, hsame]

theorem neg_nearest (num den : ℕ) : -nearest false num den = nearest true num den := by
  have hflip := ofBits_add_sign (nearestBits_le num den)
  simp only [nearest, if_true, Bool.false_eq_true, if_false, Nat.add_zero]
  exact hflip.symm

/-- A negative decimal is minus one times the positive one. -/
theorem minusOne_mul_ofDecimal (digits : ℕ) (e : ℤ) :
    -1.0 * ofDecimal false digits e = ofDecimal true digits e := by
  rw [minusOne_mul]
  unfold ofDecimal
  generalize Nat.pow 2 1024 = large
  dsimp only
  split_ifs <;> exact neg_nearest _ _

/-! ### Special values -/

theorem eq_of_toBits_eq {x y : Float} (h : x.toBits = y.toBits) : x = y := by
  rw [← Float.ofBits_toBits x, h, Float.ofBits_toBits]

/-- There is only one value that is no number. -/
theorem eq_notANumber {x : Float} (h : isNotANumber x = true)
    (hexponent : x.toBits.toNat / 2 ^ 52 % 2 ^ 11 = 2047) :
    x = notANumber := by
  rw [isNotANumber, Nat.pow_eq, Nat.pow_eq, decide_eq_true_eq] at h
  have hones := unpackExponent_eq_ones hexponent
  have hmantissa := unpackMantissa_ne_zero (x := x) (by omega)
  have hpacked := x.toModel.valid.eq_packedNaN hones hmantissa
  have hnan : notANumber.toBits.toBitVec = packedNaN .binary64 := by decide
  exact eq_of_toBits_eq (UInt64.toBitVec_inj.1 (hpacked.trans hnan.symm))

/-- A value that is not finite is infinite in one of two directions, or no number. -/
theorem eq_of_dyadic?_eq_none {x : Float} (h : dyadic? x = none) :
    isNotANumber x = true ∧ x = notANumber ∨
      isNotANumber x = false ∧ isNegative x = false ∧ x = infinity ∨
      isNotANumber x = false ∧ isNegative x = true ∧ x = -infinity := by
  have hexponent : x.toBits.toNat / 2 ^ 52 % 2 ^ 11 = 2047 := by
    by_contra hfinite
    unfold dyadic? at h
    simp only [Nat.pow_eq] at h
    rw [if_neg hfinite] at h
    split at h <;> cases h
  have hlt : x.toBits.toNat < 2 ^ 64 := x.toBits.toNat_lt
  cases hnan : isNotANumber x with
  | true => exact .inl ⟨rfl, eq_notANumber hnan hexponent⟩
  | false =>
    have hsmall : x.toBits.toNat % 2 ^ 63 ≤ 2047 * 2 ^ 52 := by
      rw [isNotANumber, Nat.pow_eq, Nat.pow_eq, decide_eq_false_iff_not] at hnan
      omega
    refine .inr ?_
    rw [← Float.ofBits_toBits x, ← UInt64.ofNat_toNat (x := x.toBits)]
    cases hsign : isNegative x with
    | false =>
      rw [isNegative, Nat.pow_eq, beq_eq_false_iff_ne] at hsign
      have hbits : x.toBits.toNat = 2047 * 2 ^ 52 := by omega
      rw [hbits]
      exact .inl ⟨rfl, rfl, by decide⟩
    | true =>
      rw [isNegative, Nat.pow_eq, beq_iff_eq] at hsign
      have hbits : x.toBits.toNat = 2047 * 2 ^ 52 + 2 ^ 63 := by omega
      rw [hbits]
      exact .inr ⟨rfl, rfl, by decide⟩

end ApiShell.Decimal
