import Mathlib
import SiteSafety.Proofs.Decimal.Order

/-!
# Proofs — Decimal — Rounding

How the machine rounds a mantissa.  Rounding takes the bits that are cut off as one that counts and
one that stands for all the others.  What is left of a mantissa has a weight, these two bits
included, and whatever is done to a mantissa keeps the order of the weights; so **what is rounded
from less does not stand behind** (`IsRounding.le`).

* `roundWithAccuracy_eq`: a mantissa is rounded to its leading 53 bits, or to the power of two
  behind them; `rounded_eq_iff` says when it is the power of two.
* `unpack_pack`: a normal number is packed without loss.
-/

namespace SiteSafety.Decimal
open Float.Model (UnpackedFloat Format totalExponent)
open Float.Model.UnpackedFloat

/-! ### Weights -/

/-- A mantissa with its two further bits as one number. -/
def weight (em : ExtendedMantissa) : Nat :=
  4 * em.mantissa + 2 * em.roundBit.toNat + em.stickyBit.toNat

variable {a b : ExtendedMantissa}

theorem toNat_lastBit (n : Nat) : (n % 2 != 0).toNat = n % 2 := by
  rcases Nat.mod_two_eq_zero_or_one n with hn | hn <;> simp [hn]

theorem weight_shiftRightOne (h : weight a ≤ weight b) :
    weight a.shiftRightOne ≤ weight b.shiftRightOne := by
  obtain ⟨m, r, s⟩ := a
  obtain ⟨m', r', s'⟩ := b
  simp only [weight, ExtendedMantissa.shiftRightOne, toNat_lastBit] at h ⊢
  cases r <;> cases s <;> cases r' <;> cases s' <;> simp at h ⊢ <;> omega

theorem weight_shiftRight (h : weight a ≤ weight b) (n : Nat) :
    weight (a >>> n) ≤ weight (b >>> n) := by
  induction n with
  | zero => exact h
  | succ n ih => exact weight_shiftRightOne ih

/-- What weighs less is not rounded to more. -/
theorem roundedMantissa_mono (h : weight a ≤ weight b) : a.roundedMantissa ≤ b.roundedMantissa := by
  obtain ⟨m, r, s⟩ := a
  obtain ⟨m', r', s'⟩ := b
  simp only [weight] at h
  cases r <;> cases s <;> cases r' <;> cases s' <;>
    simp [ExtendedMantissa.roundedMantissa, ExtendedMantissa.accuracy,
      Accuracy.roundToNearestEven] at h ⊢ <;> omega

theorem mantissa_shiftRight (a : ExtendedMantissa) (n : Nat) :
    (a >>> n).mantissa = a.mantissa / 2 ^ n := by
  induction n with
  | zero => exact (Nat.div_one _).symm
  | succ n ih =>
      have hstep : (a >>> (n + 1)).mantissa = (a >>> n).mantissa / 2 := rfl
      rw [hstep, ih, Nat.div_div_eq_div_mul, Nat.pow_succ]

/-- Rounding adds one at most. -/
theorem roundedMantissa_bounds (a : ExtendedMantissa) :
    a.mantissa ≤ a.roundedMantissa ∧ a.roundedMantissa ≤ a.mantissa + 1 := by
  obtain ⟨m, r, s⟩ := a
  cases r <;> cases s <;>
    simp [ExtendedMantissa.roundedMantissa, ExtendedMantissa.accuracy,
      Accuracy.roundToNearestEven]
  omega

/-- A mantissa and the bit behind it are the leading bits of what was shifted. -/
theorem leading_shiftRight (a : ExtendedMantissa) (n : Nat) :
    2 * (a >>> n).mantissa + (a >>> n).roundBit.toNat =
      (2 * a.mantissa + a.roundBit.toNat) / 2 ^ n := by
  induction n with
  | zero => exact (Nat.div_one _).symm
  | succ n ih =>
      have hlt : (a >>> n).roundBit.toNat < 2 := Bool.toNat_lt _
      have hstep : 2 * (a >>> (n + 1)).mantissa + (a >>> (n + 1)).roundBit.toNat =
          2 * ((a >>> n).mantissa / 2) + ((a >>> n).mantissa % 2 != 0).toNat := rfl
      rw [hstep, toNat_lastBit, Nat.pow_succ, ← Nat.div_div_eq_div_mul, ← ih]
      omega

/-- A mantissa of all ones is rounded up exactly when a one stands behind it. -/
theorem roundedMantissa_eq_iff {a : ExtendedMantissa} (h : a.mantissa < 2 ^ 53) :
    a.roundedMantissa = 2 ^ 53 ↔ 2 * a.mantissa + a.roundBit.toNat = 2 ^ 54 - 1 := by
  obtain ⟨m, r, s⟩ := a
  cases r <;> cases s <;>
    simp [ExtendedMantissa.roundedMantissa, ExtendedMantissa.accuracy,
      Accuracy.roundToNearestEven] at h ⊢ <;> omega

/-! ### Rounding -/

variable {m m' M M' : Nat} {e e' E E' : Int} {acc acc' : Accuracy} {sign : Sign}

/-- The leading 53 bits of a mantissa, rounded. -/
def rounded (m : Nat) (acc : Accuracy) : Nat :=
  (ExtendedMantissa.ofMantissaAndAccuracy m acc >>> (m.log2 - 52)).roundedMantissa

theorem mantissa_ofMantissaAndAccuracy (m : Nat) (acc : Accuracy) :
    (ExtendedMantissa.ofMantissaAndAccuracy m acc).mantissa = m := by
  unfold ExtendedMantissa.ofMantissaAndAccuracy
  split <;> rfl

/-- A mantissa of 53 bits or more lies between two powers of two. -/
theorem bounds_of_log2 (h : 52 ≤ m.log2) :
    2 ^ 52 * 2 ^ (m.log2 - 52) ≤ m ∧ m < 2 ^ 53 * 2 ^ (m.log2 - 52) := by
  have hm : m ≠ 0 := by
    rintro rfl
    simp at h
  have hlow : 52 + (m.log2 - 52) = m.log2 := by omega
  have hhigh : 53 + (m.log2 - 52) = m.log2 + 1 := by omega
  rw [← Nat.pow_add, ← Nat.pow_add, hlow, hhigh]
  exact (Nat.log2_eq_iff hm).mp rfl

theorem rounded_bounds (h : 52 ≤ m.log2) (acc : Accuracy) :
    2 ^ 52 ≤ rounded m acc ∧ rounded m acc ≤ 2 ^ 53 := by
  obtain ⟨hleast, hmost⟩ := bounds_of_log2 h
  obtain ⟨hlow, hhigh⟩ := roundedMantissa_bounds
    (ExtendedMantissa.ofMantissaAndAccuracy m acc >>> (m.log2 - 52))
  rw [mantissa_shiftRight, mantissa_ofMantissaAndAccuracy] at hlow hhigh
  rw [← Nat.le_div_iff_mul_le (by positivity)] at hleast
  rw [← Nat.div_lt_iff_lt_mul (by positivity)] at hmost
  exact ⟨hleast.trans hlow, hhigh.trans hmost⟩

/-- Rounding carries from half a step below the next power of two. -/
theorem rounded_eq_iff (hm : 52 ≤ m.log2) :
    rounded m .exact = 2 ^ 53 ↔ (2 ^ 54 - 1) * 2 ^ (m.log2 - 52) ≤ 2 * m := by
  obtain ⟨-, hmost⟩ := bounds_of_log2 hm
  have hleading := leading_shiftRight (.ofMantissaAndAccuracy m .exact) (m.log2 - 52)
  have hexact : 2 * (ExtendedMantissa.ofMantissaAndAccuracy m .exact).mantissa +
      (ExtendedMantissa.ofMantissaAndAccuracy m .exact).roundBit.toNat = 2 * m := rfl
  rw [hexact] at hleading
  have hshort : (ExtendedMantissa.ofMantissaAndAccuracy m .exact >>> (m.log2 - 52)).mantissa <
      2 ^ 53 := by
    rwa [mantissa_shiftRight, mantissa_ofMantissaAndAccuracy,
      Nat.div_lt_iff_lt_mul (by positivity)]
  have hfew : 2 * m / 2 ^ (m.log2 - 52) < 2 ^ 54 := by
    rw [Nat.div_lt_iff_lt_mul (by positivity)]
    omega
  rw [rounded, roundedMantissa_eq_iff hshort, hleading, ← Nat.le_div_iff_mul_le (by positivity)]
  omega

/-- What a mantissa with an exponent is rounded to: its leading bits, or the power of two behind
them with one bit less. -/
inductive IsRounding (m : Nat) (e : Int) (acc : Accuracy) : Nat → Int → Prop
  | leading (h : rounded m acc < 2 ^ 53) :
      IsRounding m e acc (rounded m acc) (e + (m.log2 - 52 : Nat))
  | carried (h : rounded m acc = 2 ^ 53) :
      IsRounding m e acc (2 ^ 52) (e + (m.log2 - 52 : Nat) + 1)

theorem targetExponent_of_log2 (hm : 52 ≤ m.log2) (he : -1074 ≤ e + (m.log2 - 52 : Nat)) :
    Format.binary64.targetExponent (totalExponent m e) = e + (m.log2 - 52 : Nat) := by
  simp only [Format.targetExponent, totalExponent, Format.mantissaBits, Format.minExponent]
  omega

theorem shiftToTargetExponent_eq (acc : Accuracy) (hm : 52 ≤ m.log2)
    (he : -1074 ≤ e + (m.log2 - 52 : Nat)) :
    shiftToTargetExponent .binary64 m e acc =
      (ExtendedMantissa.ofMantissaAndAccuracy m acc >>> (m.log2 - 52),
        e + (m.log2 - 52 : Nat)) := by
  rw [shiftToTargetExponent, targetExponent_of_log2 hm he]
  simp only [shiftToExponent, add_sub_cancel_left, Int.toNat_natCast]

theorem log2_eq (hlow : 2 ^ 52 ≤ m) (hhigh : m < 2 ^ 53) : m.log2 = 52 :=
  (Nat.log2_eq_iff (by omega)).mpr ⟨hlow, hhigh⟩

/-- A mantissa of at most 53 bits stays as it is. -/
theorem shiftToTargetExponent_leading (hm : m < 2 ^ 53) (he : -1074 ≤ e) :
    shiftToTargetExponent .binary64 m e .exact = (⟨m, false, false⟩, e) := by
  have hlog : m.log2 < 53 := by
    rcases Nat.eq_zero_or_pos m with rfl | hpos
    · decide
    · exact (Nat.log2_lt hpos.ne').mpr hm
  have hshift : (Format.binary64.targetExponent (totalExponent m e) - e).toNat = 0 := by
    simp only [Format.targetExponent, totalExponent, Format.mantissaBits, Format.minExponent]
    omega
  simp only [shiftToTargetExponent, shiftToExponent, hshift, Nat.cast_zero, add_zero]
  rfl

/-- One that has grown by a bit is cut by that bit. -/
theorem shiftToTargetExponent_carried (he : -1074 ≤ e) :
    shiftToTargetExponent .binary64 (2 ^ 53) e .exact = (⟨2 ^ 52, false, false⟩, e + 1) := by
  have hlog : (2 ^ 53).log2 = 53 := Nat.log2_two_pow
  rw [shiftToTargetExponent_eq _ (by omega) (by omega), hlog]
  rfl

/-- What is rounded is cut to its length twice, the second time if rounding has made it longer. -/
theorem roundWithAccuracy_of_shifts {em em' : ExtendedMantissa} (hpos : 0 < em'.mantissa)
    (hfirst : shiftToTargetExponent .binary64 m e acc = (em, e'))
    (hsecond : shiftToTargetExponent .binary64 em.roundedMantissa e' .exact = (em', E)) :
    roundWithAccuracy .binary64 sign m e acc = .finite sign em'.mantissa E hpos := by
  simp only [roundWithAccuracy, hfirst, hsecond, dif_neg hpos.ne']

/-- Rounding gives a number. -/
theorem roundWithAccuracy_eq (sign : Sign) (acc : Accuracy) (hm : 52 ≤ m.log2)
    (he : -1074 ≤ e + (m.log2 - 52 : Nat)) :
    ∃ M E hM, roundWithAccuracy .binary64 sign m e acc = .finite sign M E hM ∧
      IsRounding m e acc M E := by
  obtain ⟨hlow, hhigh⟩ := rounded_bounds hm acc
  have hfirst := shiftToTargetExponent_eq acc hm he
  rcases Nat.lt_or_eq_of_le hhigh with hlt | hcarry
  · have hpos : 0 < rounded m acc := by omega
    have hsecond := shiftToTargetExponent_leading hlt he
    exact ⟨_, _, hpos, roundWithAccuracy_of_shifts hpos hfirst hsecond, .leading hlt⟩
  · have hpos : 0 < 2 ^ 52 := by decide
    have hsecond := shiftToTargetExponent_carried he
    rw [← hcarry] at hsecond
    exact ⟨_, _, hpos, roundWithAccuracy_of_shifts hpos hfirst hsecond, .carried hcarry⟩

theorem IsRounding.log2_eq (h : IsRounding m e acc M E) (hm : 52 ≤ m.log2) : M.log2 = 52 := by
  cases h with
  | leading h => exact Decimal.log2_eq (rounded_bounds hm acc).1 h
  | carried h => exact Nat.log2_two_pow

/-- What is rounded from less does not stand behind. -/
theorem IsRounding.le (hm' : 52 ≤ m'.log2) (h : IsRounding m e acc M E)
    (h' : IsRounding m' e' acc' M' E')
    (hle : e + (m.log2 - 52 : Nat) < e' + (m'.log2 - 52 : Nat) ∨
      e + (m.log2 - 52 : Nat) = e' + (m'.log2 - 52 : Nat) ∧ rounded m acc ≤ rounded m' acc') :
    E < E' ∨ E = E' ∧ M ≤ M' := by
  have hlow := (rounded_bounds hm' acc').1
  cases h <;> cases h' <;> omega

/-! ### Lengthened mantissas -/

theorem log2_shiftLeft (n k : Nat) (hn : n ≠ 0) : (n <<< k).log2 = n.log2 + k := by
  induction k with
  | zero => rfl
  | succ k ih =>
      have hne : n <<< k ≠ 0 := by simpa [Nat.shiftLeft_eq] using hn
      rw [Nat.shiftLeft_succ, Nat.log2_two_mul hne, ih, Nat.add_assoc]

theorem shiftLeft_pos {n : Nat} (hn : n ≠ 0) (k : Nat) : 0 < n <<< k := by
  rw [Nat.shiftLeft_eq]
  positivity

/-! ### Normal numbers -/

/-- The first of 53 bits is not kept, and is put back. -/
theorem toNat_leading (mantissa : BitVec 52) :
    (1#1 ++ mantissa).toNat = 2 ^ 52 + mantissa.toNat := by
  rw [BitVec.toNat_append, ← Nat.shiftLeft_add_eq_or_of_lt mantissa.isLt]
  rfl

theorem finite_congr {hM : 0 < M} {hM' : 0 < M'} (h : M = M') (he : E = E') :
    UnpackedFloat.finite sign M E hM = .finite sign M' E' hM' := by
  subst h he
  rfl

theorem toNat_exponent {biased : Nat} (h : biased < 2047) :
    (BitVec.ofNat 11 biased).toNat = biased := by
  rw [BitVec.toNat_ofNat]
  omega

/-- Components are read back where the exponent is one of a normal number. -/
theorem unpack_packComponents (sign : Sign) {biased : Nat} (hlow : 0 < biased)
    (hhigh : biased < 2047) (mantissa : BitVec 52) : ∃ hpos, unpack .binary64
      (packComponents .binary64 sign (BitVec.ofNat 11 biased) mantissa) =
        .finite sign (1#1 ++ mantissa).toNat (biased - 1075) hpos := by
  have hexponent := toNat_exponent hhigh
  have hones : BitVec.ofNat 11 biased ≠ -1#11 := by
    intro h
    have hvalue : (BitVec.ofNat 11 biased).toNat = 2047 := congrArg BitVec.toNat h
    omega
  have hzero : BitVec.ofNat 11 biased ≠ 0#11 := by
    intro h
    have hvalue : (BitVec.ofNat 11 biased).toNat = 0 := congrArg BitVec.toNat h
    omega
  refine ⟨by rw [toNat_leading]; positivity, ?_⟩
  simp only [unpack, unpackMantissa_packComponents, unpackExponent_packComponents,
    unpackSign_packComponents, if_neg hones, if_neg hzero, Sign.ofBitVec_toBitVec]
  exact finite_congr rfl (by rw [hexponent]; rfl)

/-- A mantissa of 53 bits with an exponent in the range of the machine is packed without loss. -/
theorem unpack_pack {hM : 0 < M} (hlog : M.log2 = 52) (hlow : -1074 ≤ E) (hhigh : E ≤ 971) :
    (Float.Model.pack (.finite sign M E hM)).unpack = .finite sign M E hM := by
  obtain ⟨hleast, hmost⟩ := (Nat.log2_eq_iff hM.ne').mp hlog
  obtain ⟨biased, hbiased⟩ : ∃ n : Nat, E + 1075 = n := ⟨_, (Int.toNat_of_nonneg (by omega)).symm⟩
  have hpack : pack .binary64 (.finite sign M E hM) =
      packComponents .binary64 sign (BitVec.ofNat 11 biased) (BitVec.ofNat 52 M) := by
    have hexponent : (E + (Format.exponentBias .binary64 : Nat) + (52 : Nat)).toNat = biased := by
      simp only [Format.exponentBias]
      omega
    rw [pack, hexponent, if_neg (by simp only; omega), if_pos (by rw [hlog]; rfl)]
  have hmantissa : (1#1 ++ BitVec.ofNat 52 M).toNat = M := by
    rw [toNat_leading, BitVec.toNat_ofNat]
    omega
  obtain ⟨hpos, hunpack⟩ :=
    @unpack_packComponents sign biased (by omega) (by omega) (BitVec.ofNat 52 M)
  calc (Float.Model.pack (.finite sign M E hM)).unpack
      = unpack .binary64 (pack .binary64 (.finite sign M E hM)) := rfl
    _ = .finite sign (1#1 ++ BitVec.ofNat 52 M).toNat (biased - 1075) hpos := by
        rw [hpack, hunpack]
    _ = .finite sign M E hM := finite_congr hmantissa (by omega)

end SiteSafety.Decimal
