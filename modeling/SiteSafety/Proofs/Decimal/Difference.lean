import SiteSafety.Proofs.Decimal.Rounding

/-!
# Proofs — Decimal — Difference

When the difference of two machine numbers is finite.  A finite number has an exact value, a
rational (`Binary.value`).  Two of them are subtracted exactly and the difference is then rounded
once, so **it is finite exactly when the exact difference of the values is below the least magnitude
that is rounded away from the machine's range**, the half step behind its greatest number
(`isFinite_sub_iff`).

* `map_value_decode?`: the value of an unpacked number is that of its bits.
* `fits_round_iff`: which numbers stay in range when they are rounded.
-/

namespace SiteSafety.Decimal
open Float.Model (UnpackedFloat Format totalExponent)
open Float.Model.UnpackedFloat

/-! ### Exact values -/

/-- The exact value of a finite number. -/
def Binary.value (b : Binary) : ℚ :=
  (if b.negative then -(b.significand : ℚ) else b.significand) * 2 ^ b.exponent

/-- The exact value of an unpacked number, unless it is infinite or no number. -/
def valueOf? : UnpackedFloat → Option ℚ
  | .zero _                     => some 0
  | .finite sign m e _          => some (sign.apply m * 2 ^ e)
  | .infinity _ | .notANumber   => none

/-- The least magnitude that is rounded out of range, half a step behind the greatest number. -/
def outOfRange : ℚ := (2 ^ 54 - 1) * 2 ^ 970

theorem toNat_unpackMantissa (x : Float) :
    (@unpackMantissa .binary64 x.toModel.toBits.toBitVec).toNat = x.toBits.toNat % hiddenBit := by
  delta Float.toBits hiddenBit
  simp [unpackMantissa, BitVec.extractLsb]

theorem toNat_unpackSign (x : Float) :
    (@unpackSign .binary64 x.toModel.toBits.toBitVec).toNat = x.toBits.toNat / signWeight := by
  have hlt : x.toModel.toBits.toNat < 2 ^ 64 := x.toModel.toBits.toNat_lt
  have hbits : x.toBits.toNat / signWeight = x.toModel.toBits.toNat / 2 ^ 63 := rfl
  rw [hbits]
  simp [unpackSign, BitVec.extractLsb, Nat.shiftRight_eq_div_pow]
  omega

/-- The sign of an unpacked number is that of its bits. -/
theorem apply_unpackSign (x : Float) (n : ℤ) :
    (Sign.ofBitVec (@unpackSign .binary64 x.toModel.toBits.toBitVec)).apply n =
      if signBit x then -n else n := by
  have hsign := toNat_unpackSign x
  have hlt : (@unpackSign .binary64 x.toModel.toBits.toBitVec).toNat < 2 :=
    BitVec.isLt _
  rw [signBit, ← hsign]
  by_cases hzero : @unpackSign .binary64 x.toModel.toBits.toBitVec = 0#1
  · rw [hzero]
    rfl
  · have hone : (@unpackSign .binary64 x.toModel.toBits.toBitVec).toNat = 1 := by
      have hne : (@unpackSign .binary64 x.toModel.toBits.toBitVec).toNat ≠ 0 := by
        intro h
        exact hzero (BitVec.eq_of_toNat_eq h)
      omega
    rw [Sign.ofBitVec, if_neg hzero, hone]
    rfl

/-- The value of a number is that of its bits. -/
theorem map_value_decode? (x : Float) :
    (decode? x).map Binary.value = valueOf? x.toModel.unpack := by
  have hsigned (n : ℕ) : (((Sign.ofBitVec (@unpackSign .binary64 x.toModel.toBits.toBitVec)).apply
      n : ℤ) : ℚ) = if signBit x then -(n : ℚ) else n := by
    rw [apply_unpackSign]
    split <;> simp
  have hunpack : x.toModel.unpack = unpack .binary64 x.toModel.toBits.toBitVec := rfl
  rw [hunpack, decode?, ← toNat_unpackMantissa, ← toNat_unpackExponent]
  delta unpack
  dsimp only
  generalize @unpackExponent .binary64 x.toModel.toBits.toBitVec = E
  by_cases hones : E = -1#11
  · -- infinite, or no number
    have hone : E.toNat = 2047 := congrArg BitVec.toNat hones
    rw [if_pos hone, if_pos hones]
    split <;> rfl
  · have hone : E.toNat ≠ 2047 := fun h => hones (BitVec.eq_of_toNat_eq h)
    rw [if_neg hone, if_neg hones]
    by_cases hzeros : E = 0#11
    · have hzero : E.toNat = 0 := congrArg BitVec.toNat hzeros
      rw [if_pos hzero, if_pos hzeros, Option.map_some, Binary.value]
      by_cases hnone : @unpackMantissa .binary64 x.toModel.toBits.toBitVec = 0#52
      · rw [dif_pos hnone, hnone]
        simp [valueOf?]
      · rw [dif_neg hnone, valueOf?, hsigned, hzero]
        rfl
    · have hzero : E.toNat ≠ 0 := fun h => hzeros (BitVec.eq_of_toNat_eq h)
      rw [if_neg hzero, if_neg hzeros, Option.map_some, Binary.value, valueOf?, hsigned,
        toNat_leading, Nat.add_comm]
      rfl

/-! ### What fits into the machine -/

variable {m : ℕ} {e : ℤ} {sign : Sign} {x y : Float}

/-- An unpacked number is packed as a finite one. -/
def Fits : UnpackedFloat → Prop
  | .zero _                   => True
  | .finite _ _ e _           => e ≤ 971
  | .infinity _ | .notANumber => False

/-- The exponent is too large exactly when all its bits are set. -/
theorem unpackExponent_pack_ne_iff (u : UnpackedFloat) :
    @unpackExponent .binary64 (pack .binary64 u) ≠ -1#_ ↔ Fits u := by
  fun_cases pack .binary64 u with
  | case1 | case2 => simp [packedNaN, packedInfinity, Fits]
  | case3 => simp [packedZero, Fits]
  | case4 sign m e hm biased hlarge =>
      have hbiased : biased = (e + 1023 + 52).toNat := rfl
      have hlarge : 2048 ≤ biased + 1 := hlarge
      have hnot : ¬ e ≤ 971 := by omega
      simp [packedInfinity, Fits, hnot]
  | case5 sign m e hm bits biased hsmall =>
      have hbiased : biased = (e + 1023 + 52).toNat := rfl
      have hsmall : ¬ 2048 ≤ biased + 1 := hsmall
      rw [unpackExponent_packComponents]
      refine iff_of_true (fun hones => ?_) (show e ≤ 971 by omega)
      have hvalue : (BitVec.ofNat 11 biased).toNat = 2047 := congrArg BitVec.toNat hones
      rw [toNat_exponent (by omega)] at hvalue
      omega
  | case6 sign m e hm bits biased hsmall =>
      have hbiased : biased = (e + 1023 + 52).toNat := rfl
      have hsmall : ¬ 2048 ≤ biased + 1 := hsmall
      rw [unpackExponent_packComponents]
      exact iff_of_true nofun (show e ≤ 971 by omega)

theorem isFinite_sub_iff_fits :
    isFinite (x - y) = true ↔ Fits (sub .binary64 x.toModel.unpack y.toModel.unpack) := by
  rw [isFinite_iff_exponent]
  exact unpackExponent_pack_ne_iff _

/-- A number has at most 53 bits and an exponent of the machine. -/
def Storable : UnpackedFloat → Prop
  | .finite _ m e _                       => m < 2 ^ 53 ∧ -1074 ≤ e ∧ e ≤ 971
  | .zero _ | .infinity _ | .notANumber => True

theorem storable_unpack (x : Float) : Storable x.toModel.unpack := by
  have hlow := (@unpackMantissa .binary64 x.toModel.toBits.toBitVec).isLt
  have hfew := (@unpackExponent .binary64 x.toModel.toBits.toBitVec).isLt
  have hunpack : x.toModel.unpack = unpack .binary64 x.toModel.toBits.toBitVec := rfl
  rw [hunpack]
  delta unpack
  dsimp only [Format.exponentBias] at hlow hfew ⊢
  split
  · split <;> trivial
  next hones =>
    have hne : (@unpackExponent .binary64 x.toModel.toBits.toBitVec).toNat ≠ 2047 :=
      fun h => hones (BitVec.eq_of_toNat_eq h)
    split
    next hzeros =>
      split
      · trivial
      · rw [hzeros]
        exact ⟨by omega, by decide, by decide⟩
    next hzeros =>
      have hpos : (@unpackExponent .binary64 x.toModel.toBits.toBitVec).toNat ≠ 0 :=
        fun h => hzeros (BitVec.eq_of_toNat_eq h)
      refine ⟨?_, by omega, by omega⟩
      rw [toNat_leading]
      omega

/-! ### What is rounded out of it -/

theorem outOfRange_pos : 0 < outOfRange := by
  rw [outOfRange]
  norm_num

theorem two_mul_outOfRange : 2 * outOfRange = (2 ^ 54 - 1) * 2 ^ (971 : ℤ) := by
  have hlast : (2 : ℚ) ^ (971 : ℤ) = 2 * 2 ^ (970 : ℤ) := by
    rw [← zpow_one_add₀ two_ne_zero]
    rfl
  rw [hlast]
  exact mul_left_comm _ _ _

/-- A number of 53 bits or more is in range by its exponent, or by its leading bits. -/
theorem lt_outOfRange_iff (hm : 52 ≤ m.log2) : (m : ℚ) * 2 ^ e < outOfRange ↔
    e + (m.log2 - 52 : ℕ) < 971 ∨
      e + (m.log2 - 52 : ℕ) = 971 ∧ 2 * m < (2 ^ 54 - 1) * 2 ^ (m.log2 - 52) := by
  obtain ⟨hlow, hhigh⟩ := bounds_of_log2 hm
  generalize m.log2 - 52 = k at hlow hhigh
  have htop : outOfRange = (2 ^ 54 - 1) * 2 ^ (970 : ℤ) := rfl
  have hscale : (2 : ℚ) ^ (e + (k : ℤ)) = 2 ^ k * 2 ^ e := by
    rw [zpow_add₀ (by norm_num), zpow_natCast, mul_comm]
  -- the number lies between two powers of two, both of them scaled by the last place kept
  have hleast : 2 ^ 52 * 2 ^ (e + (k : ℤ)) ≤ (m : ℚ) * 2 ^ e := by
    rw [hscale, ← mul_assoc]
    gcongr
    exact_mod_cast hlow
  have hmost : (m : ℚ) * 2 ^ e < 2 ^ 53 * 2 ^ (e + (k : ℤ)) := by
    rw [hscale, ← mul_assoc]
    gcongr
    exact_mod_cast hhigh
  rcases lt_trichotomy (e + (k : ℤ)) 971 with hless | hequal | hmore
  · refine iff_of_true ?_ (.inl hless)
    have hmono : (2 : ℚ) ^ (e + (k : ℤ)) ≤ 2 ^ (970 : ℤ) :=
      zpow_le_zpow_right₀ (by norm_num) (by omega)
    calc (m : ℚ) * 2 ^ e < 2 ^ 53 * 2 ^ (e + (k : ℤ)) := hmost
      _ ≤ 2 ^ 53 * 2 ^ (970 : ℤ) := by gcongr
      _ < outOfRange := by
          rw [htop]
          gcongr
          norm_num
  · have htwice : 2 * outOfRange = (2 ^ 54 - 1) * 2 ^ k * 2 ^ e := by
      rw [mul_assoc, ← hscale, hequal, two_mul_outOfRange]
    have hleading : (m : ℚ) * 2 ^ e < outOfRange ↔ 2 * (m : ℚ) < (2 ^ 54 - 1) * 2 ^ k := by
      have hpos : (0 : ℚ) < 2 ^ e := by positivity
      rw [← mul_lt_mul_iff_left₀ hpos (b := 2 * (m : ℚ)), ← htwice, mul_assoc,
        mul_lt_mul_iff_right₀ two_pos]
    have hcast : 2 * (m : ℚ) < (2 ^ 54 - 1) * 2 ^ k ↔ 2 * m < (2 ^ 54 - 1) * 2 ^ k := by
      rw [← @Nat.cast_lt ℚ]
      norm_num
    rw [hleading, hcast]
    simp [hequal]
  · refine iff_of_false (not_lt.mpr ?_) (by omega)
    have hmono : (2 : ℚ) ^ (972 : ℤ) ≤ 2 ^ (e + (k : ℤ)) :=
      zpow_le_zpow_right₀ (by norm_num) (by omega)
    have hfour : (2 : ℚ) ^ (972 : ℤ) = 2 ^ 2 * 2 ^ (970 : ℤ) := zpow_add₀ two_ne_zero 2 970
    calc outOfRange = (2 ^ 54 - 1) * 2 ^ (970 : ℤ) := htop
      _ ≤ 2 ^ 52 * 2 ^ 2 * 2 ^ (970 : ℤ) := by
          gcongr
          norm_num
      _ = 2 ^ 52 * 2 ^ (972 : ℤ) := by rw [hfour, mul_assoc]
      _ ≤ 2 ^ 52 * 2 ^ (e + (k : ℤ)) := by gcongr
      _ ≤ (m : ℚ) * 2 ^ e := hleast

/-- A number that is cut to 53 bits fits exactly when it is not rounded out of range. -/
theorem fits_roundWithAccuracy_iff (sign : Sign) (hm : 52 ≤ m.log2)
    (he : -1074 ≤ e + (m.log2 - 52 : ℕ)) :
    Fits (roundWithAccuracy .binary64 sign m e .exact) ↔ (m : ℚ) * 2 ^ e < outOfRange := by
  obtain ⟨M, E, hM, hround, hrounding⟩ := roundWithAccuracy_eq sign .exact hm he
  have hfits : Fits (.finite sign M E hM) ↔ E ≤ 971 := Iff.rfl
  have hcarries := rounded_eq_iff hm
  rw [hround, hfits, lt_outOfRange_iff hm]
  cases hrounding with
  | leading h => omega
  | carried h => omega

theorem decreaseExponent_value (m : ℕ) (e : ℤ) (k : ℕ) :
    ((m <<< k : ℕ) : ℚ) * 2 ^ (e - k) = m * 2 ^ e := by
  rw [Nat.shiftLeft_eq, zpow_sub₀ two_ne_zero, zpow_natCast]
  push_cast
  field_simp

/-- A number below the normal ones is not rounded. -/
theorem fits_roundWithAccuracy_subnormal (sign : Sign) (hm : 0 < m) (hlog : m.log2 < 52) :
    Fits (roundWithAccuracy .binary64 sign m (-1074) .exact) ∧
      (m : ℚ) * 2 ^ (-1074 : ℤ) < outOfRange := by
  have hlt : m < 2 ^ 52 := (Nat.log2_lt hm.ne').mp hlog
  have hshift := @shiftToTargetExponent_leading m (-1074) (by omega) le_rfl
  constructor
  · rw [@roundWithAccuracy_of_shifts _ _ _ _ _ _ ⟨m, false, false⟩ _ hm hshift hshift]
    exact (by decide : (-1074 : ℤ) ≤ 971)
  · have hcast : (m : ℚ) < 2 ^ 52 := by exact_mod_cast hlt
    calc (m : ℚ) * 2 ^ (-1074 : ℤ) ≤ m * 1 := by
          gcongr
          exact zpow_le_one_of_nonpos₀ (by norm_num) (by norm_num)
      _ < 2 ^ 52 * 1 := by gcongr
      _ ≤ outOfRange := by
          rw [outOfRange]
          gcongr
          · norm_num
          · exact one_le_pow₀ (by norm_num)

/-- A number fits exactly when it is not rounded out of range. -/
theorem fits_round_iff (sign : Sign) (hm : 0 < m) (he : -1074 ≤ e) :
    Fits (UnpackedFloat.round .binary64 sign m e) ↔ (m : ℚ) * 2 ^ e < outOfRange := by
  obtain ⟨k, hk⟩ : ∃ k, (e - Format.binary64.targetExponent (totalExponent m e)).toNat = k :=
    ⟨_, rfl⟩
  have hlog := log2_shiftLeft m k hm.ne'
  have hvalue := decreaseExponent_value m e k
  simp only [UnpackedFloat.round, decreaseExponent, hk]
  simp only [Format.targetExponent, totalExponent, Format.mantissaBits, Format.minExponent] at hk
  rw [← hvalue]
  by_cases hnormal : -1022 ≤ e + m.log2
  · exact fits_roundWithAccuracy_iff sign (by omega) (by omega)
  · have hleast : e - k = -1074 := by omega
    rw [hleast]
    obtain ⟨hfits, hrange⟩ :=
      @fits_roundWithAccuracy_subnormal _ sign (shiftLeft_pos hm.ne' k) (by omega)
    exact iff_of_true hfits hrange

theorem fits_normalize_iff {n : ℤ} (he : -1074 ≤ e) (zeroSign : Sign) :
    Fits (UnpackedFloat.normalize .binary64 n e zeroSign) ↔ |(n : ℚ)| * 2 ^ e < outOfRange := by
  have hround (sign : Sign) (hn : n ≠ 0) :
      Fits (UnpackedFloat.round .binary64 sign n.natAbs e) ↔ |(n : ℚ)| * 2 ^ e < outOfRange := by
    rw [fits_round_iff sign (Int.natAbs_pos.mpr hn) he, Nat.cast_natAbs, Int.cast_abs]
  rw [UnpackedFloat.normalize]
  rcases lt_trichotomy n 0 with hneg | rfl | hpos
  · have habs : (-n).toNat = n.natAbs := by omega
    rw [Int.compare_eq_lt.mpr hneg]
    dsimp only
    rw [habs]
    exact hround _ hneg.ne
  · simpa [Fits] using outOfRange_pos
  · have habs : n.toNat = n.natAbs := by omega
    rw [Int.compare_eq_gt.mpr hpos]
    dsimp only
    rw [habs]
    exact hround _ hpos.ne'

/-! ### Differences -/

theorem apply_value (sign : Sign) (m : ℕ) (e : ℤ) (k : ℕ) :
    ((sign.apply (m <<< k : ℕ) : ℤ) : ℚ) * 2 ^ (e - k) = sign.apply m * 2 ^ e := by
  have hvalue := decreaseExponent_value m e k
  cases sign with
  | negative =>
      simp only [Sign.apply, Int.cast_neg, Int.cast_natCast, neg_mul, hvalue]
  | positive => exact hvalue

theorem abs_apply (sign : Sign) (m : ℕ) : |((sign.apply m : ℤ) : ℚ)| = m := by
  cases sign <;> simp [Sign.apply]

/-- No number of the machine is out of range. -/
theorem storable_lt_outOfRange {hm : 0 < m} (h : Storable (.finite sign m e hm)) :
    |((sign.apply m : ℤ) : ℚ) * 2 ^ e| < outOfRange := by
  obtain ⟨hfew, -, hhigh⟩ := h
  have hodd : 2 * m + 1 < 2 ^ 54 := by omega
  have hcast : 2 * (m : ℚ) < 2 ^ 54 - 1 := by
    rw [lt_sub_iff_add_lt]
    exact_mod_cast hodd
  have hmono : (2 : ℚ) ^ e ≤ 2 ^ (971 : ℤ) := zpow_le_zpow_right₀ (by norm_num) hhigh
  rw [abs_mul, abs_apply, abs_of_pos (by positivity), ← mul_lt_mul_iff_right₀ two_pos]
  calc 2 * ((m : ℚ) * 2 ^ e) ≤ 2 * (m * 2 ^ (971 : ℤ)) := by gcongr
    _ = 2 * m * 2 ^ (971 : ℤ) := (mul_assoc _ _ _).symm
    _ < (2 ^ 54 - 1) * 2 ^ (971 : ℤ) := by gcongr
    _ = 2 * outOfRange := two_mul_outOfRange.symm

/-- Two numbers are subtracted exactly, at the smaller of their exponents, and then rounded. -/
theorem fits_sub_finite_iff {s s' : Sign} {m m' : ℕ} {e e' : ℤ} {hm : 0 < m} {hm' : 0 < m'}
    (he : -1074 ≤ e) (he' : -1074 ≤ e') :
    Fits (sub .binary64 (.finite s m e hm) (.finite s' m' e' hm')) ↔
      |((s.apply m : ℤ) : ℚ) * 2 ^ e - ((s'.apply m' : ℤ) : ℚ) * 2 ^ e'| < outOfRange := by
  obtain ⟨k, hk⟩ : ∃ k, (e - min e e').toNat = k := ⟨_, rfl⟩
  obtain ⟨k', hk'⟩ : ∃ k', (e' - min e e').toNat = k' := ⟨_, rfl⟩
  have hleft : e - k = min e e' := by omega
  have hright : e' - k' = min e e' := by omega
  have hvalue := apply_value s m e k
  have hvalue' := apply_value s' m' e' k'
  rw [hleft] at hvalue
  rw [hright] at hvalue'
  rw [← hvalue, ← hvalue', ← sub_mul, abs_mul, abs_of_pos (by positivity : (0 : ℚ) < 2 ^ min e e'),
    ← Int.cast_sub]
  simp only [sub, decreaseExponent, hk, hk']
  exact fits_normalize_iff (by omega) _

theorem fits_sub_iff {u v : UnpackedFloat} (hu : Storable u) (hv : Storable v) :
    Fits (sub .binary64 u v) ↔
      ∃ p q, valueOf? u = some p ∧ valueOf? v = some q ∧ |p - q| < outOfRange := by
  cases u with
  | notANumber => simp [sub, Fits, valueOf?]
  | infinity s =>
      have hout : ¬ Fits (sub .binary64 (.infinity s) v) := by
        cases v with
        | infinity s' => cases s <;> cases s' <;> exact id
        | notANumber | zero | finite => exact id
      exact iff_of_false hout (by simp [valueOf?])
  | zero s =>
      cases v with
      | notANumber | infinity s' => simp [sub, Fits, valueOf?]
      | zero s' =>
          have hzero : Fits (sub .binary64 (.zero s) (.zero s')) := by
            cases s <;> cases s' <;> trivial
          exact iff_of_true hzero ⟨0, 0, rfl, rfl, by simpa using outOfRange_pos⟩
      | finite s' m' e' hm' =>
          refine iff_of_true hv.2.2 ⟨0, _, rfl, rfl, ?_⟩
          rw [zero_sub, abs_neg]
          exact storable_lt_outOfRange hv
  | finite s m e hm =>
      cases v with
      | notANumber | infinity s' => simp [sub, Fits, valueOf?]
      | zero s' =>
          refine iff_of_true hu.2.2 ⟨_, 0, rfl, rfl, ?_⟩
          rw [sub_zero]
          exact storable_lt_outOfRange hu
      | finite s' m' e' hm' =>
          rw [fits_sub_finite_iff hu.2.1 hv.2.1]
          simp [valueOf?]

/-- **The difference of two numbers is finite** exactly when both are and their exact difference is
not rounded out of range. -/
theorem isFinite_sub_iff : isFinite (x - y) = true ↔ ∃ a b, decode? x = some a ∧
    decode? y = some b ∧ |a.value - b.value| < outOfRange := by
  rw [isFinite_sub_iff_fits, fits_sub_iff (storable_unpack x) (storable_unpack y),
    ← map_value_decode?, ← map_value_decode?]
  simp only [Option.map_eq_some_iff]
  constructor
  · rintro ⟨_, _, ⟨a, ha, rfl⟩, ⟨b, hb, rfl⟩, h⟩
    exact ⟨a, b, ha, hb, h⟩
  · rintro ⟨a, b, ha, hb, h⟩
    exact ⟨_, _, ⟨a, ha, rfl⟩, ⟨b, hb, rfl⟩, h⟩

end SiteSafety.Decimal
