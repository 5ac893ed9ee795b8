import SiteSafety.Proofs.Decimal.Rounding

/-!
# Proofs — Decimal — Quotient

The quotient of two naturals as a machine number.  A natural within the range of the machine is
rounded to a mantissa of all bits with an exponent, and **a lesser one is never rounded to a greater
number** (`isRounding_le_of_le`); so the quotient by a natural that is not less, once it is rounded
itself, is still not above 1 (`quotient_le_one`).
-/

namespace SiteSafety.Decimal
open Float.Model (UnpackedFloat Format totalExponent)
open Float.Model.UnpackedFloat

variable {m m' M M' : Nat} {e e' E E' : Int} {acc acc' : Accuracy} {sign : Sign}

/-! ### Naturals -/

/-- By how many bits a natural is lengthened before it is rounded. -/
def padding (n : Nat) : Nat := if n.log2 < 53 then 104 - n.log2 else 53

/-- A natural of at most 53 bits is not rounded. -/
theorem unpack_toFloat {n : Nat} (hn : n ≠ 0) (hlog : n.log2 < 53) :
    n.toUInt64.toFloat.toModel.unpack =
      .finite .positive (n <<< (52 - n.log2)) (-(52 - n.log2 : Nat)) (shiftLeft_pos hn _) := by
  have hvalue : n.toUInt64.toNat = n := by
    have hlt : n < 2 ^ 53 := (Nat.log2_lt hn).mp hlog
    rw [UInt64.toNat_ofNat']
    omega
  have hlength : (n <<< (52 - n.log2)).log2 = 52 := by
    rw [log2_shiftLeft n _ hn]
    omega
  obtain ⟨hleast, hmost⟩ := (Nat.log2_eq_iff (shiftLeft_pos hn _).ne').mp hlength
  have hround : UnpackedFloat.round .binary64 .positive n 0 =
      .finite .positive (n <<< (52 - n.log2)) (-(52 - n.log2 : Nat)) (shiftLeft_pos hn _) := by
    have htarget : Format.binary64.targetExponent (totalExponent n 0) = -(52 - n.log2 : Nat) := by
      simp only [Format.targetExponent, totalExponent, Format.mantissaBits, Format.minExponent]
      omega
    have hshift := shiftToTargetExponent_leading (e := -(52 - n.log2 : Nat)) hmost (by omega)
    simp only [UnpackedFloat.round, htarget, decreaseExponent, zero_sub, neg_neg, Int.toNat_natCast]
    exact roundWithAccuracy_of_shifts (shiftLeft_pos hn _) hshift hshift
  calc n.toUInt64.toFloat.toModel.unpack
      = (Float.Model.pack
          (UnpackedFloat.normalize .binary64 n.toUInt64.toNat 0 .positive)).unpack := rfl
    _ = (Float.Model.pack (UnpackedFloat.round .binary64 .positive n 0)).unpack := by
        rw [hvalue, UnpackedFloat.normalize, Int.compare_eq_gt.mpr (by omega)]
        rfl
    _ = _ := by rw [hround, unpack_pack hlength (by omega) (by omega)]

theorem unpack_one : (Float.ofBits 0x3FF0000000000000).toModel.unpack =
    .finite .positive (2 ^ 52) (-52) (by decide) := by
  rfl

theorem toModel_ofNat_of_lt {n : Nat} (hn : n ≠ 0) (hlog : n.log2 < 53) :
    (Float.ofNat n).toModel = Float.Model.pack (roundWithAccuracy .binary64 .positive
      (n <<< padding n) (-padding n) .exact) := by
  have hfast : n < 2 ^ 53 ∧ 0 ≤ 22 := ⟨(Nat.log2_lt hn).mp hlog, by decide⟩
  have hofNat : Float.ofNat n = n.toUInt64.toFloat * Float.ofBits 0x3FF0000000000000 :=
    dif_pos hfast
  have hmul : (Float.ofNat n).toModel = Float.Model.pack (mul .binary64
      n.toUInt64.toFloat.toModel.unpack (Float.ofBits 0x3FF0000000000000).toModel.unpack) := by
    rw [hofNat]
    rfl
  have hmantissa : n <<< (52 - n.log2) * 2 ^ 52 = n <<< padding n := by
    rw [padding, if_pos hlog, ← Nat.shiftLeft_eq, ← Nat.shiftLeft_add]
    congr 1
    omega
  have hexponent : -(52 - n.log2 : Nat) + (-52 : Int) = -padding n := by
    rw [padding, if_pos hlog]
    omega
  rw [hmul, unpack_toFloat hn hlog, unpack_one, mul, hmantissa, hexponent]
  rfl

theorem toModel_ofNat_of_le {n : Nat} (hlog : 53 ≤ n.log2) :
    (Float.ofNat n).toModel = Float.Model.pack (roundWithAccuracy .binary64 .positive
      (n <<< padding n) (-padding n) .exact) := by
  have hn : n ≠ 0 := by
    rintro rfl
    simp at hlog
  have hslow : ¬ (n < 2 ^ 53 ∧ 0 ≤ 22) := by
    rw [← Nat.log2_lt hn]
    omega
  have hofNat : Float.ofNat n = Float.ofModel (Float.Model.ofScientific n (Int.ofNat 0)) :=
    dif_neg hslow
  rw [hofNat, padding, if_neg (by omega)]
  have hmul : ofScientific .binary64 n (Int.ofNat 0) =
      roundWithAccuracy .binary64 .positive (n <<< 53) (-53) .exact := by
    have hten : n <<< Format.binary64.mantissaBits * 10 ^ (Int.ofNat 0).toNat = n <<< 53 :=
      Nat.mul_one _
    rw [ofScientific, dif_neg hn, if_neg (by simp), if_neg (by simp), if_pos (by simp), mul, hten]
    rfl
  rw [Float.Model.ofScientific, hmul]
  rfl

theorem toModel_ofNat {n : Nat} (hn : n ≠ 0) :
    (Float.ofNat n).toModel = Float.Model.pack
      (roundWithAccuracy .binary64 .positive (n <<< padding n) (-padding n) .exact) := by
  rcases Nat.lt_or_ge n.log2 53 with hlog | hlog
  · exact toModel_ofNat_of_lt hn hlog
  · exact toModel_ofNat_of_le hlog

/-- The exponent of a natural does not depend on its padding. -/
theorem log2_padded {n : Nat} (hn : n ≠ 0) : 52 ≤ (n <<< padding n).log2 ∧
    -padding n + ((n <<< padding n).log2 - 52 : Nat) = (n.log2 : Int) - 52 := by
  rw [log2_shiftLeft n _ hn, padding]
  split <;> omega

/-- A natural within the range of the machine is a normal number. -/
theorem unpack_ofNat {n : Nat} (hn : n ≠ 0) (hlog : n.log2 < 64) :
    ∃ M E hM, (Float.ofNat n).toModel.unpack = .finite .positive M E hM ∧ M.log2 = 52 ∧
      -52 ≤ E ∧ E ≤ 12 ∧ IsRounding (n <<< padding n) (-padding n) .exact M E := by
  obtain ⟨hlength, hexponent⟩ := log2_padded hn
  obtain ⟨M, E, hM, hround, hrounding⟩ :=
    @roundWithAccuracy_eq _ (-padding n) .positive .exact hlength (by omega)
  have hM52 := hrounding.log2_eq hlength
  have hE : -52 ≤ E ∧ E ≤ 12 := by cases hrounding <;> omega
  refine ⟨M, E, hM, ?_, hM52, hE.1, hE.2, hrounding⟩
  rw [toModel_ofNat hn, hround, unpack_pack hM52 (by omega) (by omega)]

/-- A lesser natural is not rounded to a greater number. -/
theorem isRounding_le_of_le {n n' : Nat} (hn : n ≠ 0) (hle : n ≤ n')
    (h : IsRounding (n <<< padding n) (-padding n) .exact M E)
    (h' : IsRounding (n' <<< padding n') (-padding n') .exact M' E') :
    E < E' ∨ E = E' ∧ M ≤ M' := by
  have hn' : n' ≠ 0 := by omega
  obtain ⟨-, hexponent⟩ := log2_padded hn
  obtain ⟨hlength', hexponent'⟩ := log2_padded hn'
  refine h.le hlength' h' ?_
  have hlog : n.log2 ≤ n'.log2 := (Nat.le_log2 hn').mpr ((Nat.log2_self_le hn).trans hle)
  rcases Nat.lt_or_eq_of_le hlog with hlt | heq
  · exact .inl (by omega)
  · refine .inr ⟨by omega, ?_⟩
    have hpadding : padding n = padding n' := by rw [padding, padding, heq]
    rw [rounded, rounded, log2_shiftLeft n _ hn, log2_shiftLeft n' _ hn', heq, hpadding]
    refine roundedMantissa_mono (weight_shiftRight ?_ _)
    simp only [weight, ExtendedMantissa.ofMantissaAndAccuracy, Nat.shiftLeft_eq]
    have hpadded := Nat.mul_le_mul_right (2 ^ padding n') hle
    simpa using hpadded

/-! ### Quotients -/

/-- Numbers of 53 bits are divided with 53 bits to spare. -/
theorem divCore_eq (hM : M.log2 = 52) (hM' : M'.log2 = 52) (he : -1021 ≤ E - E') :
    divCore .binary64 M E M' E' =
      ((M <<< 53) / M', E - E' - 53, accuracyOfFraction ((M <<< 53) % M') M') := by
  have htarget : Format.binary64.targetExponent (totalExponent M E - totalExponent M' E') =
      E - E' - 53 := by
    simp only [Format.targetExponent, totalExponent, Format.mantissaBits, Format.minExponent]
    omega
  have hshift : (E - E' - min (E - E') (E - E' - 53)).toNat = 53 := by omega
  simp only [divCore, htarget, hshift]
  rw [min_eq_right (by omega)]

/-- The quotient of the mantissas has 53 or 54 bits. -/
theorem log2_quotient (hM : M.log2 = 52) (hM' : M'.log2 = 52) :
    ((M <<< 53) / M').log2 = 52 ∧ M < M' ∨ ((M <<< 53) / M').log2 = 53 ∧ M' ≤ M := by
  have hpos : M ≠ 0 := by rintro rfl; simp at hM
  have hpos' : M' ≠ 0 := by rintro rfl; simp at hM'
  obtain ⟨hlow, hhigh⟩ := (Nat.log2_eq_iff hpos).mp hM
  obtain ⟨hlow', hhigh'⟩ := (Nat.log2_eq_iff hpos').mp hM'
  rw [Nat.shiftLeft_eq]
  have hleast : 2 ^ 52 ≤ M * 2 ^ 53 / M' := by
    rw [Nat.le_div_iff_mul_le (by omega)]
    omega
  rcases Nat.lt_or_ge M M' with hlt | hge
  · refine .inl ⟨log2_eq hleast ?_, hlt⟩
    rw [Nat.div_lt_iff_lt_mul (by omega)]
    omega
  · refine .inr ⟨(Nat.log2_eq_iff (by omega)).mpr ⟨?_, ?_⟩, hge⟩
    · rw [Nat.le_div_iff_mul_le (by omega)]
      omega
    · rw [Nat.div_lt_iff_lt_mul (by omega)]
      omega

/-- A number divided by itself leaves the mantissa of 1. -/
theorem rounded_self (hM : 0 < M) : rounded ((M <<< 53) / M)
    (accuracyOfFraction ((M <<< 53) % M) M) = 2 ^ 52 := by
  have hquotient : (M <<< 53) / M = 2 ^ 53 := by
    rw [Nat.shiftLeft_eq, Nat.mul_div_cancel_left _ hM]
  have hrest : (M <<< 53) % M = 0 := by rw [Nat.shiftLeft_eq, Nat.mul_mod_right]
  have hexact : accuracyOfFraction 0 M = .exact := if_pos rfl
  rw [hquotient, hrest, hexact, rounded, Nat.log2_two_pow]
  rfl

/-- The quotient of a number by one that does not stand before it is rounded to 1 at most. -/
theorem div_le_one {hM : 0 < M} {hM' : 0 < M'} (hlog : M.log2 = 52) (hlog' : M'.log2 = 52)
    (he : -1021 ≤ E - E') (hle : E < E' ∨ E = E' ∧ M ≤ M') :
    ∃ m e hm, div .binary64 (.finite .positive M E hM) (.finite .positive M' E' hM') =
        .finite .positive m e hm ∧ m.log2 = 52 ∧ E - E' - 53 ≤ e ∧
      (e < -52 ∨ e = -52 ∧ m = 2 ^ 52) := by
  have hquotient := log2_quotient hlog hlog'
  obtain ⟨m, e, hm, hround, hrounding⟩ := @roundWithAccuracy_eq ((M <<< 53) / M') (E - E' - 53)
    .positive (accuracyOfFraction ((M <<< 53) % M') M') (by omega) (by omega)
  refine ⟨m, e, hm, ?_, hrounding.log2_eq (by omega), by cases hrounding <;> omega, ?_⟩
  · rw [div, divCore_eq hlog hlog' he]
    exact hround
  · by_cases hself : E = E' ∧ M = M'
    · obtain ⟨rfl, rfl⟩ := hself
      have hone := rounded_self hM
      cases hrounding <;> omega
    · cases hrounding <;> omega

variable {x y : Float}

/-- A number that is unpacked as one is finite. -/
theorem isFinite_of_unpack {hM : 0 < M} (h : x.toModel.unpack = .finite sign M E hM) :
    isFinite x = true := by
  by_contra hnot
  -- the bits of the exponent are all set, and then no number is unpacked
  have hexponent := not_not.mp (mt isFinite_iff_exponent.mpr hnot)
  rw [Float.Model.unpack, unpack] at h
  dsimp only at h
  rw [if_pos hexponent] at h
  split at h <;> cases h

/-- **The quotient of a natural by one that is not less** is a number from 0 to 1. -/
theorem quotient_le_one {n n' : Nat} (hn : n ≠ 0) (hle : n ≤ n') (hlog : n'.log2 < 64) :
    isFinite (Float.ofNat n / Float.ofNat n') = true ∧ 0.0 ≤ Float.ofNat n / Float.ofNat n' ∧
      Float.ofNat n / Float.ofNat n' ≤ 1.0 := by
  have hn' : n' ≠ 0 := by omega
  have hlog2 : n.log2 ≤ n'.log2 := (Nat.le_log2 hn').mpr ((Nat.log2_self_le hn).trans hle)
  obtain ⟨M, E, hM, hunpack, hM52, hlow, hhigh, hrounding⟩ := unpack_ofNat hn (by omega)
  obtain ⟨M', E', hM', hunpack', hM52', hlow', hhigh', hrounding'⟩ := unpack_ofNat hn' hlog
  have hstands := isRounding_le_of_le hn hle hrounding hrounding'
  obtain ⟨m, e, hm, hdiv, hm52, he, hone⟩ :=
    @div_le_one M M' E E' hM hM' hM52 hM52' (by omega) hstands
  have hquotient : (Float.ofNat n / Float.ofNat n').toModel.unpack = .finite .positive m e hm :=
    calc (Float.ofNat n / Float.ofNat n').toModel.unpack
        = (Float.Model.pack (div .binary64 (Float.ofNat n).toModel.unpack
            (Float.ofNat n').toModel.unpack)).unpack := rfl
      _ = .finite .positive m e hm := by
          rw [hunpack, hunpack', hdiv, unpack_pack hm52 (by omega) (by omega)]
  have hzero : (0.0 : Float).toModel.unpack = .zero .positive := rfl
  have hunit : (1.0 : Float).toModel.unpack = .finite .positive (2 ^ 52) (-52) (by decide) := rfl
  refine ⟨isFinite_of_unpack hquotient, ?_, ?_⟩
  · rw [le_iff_compare, hzero, hquotient]
    rfl
  · rw [le_iff_compare, hunit, hquotient]
    rcases hone with hlt | ⟨rfl, rfl⟩
    · have hcompare : compare e (-52) = .lt := Int.compare_eq_lt.mpr hlt
      simp [UnpackedFloat.compare, hcompare]
    · rfl

end SiteSafety.Decimal
