import SiteSafety.Decimal.Binary

/-!
# Proofs — Decimal — Finite

A number whose exponent bits leave room for an exact value is neither infinite nor the value that
is no number, and any other number is one of these (`isFinite_iff`).  `isFinite` looks at the bits
as a natural, `isNaN` and `isInf` at the unpacked number; the exponent field is where the two meet
(`isFinite_iff_exponent`).
-/

namespace SiteSafety.Decimal
open Float.Model (UnpackedFloat)

theorem toNat_unpackExponent (x : Float) :
    (@UnpackedFloat.unpackExponent .binary64 x.toModel.toBits.toBitVec).toNat =
      x.toBits.toNat / hiddenBit % 2048 := by
  delta Float.toBits hiddenBit
  simp [UnpackedFloat.unpackExponent, BitVec.extractLsb, Nat.shiftRight_eq_div_pow]

/-- A number is finite unless the bits of its exponent are all set. -/
theorem isFinite_iff_exponent {x : Float} : isFinite x = true ↔
    @UnpackedFloat.unpackExponent .binary64 x.toModel.toBits.toBitVec ≠ -1#_ := by
  have hones : @UnpackedFloat.unpackExponent .binary64 x.toModel.toBits.toBitVec = -1#_ ↔
      x.toBits.toNat / hiddenBit % 2048 = 2047 := by
    rw [← toNat_unpackExponent]
    exact ⟨fun h => congrArg BitVec.toNat h, fun h => BitVec.eq_of_toNat_eq h⟩
  rw [Ne, hones, isFinite, decode?]
  by_cases hall : x.toBits.toNat / hiddenBit % 2048 = 2047
  · simp [hall]
  · rw [if_neg hall]
    split <;> simp [hall]

/-- A finite number is unpacked as a zero or as a mantissa with an exponent. -/
theorem unpack_of_isFinite {x : Float} (h : isFinite x = true) :
    (∃ sign, x.toModel.unpack = .zero sign) ∨
      ∃ sign mantissa exponent hne, x.toModel.unpack = .finite sign mantissa exponent hne := by
  have he := isFinite_iff_exponent.mp h
  unfold Float.Model.unpack
  delta UnpackedFloat.unpack
  dsimp only
  rw [if_neg he]
  by_cases hzero : @UnpackedFloat.unpackExponent .binary64 x.toModel.toBits.toBitVec = 0#_
  · rw [if_pos hzero]
    by_cases hmantissa : @UnpackedFloat.unpackMantissa .binary64 x.toModel.toBits.toBitVec = 0#_
    · exact .inl ⟨_, dif_pos hmantissa⟩
    · exact .inr ⟨_, _, _, _, dif_neg hmantissa⟩
  · rw [if_neg hzero]
    exact .inr ⟨_, _, _, _, rfl⟩

theorem isNaN_of_isFinite {x : Float} (h : isFinite x = true) : x.isNaN = false := by
  unfold Float.isNaN Float.Model.isNaN
  rcases unpack_of_isFinite h with ⟨_, hunpack⟩ | ⟨_, _, _, _, hunpack⟩
  · rw [hunpack]
    rfl
  · rw [hunpack]
    rfl

theorem isInf_of_isFinite {x : Float} (h : isFinite x = true) : x.isInf = false := by
  unfold Float.isInf Float.Model.isInf
  rcases unpack_of_isFinite h with ⟨_, hunpack⟩ | ⟨_, _, _, _, hunpack⟩
  · rw [hunpack]
    rfl
  · rw [hunpack]
    rfl

/-- A number is finite unless it is infinite or no number. -/
theorem isFinite_iff {x : Float} : isFinite x = true ↔ x.isNaN = false ∧ x.isInf = false := by
  constructor
  · intro h
    exact ⟨isNaN_of_isFinite h, isInf_of_isFinite h⟩
  · rintro ⟨hnan, hinf⟩
    refine Decidable.byContradiction fun hnot => ?_
    have he := Decidable.not_not.mp (mt isFinite_iff_exponent.mpr hnot)
    unfold Float.isNaN Float.Model.isNaN Float.Model.unpack at hnan
    unfold Float.isInf Float.Model.isInf Float.Model.unpack at hinf
    delta UnpackedFloat.unpack at hnan hinf
    dsimp only at hnan hinf
    rw [if_pos he] at hnan hinf
    -- all bits of the exponent set, the mantissa says which of the two it is
    split at hnan
    next hzero =>
      rw [if_pos hzero] at hinf
      cases hinf
    next => cases hnan

end SiteSafety.Decimal
