import Mathlib.Data.Prod.Lex
import SiteSafety.Proofs.Decimal.Finite

/-!
# Proofs — Decimal — Order

Numbers other than the one that is no number stand in a line: each has a `standing`, its side of
zero with an exponent and a mantissa, and one is less than another exactly when it stands before it
(`lt_iff_standing`).  So what is less than a number is less than every number that is not less than
that one (`lt_of_lt_of_not_lt`).  The value that is no number stands in no relation to any number,
and the absolute value of a number is a number (`isNaN_of_lt`, `isNaN_abs`).
-/

namespace SiteSafety.Decimal
open Float.Model (UnpackedFloat)

/-- Where a number stands: its side of zero, its exponent and its mantissa, the last two of which
count downwards below zero. -/
def standing : UnpackedFloat → ℤ ×ₗ ℤ ×ₗ ℤ
  | .infinity .negative     => toLex (-2, toLex (0, 0))
  | .finite .negative m e _ => toLex (-1, toLex (-e, -m))
  | .zero _ | .notANumber   => toLex (0, toLex (0, 0))
  | .finite .positive m e _ => toLex (1, toLex (e, m))
  | .infinity .positive     => toLex (2, toLex (0, 0))

theorem then_eq_lt_iff {e e' : ℤ} {m m' : ℕ} :
    (compare e e').then (compare m m') = .lt ↔ e < e' ∨ e = e' ∧ m < m' := by
  rw [Ordering.then_eq_lt, compare_lt_iff_lt, compare_eq_iff_eq, compare_lt_iff_lt]

theorem then_eq_gt_iff {e e' : ℤ} {m m' : ℕ} :
    (compare e e').then (compare m m') = .gt ↔ e' < e ∨ e = e' ∧ m' < m := by
  rw [Ordering.then_eq_gt, compare_gt_iff_gt, compare_eq_iff_eq, compare_gt_iff_gt]

theorem isLE_then_iff {e e' : ℤ} {m m' : ℕ} :
    ((compare e e').then (compare m m')).isLE = true ↔ e < e' ∨ e = e' ∧ m ≤ m' := by
  rw [← Ordering.ne_gt_iff_isLE, then_eq_gt_iff]
  omega

theorem isGE_then_iff {e e' : ℤ} {m m' : ℕ} :
    ((compare e e').then (compare m m')).isGE = true ↔ e' < e ∨ e = e' ∧ m' ≤ m := by
  rw [← Ordering.ne_lt_iff_isGE, then_eq_lt_iff]
  omega

theorem compare_eq_lt_iff {a b : UnpackedFloat} (ha : a ≠ .notANumber) (hb : b ≠ .notANumber) :
    a.compare b = some .lt ↔ standing a < standing b := by
  rcases a with ⟨_ | _⟩ | _ | _ | ⟨_ | _, m, e, hm⟩ <;>
    rcases b with ⟨_ | _⟩ | _ | _ | ⟨_ | _, m', e', hm'⟩
  case finite.negative.finite.negative =>
      dsimp only [UnpackedFloat.compare, standing]
      simp [Prod.Lex.toLex_lt_toLex, then_eq_gt_iff]
  case finite.positive.finite.positive =>
      dsimp only [UnpackedFloat.compare, standing]
      simp [Prod.Lex.toLex_lt_toLex, then_eq_lt_iff]
  -- in all other cases the side of zero decides
  all_goals first
    | exact absurd rfl ha
    | exact absurd rfl hb
    | dsimp only [UnpackedFloat.compare, standing]
      simp [Prod.Lex.toLex_lt_toLex, compare]

theorem isLE_compare_iff {a b : UnpackedFloat} (ha : a ≠ .notANumber) (hb : b ≠ .notANumber) :
    (a.compare b).any (·.isLE) = true ↔ standing a ≤ standing b := by
  rcases a with ⟨_ | _⟩ | _ | _ | ⟨_ | _, m, e, hm⟩ <;>
    rcases b with ⟨_ | _⟩ | _ | _ | ⟨_ | _, m', e', hm'⟩
  case finite.negative.finite.negative =>
      dsimp only [UnpackedFloat.compare, standing]
      simp [Prod.Lex.toLex_le_toLex, isGE_then_iff]
  case finite.positive.finite.positive =>
      dsimp only [UnpackedFloat.compare, standing]
      simp [Prod.Lex.toLex_le_toLex, isLE_then_iff]
  all_goals first
    | exact absurd rfl ha
    | exact absurd rfl hb
    | dsimp only [UnpackedFloat.compare, standing]
      simp [Prod.Lex.toLex_le_toLex, compare]

variable {x y z : Float}

theorem unpack_ne_of_isNaN (h : x.isNaN = false) : x.toModel.unpack ≠ .notANumber := by
  intro hx
  rw [Float.isNaN, Float.Model.isNaN, hx] at h
  cases h

theorem lt_iff_compare : x < y ↔ x.toModel.unpack.compare y.toModel.unpack = some .lt := by
  calc x < y ↔ decide (x.toModel < y.toModel) = true := Iff.rfl
    _ ↔ x.toModel < y.toModel := decide_eq_true_iff
    _ ↔ (x.toModel.unpack.compare y.toModel.unpack == some .lt) = true := Iff.rfl
    _ ↔ x.toModel.unpack.compare y.toModel.unpack = some .lt := beq_iff_eq

theorem le_iff_compare :
    x ≤ y ↔ (x.toModel.unpack.compare y.toModel.unpack).any (·.isLE) = true := by
  calc x ≤ y ↔ decide (x.toModel ≤ y.toModel) = true := Iff.rfl
    _ ↔ x.toModel ≤ y.toModel := decide_eq_true_iff
    _ ↔ _ := Iff.rfl

/-- One number is less than another when it stands before it. -/
theorem lt_iff_standing (hx : x.isNaN = false) (hy : y.isNaN = false) :
    x < y ↔ standing x.toModel.unpack < standing y.toModel.unpack := by
  rw [lt_iff_compare, compare_eq_lt_iff (unpack_ne_of_isNaN hx) (unpack_ne_of_isNaN hy)]

/-- What is less than a number is less than whatever is not less than that one. -/
theorem lt_of_lt_of_not_lt (hx : x.isNaN = false) (hy : y.isNaN = false) (hz : z.isNaN = false)
    (hxy : x < y) (hzy : ¬ z < y) : x < z := by
  rw [lt_iff_standing hx hy] at hxy
  rw [lt_iff_standing hz hy, not_lt] at hzy
  rw [lt_iff_standing hx hz]
  exact lt_of_lt_of_le hxy hzy

/-- Of two numbers one is not above the other exactly when the other is not below it. -/
theorem not_le_iff (hx : x.isNaN = false) (hy : y.isNaN = false) : ¬ x ≤ y ↔ y < x := by
  rw [le_iff_compare, isLE_compare_iff (unpack_ne_of_isNaN hx) (unpack_ne_of_isNaN hy), not_le,
    lt_iff_standing hy hx]

theorem unpack_of_isNaN (h : x.isNaN = true) : x.toModel.unpack = .notANumber := by
  rw [Float.isNaN, Float.Model.isNaN] at h
  cases hx : x.toModel.unpack with
  | notANumber => rfl
  | infinity | zero | finite =>
      rw [hx] at h
      cases h

/-- What is less than something is a number, and so is that. -/
theorem isNaN_of_lt (h : x < y) : x.isNaN = false ∧ y.isNaN = false := by
  rw [lt_iff_compare] at h
  refine ⟨Bool.eq_false_iff.mpr fun hx => ?_, Bool.eq_false_iff.mpr fun hy => ?_⟩
  · rw [unpack_of_isNaN hx] at h
    cases h
  · rw [unpack_of_isNaN hy] at h
    cases hx : x.toModel.unpack <;> rw [hx] at h <;> cases h

theorem lt_irrefl (x : Float) : ¬ x < x := by
  intro h
  obtain ⟨hx, -⟩ := isNaN_of_lt h
  rw [lt_iff_standing hx hx] at h
  exact h.false

theorem lt_trans (hxy : x < y) (hyz : y < z) : x < z := by
  obtain ⟨hx, hy⟩ := isNaN_of_lt hxy
  obtain ⟨-, hz⟩ := isNaN_of_lt hyz
  rw [lt_iff_standing hx hy] at hxy
  rw [lt_iff_standing hy hz] at hyz
  rw [lt_iff_standing hx hz]
  exact hxy.trans hyz

/-! ### Absolute values -/

open Float.Model.UnpackedFloat

/-- Only an exponent of all ones with a mantissa is read as no number. -/
theorem isNaN_unpack (bits : BitVec 64)
    (h : @unpackExponent .binary64 bits = -1#_ → @unpackMantissa .binary64 bits = 0#_) :
    (unpack .binary64 bits).isNaN = false := by
  delta unpack
  dsimp only
  by_cases hones : @unpackExponent .binary64 bits = -1#_
  · rw [if_pos hones, if_pos (h hones)]
    rfl
  · rw [if_neg hones]
    by_cases hzero : @unpackExponent .binary64 bits = 0#_
    · rw [if_pos hzero]
      by_cases hmantissa : @unpackMantissa .binary64 bits = 0#_
      · rw [dif_pos hmantissa]
        rfl
      · rw [dif_neg hmantissa]
        rfl
    · rw [if_neg hzero]
      rfl

/-- Packed, a number stays a number. -/
theorem isNaN_pack (u : UnpackedFloat) : (Float.Model.pack u).isNaN = u.isNaN := by
  have hread (sign : Sign) (e : BitVec 11) (m : BitVec 52) (h : e = -1#_ → m = 0#_) :
      (unpack .binary64 (packComponents .binary64 sign e m)).isNaN = false := by
    refine isNaN_unpack _ ?_
    rw [unpackExponent_packComponents, unpackMantissa_packComponents]
    exact h
  have hunpack : (Float.Model.pack u).isNaN = (unpack .binary64 (pack .binary64 u)).isNaN := rfl
  rw [hunpack]
  fun_cases pack .binary64 u with
  | case1 => rfl
  | case2 | case3 | case4 => exact hread _ _ _ fun _ => rfl
  | case5 sign m e hm bits biased hfits =>
      refine hread _ _ _ fun hones => ?_
      have hvalue : (BitVec.ofNat 11 biased).toNat = 2047 := congrArg BitVec.toNat hones
      have hbound : ¬ 2048 ≤ biased + 1 := hfits
      rw [BitVec.toNat_ofNat] at hvalue
      omega
  | case6 => exact hread _ _ _ nofun

theorem isNaN_abs (x : Float) : x.abs.isNaN = x.isNaN := by
  have hpack : x.abs.isNaN = (Float.Model.pack x.toModel.unpack.abs).isNaN := rfl
  rw [hpack, isNaN_pack, Float.isNaN, Float.Model.isNaN]
  cases x.toModel.unpack <;> rfl

end SiteSafety.Decimal
