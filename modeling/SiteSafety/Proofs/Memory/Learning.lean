import SiteSafety.Memory.Learning
import SiteSafety.Proofs.Decimal.Order

/-!
# Proofs — Memory — Learning

What is learnt of a message that is put to a judge.

* `isJudged_eq_false_iff`: which messages are not.
* `clamp_unit`: a finite confidence is moved into the range from 0 to 1.
* `value_settle`: a candidate that was put in order.
-/

namespace SiteSafety.Memory

theorem isJudged_eq_false_iff {interaction : String} : isJudged interaction = false ↔
    Text.trimmed interaction = "" ∨ isSmallTalk (Text.trimmed interaction) = true := by
  rw [isJudged, Bool.not_eq_false']
  refine ⟨.inr, fun h => h.elim (fun hempty => ?_) id⟩
  rw [hempty]
  decide +kernel

/-- A finite number that was moved into the range from 0 to 1 lies in it. -/
theorem clamp_unit {x : Float} (h : Decimal.isFinite x = true) :
    Decimal.isFinite (clamp 0.0 1.0 x) = true ∧ 0.0 ≤ clamp 0.0 1.0 x ∧ clamp 0.0 1.0 x ≤ 1.0 := by
  have hx : x.isNaN = false := Decimal.isNaN_of_isFinite h
  unfold clamp
  split_ifs with hlow hhigh
  · decide
  · decide
  · refine ⟨h, ?_, ?_⟩
    · by_contra hle
      exact hlow ((Decimal.not_le_iff (by decide) hx).mp hle)
    · by_contra hle
      exact hhigh ((Decimal.not_le_iff hx (by decide)).mp hle)

/-- A candidate that was put in order keeps what does not need any. -/
theorem value_settle {c c' : Candidate} (h : (settle c).value = some c') :
    Decimal.isFinite c.confidence = true ∧ Text.trimmed c.content ≠ "" ∧
      c' = { c with
        content := Text.trimmed c.content, confidence := clamp 0.0 1.0 c.confidence } := by
  unfold settle at h
  split at h
  case isTrue => cases h
  case isFalse hfinite =>
      dsimp only at h
      split at h
      case isTrue => cases h
      case isFalse hcontent =>
          simp only [value_pure, Option.some.injEq] at h
          exact ⟨by simpa using hfinite, by simpa using hcontent, h.symm⟩

/-- What is learnt is what the judge says, put in order, unless the message is not judged. -/
theorem learn_eq (judge : Judge) (interaction : String) (existing : List Entry) :
    learn judge interaction existing =
      if isJudged interaction then heed (judge (Text.trimmed interaction) existing)
      else passOver := by
  unfold learn learnFrom
  split <;> rfl

end SiteSafety.Memory
