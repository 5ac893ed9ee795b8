import SiteSafety.Judge.Cue
import SiteSafety.Proofs.Memory.Learning
import SiteSafety.Proofs.Memory.Record

/-!
# Proofs — Judge — Cues

What the judge that needs no model finds in a message.

* `isSentence_of_classify`: the content of a candidate is a sentence of the message (`IsSentence`).
* `oneLine_of_isSentence`: such a content is on one line as it stands.
* `value_learn_cues`: **the same candidate is learnt whatever is known**, unless its key is known.
-/

namespace SiteSafety.Judge
open Memory

/-! ### Sentences -/

/-- A part of a message without blanks at its ends, and without a mark that ends a sentence or a
line. -/
structure IsSentence (interaction content : String) : Prop where
  part : content.toList <:+: interaction.toList
  trimmed : Text.trimmed content = content
  nonempty : content ≠ ""
  unmarked : ∀ c ∈ content.toList, c ≠ '.' ∧ c ≠ '!' ∧ c ≠ '?' ∧ c ≠ '\n'

theorem endsSentence_eq_false_iff {c : Char} :
    endsSentence c = false ↔ c ≠ '.' ∧ c ≠ '!' ∧ c ≠ '?' ∧ c ≠ '\n' := by
  simp [endsSentence, and_assoc]

theorem isSentence_of_mem_sentences {cs s : List Char} (h : s ∈ sentences cs) :
    IsSentence (String.ofList cs) (String.ofList s) := by
  obtain ⟨hmem, hne⟩ := List.mem_filter.mp h
  obtain ⟨piece, hpiece, rfl⟩ := List.mem_map.mp hmem
  have hinfix : Text.trim piece <:+: cs :=
    (Text.trim_infix piece).trans (Text.infix_of_mem_splitOnP hpiece)
  refine ⟨?_, ?_, ?_, fun c hc => ?_⟩
  · simpa using hinfix
  · simp [Text.trimmed]
  · simpa using hne
  · rw [String.toList_ofList] at hc
    exact endsSentence_eq_false_iff.mp
      (Text.not_mem_of_mem_splitOnP hpiece c (Text.mem_of_mem_trim hc))

theorem content_of_classifySentence {s : List Char} {c : Candidate}
    (h : classifySentence s = some c) : c.content = String.ofList s := by
  unfold classifySentence at h
  dsimp only at h
  split_ifs at h <;> cases h <;> rfl

theorem isSentence_of_classify {interaction : String} {c : Candidate}
    (h : classify interaction = some c) : IsSentence interaction c.content := by
  obtain ⟨s, hs, hsentence⟩ := List.exists_of_findSome?_eq_some h
  have hcontent := isSentence_of_mem_sentences hs
  rwa [content_of_classifySentence hsentence, ← String.ofList_toList (s := interaction)]

/-- A sentence of a part of a message is one of the message. -/
theorem IsSentence.of_part {part interaction content : String} (h : IsSentence part content)
    (hpart : part.toList <:+: interaction.toList) : IsSentence interaction content where
  part := h.part.trans hpart
  trimmed := h.trimmed
  nonempty := h.nonempty
  unmarked := h.unmarked

/-- A sentence is on one line as it stands. -/
theorem oneLine_of_isSentence {interaction content : String} (h : IsSentence interaction content) :
    oneLine content = content := by
  have hlines : Text.lines content.toList = [content.toList] :=
    Text.lines_of_not_mem (by simpa using h.nonempty) fun hmem => (h.unmarked _ hmem).2.2.2 rfl
  have htrim : String.ofList (Text.trim content.toList) = content := h.trimmed
  rw [oneLine, hlines, List.map_singleton, Text.join, htrim]

/-! ### What is learnt -/

/-- The candidate in a message, whatever is known. -/
def learnt (interaction : String) : Option Candidate :=
  if isJudged interaction then
    (classify (Text.trimmed interaction)).bind fun c => (settle c).value
  else none

theorem isSentence_of_learnt {interaction : String} {c : Candidate}
    (h : learnt interaction = some c) : IsSentence interaction c.content := by
  unfold learnt at h
  split at h
  case isFalse => cases h
  case isTrue =>
      obtain ⟨found, hfound, hsettle⟩ := Option.bind_eq_some_iff.mp h
      obtain ⟨-, -, rfl⟩ := value_settle hsettle
      have hsentence := isSentence_of_classify hfound
      dsimp only
      rw [hsentence.trimmed]
      refine hsentence.of_part ?_
      rw [Text.trimmed, String.toList_ofList]
      exact Text.trim_infix _

/-- **What is learnt by cues** is the candidate in the message, unless its key is known. -/
theorem value_learn_cues (interaction : String) (known : List Entry) :
    (learn cues interaction known).value =
      .ok ((learnt interaction).filter fun c => !known.any (·.key == normalizeKey c.content)) := by
  rw [learn_eq, learnt]
  split
  case isFalse => rfl
  case isTrue =>
      unfold cues byCues
      cases classify (Text.trimmed interaction) with
      | none => rfl
      | some found =>
          simp only [Option.bind_some]
          have hheed : (heed (.ok (some found))).value = .ok (settle found).value := rfl
          cases hc : (settle found).value with
          | none =>
              split
              · rfl
              · rw [hheed, hc, Option.filter_none]
          | some c =>
              -- putting a candidate in order does not change its key
              have hkey : normalizeKey c.content = normalizeKey found.content := by
                obtain ⟨-, -, rfl⟩ := value_settle hc
                exact normalizeKey_trimmed _
              rw [Option.filter_some, hkey]
              split
              case isTrue hknown =>
                  rw [hknown]
                  rfl
              case isFalse hknown =>
                  rw [Bool.eq_false_iff.mpr hknown, hheed, hc]
                  rfl

end SiteSafety.Judge
