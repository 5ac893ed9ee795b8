import SiteSafety.Memory.Logbook
import SiteSafety.Proofs.Text.Phrases

/-!
# Proofs — Memory — Screening

Whether a content looks sensitive, before and after a store has rewritten it.  Trimming makes no
difference (`looksSensitive_trimmed`).  Putting the content on one line makes one: a phrase of two
words that a line break parts is whole again on one line, and nothing else is new there
(`looksSensitive_oneLine_iff`).
-/

namespace SiteSafety.Memory

/-- A phrase of two words stands in a content with a line break between them, and nothing else but
blanks. -/
def BreaksPhrase (content : String) : Prop :=
  ∃ phrase ∈ sensitivePhrases, ∃ u v, Text.cut? [' '] phrase.toList = some (u, v) ∧
    ∃ gap, Text.IsLineGap gap ∧ u ++ gap ++ v <:+: Text.lower content.toList

/-- What passes a screening. -/
theorem screen_eq_none_iff {policy : Policy} {c : Candidate} : policy.screen c = none ↔
    normalizeKey c.content ≠ "" ∧ Decimal.isFinite c.confidence = true ∧
      ¬ c.confidence < policy.minConfidence ∧ looksSensitive c.content = false := by
  unfold Policy.screen
  split_ifs <;> simp_all

theorem looksSensitive_iff {content : String} : looksSensitive content = true ↔
    (∃ phrase ∈ sensitivePhrases, phrase.toList <:+: Text.lower content.toList) ∨
      ∃ w ∈ Text.words (Text.lower content.toList), isSecretWord (bareWord w) = true := by
  simp only [looksSensitive, Bool.or_eq_true, List.any_eq_true, Text.contains_iff]

/-! ### Phrases -/

/-- A phrase is a word, or two words with a space between them. -/
theorem phrase_cases {phrase : String} (h : phrase ∈ sensitivePhrases) :
    ((∀ c ∈ phrase.toList, Text.isBlank c = false) ∧ Text.cut? [' '] phrase.toList = none) ∨
      ∃ u v, Text.cut? [' '] phrase.toList = some (u, v) ∧ u ≠ [] ∧ v ≠ [] ∧
        (∀ c ∈ u, Text.isBlank c = false) ∧ ∀ c ∈ v, Text.isBlank c = false := by
  have hall : ∀ phrase ∈ sensitivePhrases,
      (phrase.toList.any Text.isBlank = false ∧ Text.cut? [' '] phrase.toList = none) ∨
        ∃ cut ∈ Text.cut? [' '] phrase.toList, cut.1 ≠ [] ∧ cut.2 ≠ [] ∧
          cut.1.any Text.isBlank = false ∧ cut.2.any Text.isBlank = false := by
    decide
  simp only [List.any_eq_false, Bool.not_eq_true] at hall
  exact (hall phrase h).imp id fun ⟨⟨u, v⟩, hcut, hwords⟩ => ⟨u, v, hcut, hwords⟩

theorem isTight_phrase {phrase : String} (h : phrase ∈ sensitivePhrases) :
    Text.IsTight phrase.toList := by
  have hall : ∀ phrase ∈ sensitivePhrases, Text.IsTight phrase.toList := by decide
  exact hall phrase h

/-- On one line, a phrase occurs where it did before or where a line break parted its words. -/
theorem phrase_joinLines_iff {phrase : String} (h : phrase ∈ sensitivePhrases) (cs : List Char) :
    phrase.toList <:+: Text.joinLines cs ↔ phrase.toList <:+: cs ∨
      ∃ u v, Text.cut? [' '] phrase.toList = some (u, v) ∧
        ∃ gap, Text.IsLineGap gap ∧ u ++ gap ++ v <:+: cs := by
  rcases phrase_cases h with ⟨hword, hnone⟩ | ⟨u, v, hcut, hu, hv, hublank, hvblank⟩
  · rw [Text.infix_joinLines_iff hword]
    simp [hnone]
  · obtain ⟨hphrase, -⟩ := Text.cut?_singleton_eq_some.mp hcut
    rw [hphrase, Text.phrase_joinLines_iff hu hublank hv hvblank, ← hphrase]
    simp [hcut]

/-! ### Contents -/

theorem looksSensitive_trimmed (content : String) :
    looksSensitive (Text.trimmed content) = looksSensitive content := by
  rw [Bool.eq_iff_iff, looksSensitive_iff, looksSensitive_iff, Text.trimmed, String.toList_ofList,
    Text.lower_trim, Text.words, Text.words, Text.fields_trim fun _ h => h]
  refine or_congr_left (exists_congr fun phrase => and_congr_right fun h => ?_)
  exact Text.infix_trim_iff (isTight_phrase h) _

/-- The content on one line. -/
theorem lower_oneLine_trimmed (content : String) :
    Text.lower (oneLine (Text.trimmed content)).toList =
      Text.joinLines (Text.trim (Text.lower content.toList)) := by
  rw [oneLine, Text.trimmed, String.toList_ofList, String.toList_ofList, Text.join_lines_trim,
    Text.lower_joinLines, Text.lower_trim]

/-- A content that looks sensitive on one line did so before, or broke a phrase over two lines. -/
theorem looksSensitive_oneLine_iff (content : String) :
    looksSensitive (oneLine (Text.trimmed content)) = true ↔
      looksSensitive content = true ∨ BreaksPhrase content := by
  have hphrase : ∀ phrase ∈ sensitivePhrases,
      (phrase.toList <:+: Text.joinLines (Text.trim (Text.lower content.toList)) ↔
        phrase.toList <:+: Text.lower content.toList ∨
          ∃ u v, Text.cut? [' '] phrase.toList = some (u, v) ∧
            ∃ gap, Text.IsLineGap gap ∧ u ++ gap ++ v <:+: Text.lower content.toList) := by
    intro phrase h
    rw [phrase_joinLines_iff h, Text.infix_trim_iff (isTight_phrase h)]
    refine or_congr_right (exists_congr fun u => exists_congr fun v => and_congr_right fun hcut =>
      exists_congr fun gap => and_congr_right fun _ => ?_)
    rcases phrase_cases h with ⟨-, hnone⟩ | ⟨u', v', hcut', hu, hv, hublank, hvblank⟩
    · rw [hcut] at hnone
      cases hnone
    · rw [hcut] at hcut'
      cases hcut'
      exact Text.infix_trim_iff (Text.isTight_phrase hu hublank hv hvblank) _
  rw [looksSensitive_iff, looksSensitive_iff, lower_oneLine_trimmed, Text.words_joinLines,
    Text.words, Text.words, Text.fields_trim fun _ h => h]
  constructor
  · rintro (⟨phrase, h, hoccurs⟩ | hword)
    · rcases (hphrase phrase h).mp hoccurs with hwhole | hbroken
      · exact .inl (.inl ⟨phrase, h, hwhole⟩)
      · exact .inr ⟨phrase, h, hbroken⟩
    · exact .inl (.inr hword)
  · rintro ((⟨phrase, h, hwhole⟩ | hword) | ⟨phrase, h, hbroken⟩)
    · exact .inl ⟨phrase, h, (hphrase phrase h).mpr (.inl hwhole)⟩
    · exact .inr hword
    · exact .inl ⟨phrase, h, (hphrase phrase h).mpr (.inr hbroken)⟩

end SiteSafety.Memory
