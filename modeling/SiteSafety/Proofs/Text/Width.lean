import Mathlib.Data.String.Basic
import SiteSafety.Text.Case
import SiteSafety.Text.Words

/-!
# Proofs — Text — Width

Places of a text in bytes.  A part of a text starts where the bytes before it end, so a place that
is the width of some characters at its head is one between characters (`isValid_width`), and what is
cut out of the text there is what stands there (`extract_width`).
-/

namespace SiteSafety.Text

variable {cs ds pre w post : List Char} {source : String}

theorem width_append (cs ds : List Char) : width (cs ++ ds) = width cs + width ds := by
  induction cs with
  | nil => exact (Nat.zero_add _).symm
  | cons c cs ih =>
      show c.utf8Size + width (cs ++ ds) = c.utf8Size + width cs + width ds
      rw [ih, Nat.add_assoc]

theorem utf8Len_eq_width (cs : List Char) : String.utf8Len cs = width cs := by
  induction cs with
  | nil => rfl
  | cons c cs ih =>
      rw [String.utf8Len_cons, ih, Nat.add_comm]
      rfl

theorem utf8ByteSize_eq_width (cs : List Char) :
    (String.ofList cs).utf8ByteSize = width cs := by
  rw [String.utf8ByteSize_ofList, utf8Len_eq_width]

/-- A part of a text ends between characters. -/
theorem isValid_width (h : source.toList = pre ++ post) :
    (⟨width pre⟩ : String.Pos.Raw).IsValid source := by
  refine String.Pos.Raw.isValid_iff_exists_take_toList.mpr ⟨pre.length, ?_⟩
  rw [h, List.take_left, utf8ByteSize_eq_width]

/-- A part of a text is what stands between its places. -/
theorem extract_width (h : source.toList = pre ++ (w ++ post)) :
    String.Pos.Raw.extract source ⟨width pre⟩ ⟨width pre + width w⟩ = String.ofList w := by
  have hslice := String.extract_of_valid pre w post
  rwa [utf8Len_eq_width, utf8Len_eq_width, List.append_assoc, ← h, String.ofList_toList] at hslice

/-- Every character takes a byte at least. -/
theorem length_le_width (cs : List Char) : cs.length ≤ width cs := by
  induction cs with
  | nil => exact Nat.le_refl _
  | cons c cs ih =>
      show cs.length + 1 ≤ c.utf8Size + width cs
      have hpos := c.utf8Size_pos
      omega

/-- ASCII characters take one byte each. -/
theorem width_of_oneByte (h : ∀ c ∈ cs, c.utf8Size = 1) : width cs = cs.length := by
  induction cs with
  | nil => rfl
  | cons c cs ih =>
      have hmore := ih fun d hd => h d (List.mem_cons_of_mem c hd)
      show c.utf8Size + width cs = cs.length + 1
      rw [h c List.mem_cons_self, hmore, Nat.add_comm]

theorem width_spaces (n : Nat) : width (List.replicate n ' ') = n := by
  rw [width_of_oneByte fun c hc => List.eq_of_mem_replicate hc ▸ rfl, List.length_replicate]

/-- A capital of ASCII and its small letter take one byte each. -/
theorem utf8Size_toLower (c : Char) : c.toLower.utf8Size = c.utf8Size := by
  unfold Char.toLower
  split
  case isFalse => rfl
  case isTrue h =>
    have hcapital : c.val ≤ 127 := UInt32.le_trans h.2 (by decide)
    have hsmall : c.val + ('a'.val - 'A'.val) ≤ 127 := by
      have hlast : c.val.toNat ≤ 90 := h.2
      rw [UInt32.le_iff_toNat_le, UInt32.toNat_add]
      show (c.val.toNat + 32) % 2 ^ 32 ≤ 127
      omega
    rw [Char.utf8Size_eq_one_iff.mpr hcapital]
    exact Char.utf8Size_eq_one_iff.mpr hsmall

/-- A text takes as many bytes in lower case, where only ASCII letters change. -/
theorem width_asciiLower (cs : List Char) : width (asciiLower cs) = width cs := by
  induction cs with
  | nil => rfl
  | cons c cs ih =>
      show c.toLower.utf8Size + width (asciiLower cs) = c.utf8Size + width cs
      rw [utf8Size_toLower, ih]

end SiteSafety.Text
