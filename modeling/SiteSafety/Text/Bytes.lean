/-!
# Text — Bytes

Text from bytes of UTF-8 that may be damaged.  **Whole characters are kept**; of each other run,
the longest part that could have become a character is replaced by one mark.
-/

namespace SiteSafety.Text

/-- How many bytes follow the first byte of a character, and the range of the next one. -/
def following? (first : Nat) : Option (Nat × Nat × Nat) :=
  if first < 0x80 then some (0, 0, 0)
  else if first < 0xc2 ∨ 0xf4 < first then none
  else if first < 0xe0 then some (1, 0x80, 0xbf)
  else if first < 0xf0 then
    some (2, if first = 0xe0 then 0xa0 else 0x80, if first = 0xed then 0x9f else 0xbf)
  else some (3, if first = 0xf0 then 0x90 else 0x80, if first = 0xf4 then 0x8f else 0xbf)

/-- How many of the bytes that should follow are there. -/
def fitting (low high : Nat) : List UInt8 → Nat
  | [] => 0
  | b :: rest =>
    if low ≤ b.toNat ∧ b.toNat ≤ high then 1 + fitting 0x80 0xbf rest else 0

/-- The text of bytes. -/
def ofBytes : List UInt8 → String
  | [] => ""
  | b :: rest =>
    match following? b.toNat with
    | none => "\ufffd" ++ ofBytes rest
    | some (n, low, high) =>
      let k := fitting low high (rest.take n)
      let head :=
        if k = n then (String.fromUTF8? ⟨(b :: rest.take n).toArray⟩).getD "\ufffd" else "\ufffd"
      head ++ ofBytes (rest.drop k)
termination_by bs => bs.length
decreasing_by all_goals simp only [List.length_drop, List.length_cons]; omega

end SiteSafety.Text
