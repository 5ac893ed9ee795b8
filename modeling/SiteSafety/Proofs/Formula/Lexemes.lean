import Mathlib.Data.List.TakeWhile
import SiteSafety.Proofs.Formula.Scanning

/-!
# Proofs — Formula — Lexemes

What the scan of a text gives, said without the scan.  A scanned text is its lexemes in order with
ASCII blanks between them, each at its byte offset; where the scan stops, it stops at a character
of the text, behind a part that is laid out in lexemes.

* `spells_of_first`, `readsAs_of_spells`: the words that are read as one token, by their spelling.
* `laid_of_scanFrom`, `scansAs_of_laid`: the scan gives the lexemes that are laid out in the text.
* `stop_of_scanFrom`: where it stops, what stands there, and what was read before.
* `scan_faithful`: **no character is lost, read twice or cut**, for every text.
-/

namespace SiteSafety.Formula

variable {pre cs ds w post rest : List Char} {t : Token} {ts : List Lexeme} {o n : Nat} {x : Float}

/-! ### Numerals by their spelling -/

def AreDigits (cs : List Char) : Prop := ∀ c ∈ cs, c.isDigit = true

/-- A point with digits behind it, or nothing at all. -/
inductive IsFraction : List Char → Prop
  | none : IsFraction []
  | point {ds : List Char} (hds : AreDigits ds) : IsFraction ('.' :: ds)

/-- A mark, perhaps a sign, and at least one digit, or nothing at all. -/
inductive IsExponent : List Char → Prop
  | none : IsExponent []
  | mark {c : Char} {sign ds : List Char} (hc : c = 'e' ∨ c = 'E')
      (hsign : sign = [] ∨ sign = ['+'] ∨ sign = ['-']) (hds : AreDigits ds) (hsome : ds ≠ []) :
      IsExponent (c :: (sign ++ ds))

/-- Digits, a point with digits, an exponent, with a digit on one side of the point at least. -/
def IsNumeral (cs : List Char) : Prop :=
  ∃ whole part exponent, cs = whole ++ (part ++ exponent) ∧ AreDigits whole ∧ IsFraction part ∧
    IsExponent exponent ∧ (whole ≠ [] ∨ 1 < part.length)

/-- Whether a text starts like a numeral: with a digit, or with a point and a digit. -/
def StartsNumeral : List Char → Prop
  | c :: cs => c.isDigit = true ∨ c = '.' ∧ cs.head?.any Char.isDigit = true
  | [] => False

theorem forall_mem_takeWhile {p : Char → Bool} (cs : List Char) :
    ∀ c ∈ cs.takeWhile p, p c = true :=
  fun _ hc => List.all_eq_true.mp List.all_takeWhile _ hc

theorem areDigits_takeWhile (cs : List Char) : AreDigits (cs.takeWhile Char.isDigit) :=
  forall_mem_takeWhile cs

theorem take_length_takeWhile (p : Char → Bool) (cs : List Char) :
    cs.take (cs.takeWhile p).length = cs.takeWhile p :=
  (List.prefix_iff_eq_take.mp (List.takeWhile_prefix p)).symm

theorem head?_drop_takeWhile (p : Char → Bool) (cs : List Char) :
    ∀ c ∈ (cs.drop (cs.takeWhile p).length).head?, p c = false := by
  have hdrop : cs.drop (cs.takeWhile p).length = cs.dropWhile p :=
    calc cs.drop (cs.takeWhile p).length
      _ = (cs.takeWhile p ++ cs.dropWhile p).drop (cs.takeWhile p).length := by
          rw [List.takeWhile_append_dropWhile]
      _ = cs.dropWhile p := List.drop_left
  intro c hc
  have hhead := List.head?_dropWhile_not p cs
  rw [← hdrop, hc] at hhead
  exact hhead

theorem isFraction_take (cs : List Char) : IsFraction (cs.take (pointLength cs)) := by
  unfold pointLength
  split
  · rw [Nat.add_comm, List.take_succ_cons, take_length_takeWhile]
    exact .point (areDigits_takeWhile _)
  · rw [List.take_zero]
    exact .none

theorem isExponent_take (h : exponentLength? cs = some n) : IsExponent (cs.take n) := by
  cases cs with
  | nil =>
      rw [List.take_nil]
      exact .none
  | cons c rest =>
      simp only [exponentLength?] at h
      split at h
      next hmark =>
        split at h
        · cases h
        next hsome =>
          obtain rfl := Option.some.inj h
          rw [Nat.add_assoc, Nat.add_comm 1, List.take_succ_cons, List.take_add,
            take_length_takeWhile]
          refine .mark hmark ?_ (areDigits_takeWhile _) (by simpa using hsome)
          unfold signLength
          split <;> simp
      · obtain rfl := Option.some.inj h
        exact List.take_zero ▸ .none

/-- A text that starts like a numeral has a digit on one side of its point. -/
theorem digit_of_startsNumeral (h : StartsNumeral cs) : cs.takeWhile Char.isDigit ≠ [] ∨
    1 < pointLength (cs.drop (cs.takeWhile Char.isDigit).length) := by
  match cs, h with
  | c :: cs, .inl hdigit =>
      rw [List.takeWhile_cons_of_pos hdigit]
      exact .inl (List.cons_ne_nil _ _)
  | '.' :: d :: cs, .inr ⟨rfl, hdigit⟩ =>
      refine .inr ?_
      have hd : d.isDigit = true := hdigit
      rw [List.takeWhile_cons_of_neg (by decide)]
      simp [pointLength, hd]

/-- Digits with their point are a numeral, with an exponent or without. -/
theorem isNumeral_mantissa (hstarts : StartsNumeral cs) {k : Nat}
    (hk : IsExponent ((cs.drop (mantissaLength cs)).take k)) :
    IsNumeral (cs.take (mantissaLength cs + k)) := by
  refine ⟨cs.takeWhile Char.isDigit, _, _, ?_, areDigits_takeWhile cs,
    isFraction_take (cs.drop (cs.takeWhile Char.isDigit).length), hk, ?_⟩
  · rw [List.take_add, mantissaLength, List.take_add, take_length_takeWhile, List.append_assoc]
  · rw [List.length_take_of_le (pointLength_le _)]
    exact digit_of_startsNumeral hstarts

/-- What is taken for a numeral is spelled like one. -/
theorem isNumeral_take (hstarts : StartsNumeral cs) (h : numeralLength? cs = some n) :
    IsNumeral (cs.take n) := by
  rw [numeralLength?_eq, Option.map_eq_some_iff] at h
  obtain ⟨k, hk, rfl⟩ := h
  exact isNumeral_mantissa hstarts (isExponent_take hk)

/-- Where nothing is taken for a numeral, an exponent mark stands behind one. -/
theorem of_numeralLength?_eq_none (hstarts : StartsNumeral cs) (h : numeralLength? cs = none) :
    ∃ text rest, cs = text ++ rest ∧ IsNumeral text ∧ ¬EndsOperand rest := by
  rw [numeralLength?_eq, Option.map_eq_none_iff] at h
  refine ⟨_, _, (List.take_append_drop (mantissaLength cs) cs).symm,
    isNumeral_mantissa hstarts (k := 0) .none, fun hends => ?_⟩
  cases hrest : cs.drop (mantissaLength cs) with
  | nil =>
      rw [hrest] at h
      cases h
  | cons c rest =>
      rw [hrest] at h hends
      have hname := (hends c rfl).1
      have hmark : c = 'e' ∨ c = 'E' := by
        by_contra hmark
        simp [exponentLength?, hmark] at h
      rcases hmark with rfl | rfl <;> cases hname

theorem startsNumeral_of_isNumeral (h : IsNumeral cs) : StartsNumeral (cs ++ rest) := by
  obtain ⟨whole, part, exponent, rfl, hwhole, hpart, -, hdigit⟩ := h
  cases whole with
  | cons c whole => exact .inl (hwhole c List.mem_cons_self)
  | nil =>
      cases hpart with
      | none => simp at hdigit
      | point hds =>
          rename_i ds
          cases ds with
          | nil => simp at hdigit
          | cons d ds => exact .inr ⟨rfl, hds d List.mem_cons_self⟩

theorem ne_nil_of_isNumeral (h : IsNumeral cs) : cs ≠ [] := by
  rintro rfl
  exact (startsNumeral_of_isNumeral h : StartsNumeral ([] ++ []))

theorem exponentLength?_of_isExponent (h : IsExponent cs) :
    exponentLength? cs = some cs.length := by
  cases h with
  | none => rfl
  | mark hc hsign hds hsome =>
      rename_i c sign ds
      have hsignLength : signLength (sign ++ ds) = sign.length := by
        rcases hsign with rfl | rfl | rfl
        · obtain ⟨d, more, rfl⟩ := List.exists_cons_of_ne_nil hsome
          have hd := hds d List.mem_cons_self
          unfold signLength
          split <;> simp_all
        · rfl
        · rfl
      have hrun : ds.takeWhile Char.isDigit = ds :=
        List.takeWhile_eq_self_iff.mpr hds
      simp only [exponentLength?, if_pos hc, hsignLength, List.drop_left, hrun,
        List.isEmpty_iff, if_neg hsome, List.length_cons, List.length_append, Option.some.injEq]
      omega

/-- An exponent starts with its mark. -/
theorem head_of_isExponent (h : IsExponent cs) : ∀ c ∈ cs.head?, c = 'e' ∨ c = 'E' := by
  cases h with
  | none => exact nofun
  | mark hc =>
      rintro d ⟨⟩
      exact hc

/-- What is spelled like a numeral is taken for one, all of it. -/
theorem numeralLength?_of_isNumeral (h : IsNumeral cs) : numeralLength? cs = some cs.length := by
  obtain ⟨whole, part, exponent, rfl, hwhole, hpart, hexponent, -⟩ := h
  have hmark : ∀ c ∈ exponent.head?, c.isDigit = false := fun c hc => by
    rcases head_of_isExponent hexponent c hc with rfl | rfl <;> rfl
  have hrun : (whole ++ (part ++ exponent)).takeWhile Char.isDigit = whole := by
    refine takeWhile_run hwhole ?_
    cases hpart with
    | none => exact hmark
    | point =>
        rintro d ⟨⟩
        rfl
  have hpoint : pointLength (part ++ exponent) = part.length := by
    cases hpart with
    | none =>
        cases hexponent with
        | none => rfl
        | mark hc => rcases hc with rfl | rfl <;> rfl
    | point hds =>
        rw [List.cons_append, pointLength, takeWhile_run hds hmark, List.length_cons, Nat.add_comm]
  have hmantissa : mantissaLength (whole ++ (part ++ exponent)) = (whole ++ part).length := by
    simp only [mantissaLength, hrun, List.drop_left, hpoint, List.length_append]
  rw [numeralLength?_eq, hmantissa, ← List.append_assoc, List.drop_left,
    exponentLength?_of_isExponent hexponent]
  exact congrArg some List.length_append.symm

/-! ### Lexemes by their spelling -/

/-- The token is neither a number nor a name. -/
def Token.IsSign : Token → Prop
  | .number _ | .ident _ => False
  | _ => True

/-- In front of `rest`, the text is one lexeme.  A name is a maximal run of letters, digits and
underscores; behind a number none of these stands and no point. -/
inductive Spells : List Char → Token → List Char → Prop
  | number {text rest : List Char} {x : Float} (hspelled : IsNumeral text)
      (hvalue : Decimal.read? text = some x) (hfinite : Decimal.isFinite x = true)
      (hrest : EndsOperand rest) : Spells text (.number x) rest
  | ident {name rest : List Char} (hname : IsName name)
      (hrest : ∀ c ∈ rest.head?, isNameChar c = false) :
      Spells name (.ident (String.ofList name)) rest
  | sign {t : Token} {rest : List Char} (hsign : t.IsSign)
      (hrest : t = .lt ∨ t = .gt → rest.head? ≠ some '=') : Spells t.describe.toList t rest

/-- The three ways a token begins. -/
theorem first_of_startsNumeral {c : Char} (h : StartsNumeral (c :: cs)) : Token.first c cs =
    (numeral (c :: cs)).map fun (value, n) => (.number value, n - 1) := by
  have hstart : (c.isDigit || (c == '.' && cs.head?.any Char.isDigit)) = true := by
    simpa [StartsNumeral] using h
  rw [Token.first, if_pos hstart]

theorem first_of_isNameStart {c : Char} (h : isNameStart c = true) : Token.first c cs =
    if isForbidden (c :: cs.takeWhile isNameChar) then
      .error (.keyword (String.ofList (c :: cs.takeWhile isNameChar)), 0)
    else .ok (.ident (String.ofList (c :: cs.takeWhile isNameChar)),
      (cs.takeWhile isNameChar).length) := by
  have hpoint : (c == '.') = false := by
    rw [beq_eq_false_iff_ne]
    rintro rfl
    cases h
  simp only [Token.first, isDigit_of_isNameStart h, hpoint, Bool.false_and, Bool.or_false,
    Bool.false_eq_true, if_false, h, if_true]

theorem first_of_other {c : Char} (hnumeral : ¬StartsNumeral (c :: cs))
    (hname : isNameStart c = false) : Token.first c cs =
    match symbol? c cs with
    | some found => .ok found
    | none => .error (foreign c, 0) := by
  have hstart : (c.isDigit || (c == '.' && cs.head?.any Char.isDigit)) = false := by
    rw [← Bool.not_eq_true]
    simpa [StartsNumeral] using hnumeral
  exact (if_neg (Bool.eq_false_iff.mp hstart)).trans (if_neg (Bool.eq_false_iff.mp hname))

/-- A symbol is a sign with all that belongs to it. -/
theorem of_symbol?_eq_some {c : Char} {k : Nat} (h : symbol? c cs = some (t, k)) :
    t.IsSign ∧ t.describe.toList = c :: cs.take k ∧
      (t = .lt ∨ t = .gt → (cs.drop k).head? ≠ some '=') := by
  -- all that matters of the text behind `c` is whether it starts with an equals sign
  have hequals : (cs.head? == some '=') = true → ∃ more, cs = '=' :: more := fun h =>
    List.head?_eq_some_iff.mp (beq_iff_eq.mp h)
  unfold symbol? at h
  dsimp only at h
  cases hhead : (cs.head? == some '=') with
  | true =>
      obtain ⟨more, rfl⟩ := hequals hhead
      rw [hhead] at h
      split at h <;> cases h <;> exact ⟨trivial, rfl, by simp⟩
  | false =>
      have hne : cs.head? ≠ some '=' := ne_of_beq_false hhead
      rw [hhead] at h
      split at h <;> cases h <;> exact ⟨trivial, rfl, fun _ => hne⟩

theorem not_startsNumeral {c : Char} (hdigit : c.isDigit = false) (hpoint : (c == '.') = false) :
    ¬StartsNumeral (c :: cs) := by
  rintro (h | ⟨rfl, -⟩)
  · exact Bool.false_ne_true (hdigit.symm.trans h)
  · cases hpoint

/-- A sign is the symbol its spelling starts with. -/
theorem symbol?_of_isSign (hsign : t.IsSign) (hrest : t = .lt ∨ t = .gt → rest.head? ≠ some '=') :
    ∃ c cs, t.describe.toList = c :: cs ∧ isNameStart c = false ∧ Text.isAsciiBlank c = false ∧
      ¬StartsNumeral (c :: (cs ++ rest)) ∧ symbol? c (cs ++ rest) = some (t, cs.length) := by
  cases t with
  | number x | ident x => cases hsign
  | lt =>
      have hne : (rest.head? == some '=') = false := beq_eq_false_iff_ne.mpr (hrest (.inl rfl))
      exact ⟨'<', [], rfl, rfl, rfl, not_startsNumeral rfl rfl, by simp [symbol?, hne]⟩
  | gt =>
      have hne : (rest.head? == some '=') = false := beq_eq_false_iff_ne.mpr (hrest (.inr rfl))
      exact ⟨'>', [], rfl, rfl, rfl, not_startsNumeral rfl rfl, by simp [symbol?, hne]⟩
  | _ => exact ⟨_, _, rfl, rfl, rfl, not_startsNumeral rfl rfl, rfl⟩

theorem isNameChar_of_isDigit {c : Char} (h : c.isDigit = true) : isNameChar c = true := by
  simp [isNameChar, Char.isAlphanum, h]

theorem isAsciiBlank_of_startsNumeral {c : Char} (h : StartsNumeral (c :: cs)) :
    Text.isAsciiBlank c = false := by
  rcases h with hdigit | ⟨rfl, -⟩
  · exact isAsciiBlank_of_isNameChar (isNameChar_of_isDigit hdigit)
  · rfl

/-- A numeral in front of what ends it, with a finite value, is read. -/
theorem readsAs_number (hspelled : IsNumeral w) (hvalue : Decimal.read? w = some x)
    (hfinite : Decimal.isFinite x = true) (hrest : EndsOperand rest) :
    ReadsAs w (.number x) rest := by
  have hlength := numeralLength?_append hrest (numeralLength?_of_isNumeral hspelled)
  cases w with
  | nil => exact absurd rfl (ne_nil_of_isNumeral hspelled)
  | cons c cs =>
      have hnumeral : numeral (c :: (cs ++ rest)) = .ok (x, (c :: cs).length) := by
        refine numeral_eq_ok_iff.mpr ⟨hlength, ?_, ?_, hfinite⟩
        · rwa [← List.cons_append, List.drop_left]
        · rwa [← List.cons_append, List.take_left]
      have hstarts : StartsNumeral (c :: (cs ++ rest)) := startsNumeral_of_isNumeral hspelled
      refine ⟨c, cs, rfl, isAsciiBlank_of_startsNumeral hstarts, ?_⟩
      rw [first_of_startsNumeral hstarts, hnumeral]
      rfl

/-- **What the scan takes for a token is spelled like it**, and reaches as far as it can. -/
theorem spells_of_first {c : Char} (h : Token.first c cs = .ok (t, n)) :
    Spells (c :: cs.take n) t (cs.drop n) := by
  by_cases hstart : StartsNumeral (c :: cs)
  · rw [first_of_startsNumeral hstart, map_eq_ok_iff] at h
    obtain ⟨⟨x, m⟩, hnumeral, heq⟩ := h
    cases heq
    obtain ⟨hlength, hrest, hvalue, hfinite⟩ := numeral_eq_ok_iff.mp hnumeral
    have htake := isNumeral_take hstart hlength
    obtain ⟨k, rfl⟩ := Nat.exists_eq_add_one.mpr (pos_of_numeral hnumeral)
    exact .number htake hvalue hfinite hrest
  · cases hname : isNameStart c with
    | true =>
        rw [first_of_isNameStart hname] at h
        split at h
        · cases h
        next hallowed =>
          cases h
          rw [take_length_takeWhile]
          exact .ident ⟨⟨c, _, rfl, hname, forall_mem_takeWhile cs⟩, by simpa using hallowed⟩
            (head?_drop_takeWhile isNameChar cs)
    | false =>
        rw [first_of_other hstart hname] at h
        cases hsymbol : symbol? c cs with
        | none =>
            rw [hsymbol] at h
            cases h
        | some found =>
            rw [hsymbol] at h
            cases h
            obtain ⟨hsign, hdescribe, hrest⟩ := of_symbol?_eq_some hsymbol
            exact hdescribe ▸ .sign hsign hrest

/-- **What is spelled like a token is read as it.** -/
theorem readsAs_of_spells (h : Spells w t rest) : ReadsAs w t rest := by
  cases h with
  | number hspelled hvalue hfinite hrest => exact readsAs_number hspelled hvalue hfinite hrest
  | ident hname hrest => exact readsAs_name hname hrest
  | sign hsign hrest =>
      obtain ⟨c, cs, hcs, hname, hblank, hstart, hsymbol⟩ := symbol?_of_isSign hsign hrest
      refine ⟨c, cs, hcs, hblank, ?_⟩
      rw [first_of_other hstart hname, hsymbol]

/-! ### Where no lexeme can be read -/

/-- What stands at the head of a text that starts with no lexeme, and how many bytes behind the
head the refusal points. -/
inductive Refused : List Char → Violation → Nat → Prop
  | keyword {c : Char} {cs rest : List Char} (hstart : isNameStart c = true)
      (hrun : ∀ d ∈ cs, isNameChar d = true) (hrest : ∀ d ∈ rest.head?, isNameChar d = false)
      (hforbidden : isForbidden (c :: cs) = true) :
      Refused (c :: cs ++ rest) (.keyword (String.ofList (c :: cs))) 0
  | point {text rest : List Char} (hspelled : IsNumeral text) :
      Refused (text ++ '.' :: rest) .attributeAccess (Text.width text)
  | numeral {text rest : List Char} (hspelled : IsNumeral text) (hbad : EndsOperand rest →
      ∀ x, Decimal.read? text = some x → Decimal.isFinite x = false) :
      Refused (text ++ rest) .invalidNumber 0
  | foreign {c : Char} {rest : List Char} (hblank : Text.isAsciiBlank c = false)
      (hnumeral : ¬StartsNumeral (c :: rest)) (hname : isNameStart c = false)
      (hsymbol : symbol? c rest = none) : Refused (c :: rest) (foreign c) 0

/-- A refusal points at a character of the text. -/
theorem Refused.points {kind : Violation} (h : Refused cs kind n) :
    ∃ seen c rest, cs = seen ++ c :: rest ∧ n = Text.width seen := by
  cases h with
  | keyword => exact ⟨[], _, _, rfl, rfl⟩
  | point => exact ⟨_, _, _, rfl, rfl⟩
  | numeral hspelled =>
      rename_i text rest _
      cases text with
      | nil => exact absurd rfl (ne_nil_of_isNumeral hspelled)
      | cons c text => exact ⟨[], c, text ++ rest, rfl, rfl⟩
  | foreign => exact ⟨[], _, _, rfl, rfl⟩

theorem oneByte_of_isDigit {c : Char} (h : c.isDigit = true) : c.utf8Size = 1 := by
  have hlast : c.toNat ≤ '9'.toNat := (Char.isDigit_iff_toNat.mp h).2
  exact Char.utf8Size_eq_one_iff.mpr (Nat.le_trans hlast (by decide))

/-- A numeral has as many bytes as characters. -/
theorem IsNumeral.width_eq (h : IsNumeral cs) : Text.width cs = cs.length := by
  obtain ⟨whole, part, exponent, rfl, hwhole, hpart, hexponent, -⟩ := h
  have hdigits : ∀ {ds : List Char}, AreDigits ds → ∀ c ∈ ds, c.utf8Size = 1 :=
    fun hds c hc => oneByte_of_isDigit (hds c hc)
  refine Text.width_of_oneByte fun c hc => ?_
  simp only [List.mem_append] at hc
  rcases hc with hc | hc | hc
  · exact hdigits hwhole c hc
  · cases hpart with
    | none => cases hc
    | point hds =>
        rcases List.mem_cons.mp hc with rfl | hc
        · rfl
        · exact hdigits hds c hc
  · cases hexponent with
    | none => cases hc
    | mark hmark hsign hds =>
        rcases List.mem_cons.mp hc with rfl | hc
        · rcases hmark with rfl | rfl <;> rfl
        · rcases List.mem_append.mp hc with hc | hc
          · rcases hsign with rfl | rfl | rfl
            · cases hc
            · rw [List.mem_singleton.mp hc]
              rfl
            · rw [List.mem_singleton.mp hc]
              rfl
          · exact hdigits hds c hc

/-- A numeral is refused at a further point, or at its start. -/
theorem refused_of_numeral {kind : Violation} (hstart : StartsNumeral cs)
    (h : numeral cs = .error (kind, n)) : Refused cs kind n := by
  cases hlength : numeralLength? cs with
  | none =>
      rw [numeral, hlength] at h
      cases h
      obtain ⟨text, rest, rfl, hspelled, hends⟩ := of_numeralLength?_eq_none hstart hlength
      exact .numeral hspelled fun hends' => absurd hends' hends
  | some m =>
      have hspelled := isNumeral_take hstart hlength
      have hcut := List.take_append_drop m cs
      have hbad : EndsOperand (cs.drop m) →
          ∀ x, Decimal.read? (cs.take m) = some x → Decimal.isFinite x = false := by
        intro hends x hvalue
        rw [← Bool.not_eq_true]
        intro hfinite
        rw [numeral_eq_ok_iff.mpr ⟨hlength, hends, hvalue, hfinite⟩] at h
        cases h
      simp only [numeral, hlength] at h
      split at h
      next tail htail =>
        cases h
        -- the refusal counts characters, and the point is that many bytes behind the start
        have hwidth := hspelled.width_eq
        rw [List.length_take_of_le (numeralLength?_le hlength)] at hwidth
        have hpoint : Refused (cs.take n ++ '.' :: tail) .attributeAccess _ := .point hspelled
        rwa [← htail, hcut, hwidth] at hpoint
      next =>
        have hrefused := hcut ▸ Refused.numeral hspelled hbad
        split at h
        · cases h
          exact hrefused
        · split at h
          · split at h
            · cases h
            · cases h
              exact hrefused
          · cases h
            exact hrefused

/-- **Where no token is read, the refusal says what stands there.** -/
theorem refused_of_first {c : Char} {kind : Violation} (hblank : Text.isAsciiBlank c = false)
    (h : Token.first c cs = .error (kind, n)) : Refused (c :: cs) kind n := by
  by_cases hstart : StartsNumeral (c :: cs)
  · rw [first_of_startsNumeral hstart, map_eq_error_iff] at h
    exact refused_of_numeral hstart h
  · cases hname : isNameStart c with
    | true =>
        rw [first_of_isNameStart hname] at h
        split at h
        next hforbidden =>
          cases h
          have hkeyword := Refused.keyword hname (forall_mem_takeWhile cs)
            (head?_drop_takeWhile isNameChar cs) hforbidden
          have hcut := List.take_append_drop (cs.takeWhile isNameChar).length cs
          rw [take_length_takeWhile] at hcut
          rwa [List.cons_append, hcut] at hkeyword
        next => cases h
    | false =>
        rw [first_of_other hstart hname] at h
        cases hsymbol : symbol? c cs with
        | none =>
            rw [hsymbol] at h
            cases h
            exact .foreign hblank hstart hname hsymbol
        | some found =>
            rw [hsymbol] at h
            cases h

/-! ### Texts laid out in lexemes -/

/-- Behind `pre` and in front of `post`, the text is the lexemes in order, each at its byte offset,
with ASCII blanks between them.  No name stands behind a letter, digit or underscore. -/
inductive Laid : List Char → List Lexeme → List Char → List Char → Prop
  | nil {pre post : List Char} : Laid pre [] [] post
  | blank {pre cs post : List Char} {c : Char} {ts : List Lexeme}
      (hblank : Text.isAsciiBlank c = true) (hmore : Laid (pre ++ [c]) ts cs post) :
      Laid pre ts (c :: cs) post
  | lexeme {pre w cs post : List Char} {t : Token} {ts : List Lexeme}
      (hspells : Spells w t (cs ++ post))
      (hpre : ∀ name, t = .ident name → ∀ d ∈ pre.getLast?, isNameChar d = false)
      (hmore : Laid (pre ++ w) ts cs post) :
      Laid pre (⟨t, w, Text.width pre⟩ :: ts) (w ++ cs) post

/-- No run of letters, digits and underscores goes on from one text into another. -/
def Apart (pre cs : List Char) : Prop :=
  ∀ d ∈ pre.getLast?, ∀ c ∈ cs.head?, isNameChar c = true → isNameChar d = false

theorem width_snoc (pre : List Char) (c : Char) :
    Text.width (pre ++ [c]) = Text.width pre + c.utf8Size := Text.width_append pre [c]

theorem apart_blank {c : Char} (h : Text.isAsciiBlank c = true) : Apart (pre ++ [c]) cs := by
  intro d hd _ _ _
  rw [List.getLast?_concat] at hd
  cases hd
  exact isNameChar_of_isAsciiBlank h

theorem Spells.ne_nil (h : Spells w t rest) : w ≠ [] := by
  obtain ⟨c, cs, rfl, -⟩ := readsAs_of_spells h
  exact List.cons_ne_nil c cs

/-- Behind a lexeme no name goes on. -/
theorem Spells.apart (h : Spells w t rest) : Apart (pre ++ w) rest := by
  intro d hd c hc hname
  rw [List.getLast?_append_of_ne_nil _ h.ne_nil] at hd
  cases h with
  | number _ _ _ hrest => exact absurd hname (Bool.eq_false_iff.mp (hrest c hc).1)
  | ident _ hrest => exact absurd hname (Bool.eq_false_iff.mp (hrest c hc))
  | sign hsign _ =>
      cases t with
      | number x | ident x => cases hsign
      | _ =>
          cases hd
          rfl

theorem Spells.isNameChar_head {name : String} (h : Spells w (.ident name) rest) :
    ∀ c ∈ w.head?, isNameChar c = true := by
  cases h with
  | ident hname =>
      obtain ⟨⟨c, cs, rfl, hc, -⟩, -⟩ := hname
      rintro d ⟨⟩
      exact isNameChar_of_isNameStart hc
  | sign hsign => cases hsign

/-- A lexeme is laid out behind what no name goes on from. -/
theorem Laid.token (hspells : Spells w t (cs ++ post)) (hapart : Apart pre w)
    (hmore : Laid (pre ++ w) ts cs post) :
    Laid pre (⟨t, w, Text.width pre⟩ :: ts) (w ++ cs) post := by
  refine .lexeme hspells ?_ hmore
  rintro name rfl d hd
  obtain ⟨c, more, rfl⟩ := List.exists_cons_of_ne_nil hspells.ne_nil
  exact hapart d hd c rfl (hspells.isNameChar_head c rfl)

/-- **A text that is scanned is laid out in the lexemes of the scan.** -/
theorem laid_of_scanFrom (h : scanFrom o cs = .ok ts) (ho : o = Text.width pre)
    (hapart : Apart pre cs) : Laid pre ts cs [] := by
  -- on the steps of the scan: the offset is what was read in bytes, and no name goes on from there
  fun_induction scanFrom o cs generalizing pre ts with
  | case1 o =>
      cases h
      exact .nil
  | case2 o c rest hblank ih =>
      exact .blank hblank (ih h (by rw [ho, width_snoc]) (apart_blank hblank))
  | case3 => cases h
  | case4 o c rest hblank token n hfirst text more hmore =>
      rename_i ih
      cases h
      subst ho
      have hspells : Spells text token (rest.drop n) := spells_of_first hfirst
      have hlaid := ih hmore (Text.width_append pre text).symm hspells.apart
      have hcut : c :: rest = text ++ rest.drop n :=
        congrArg (c :: ·) (List.take_append_drop n rest).symm
      rw [hcut]
      exact .token (by rwa [List.append_nil]) hapart hlaid
  | case5 => cases h

/-- **Where the scan stops, a character of the text is refused**, behind a part that is laid out. -/
theorem stop_of_scanFrom {e : Error} (h : scanFrom o cs = .error e) (ho : o = Text.width pre)
    (hapart : Apart pre cs) : ∃ read ts rest kind n, cs = read ++ rest ∧ Laid pre ts read rest ∧
      Refused rest kind n ∧ e = .rejected kind (Text.width (pre ++ read) + n) := by
  fun_induction scanFrom o cs generalizing pre with
  | case1 => cases h
  | case2 o c rest hblank ih =>
      obtain ⟨read, ts, rest', kind, n, rfl, hlaid, hrefused, rfl⟩ :=
        ih h (by rw [ho, width_snoc]) (apart_blank hblank)
      refine ⟨c :: read, ts, rest', kind, n, rfl, .blank hblank hlaid, hrefused, ?_⟩
      rw [List.append_assoc]
      rfl
  | case3 o c rest hblank kind n hfirst =>
      cases h
      refine ⟨[], [], c :: rest, kind, n, rfl, .nil,
        refused_of_first (Bool.not_eq_true _ ▸ hblank) hfirst, ?_⟩
      rw [ho, List.append_nil]
  | case4 => cases h
  | case5 o c rest hblank token n hfirst text e' hmore =>
      rename_i ih
      cases h
      subst ho
      have hspells : Spells text token (rest.drop n) := spells_of_first hfirst
      obtain ⟨read, ts, rest', kind, n', hread, hlaid, hrefused, rfl⟩ :=
        ih hmore (Text.width_append pre text).symm hspells.apart
      have hcut : c :: rest = text ++ (read ++ rest') :=
        hread ▸ congrArg (c :: ·) (List.take_append_drop n rest).symm
      refine ⟨text ++ read, _, rest', kind, n', ?_, .token (hread ▸ hspells) hapart hlaid,
        hrefused, ?_⟩
      · rw [hcut, List.append_assoc]
      · rw [List.append_assoc]

/-- **A text that is laid out in lexemes is scanned as them.** -/
theorem scansAs_of_laid (h : Laid pre ts cs post) : ScansAs (Text.width pre) cs ts post := by
  induction h with
  | nil => exact scansAs_nil _ _
  | @blank pre cs post c ts hblank _ ih =>
      have hgap : IsGap [c] := fun d hd => List.mem_singleton.mp hd ▸ hblank
      exact (scansAs_gap hgap _ (cs ++ post)).append (Text.width_append pre [c] ▸ ih)
  | lexeme hspells _ _ ih =>
      exact (scansAs_word (readsAs_of_spells hspells) _).append (Text.width_append _ _ ▸ ih)

/-! ### Places in the source -/

/-- A character of the source starts at the byte. -/
def StartsCharacter (source : String) (o : Nat) : Prop :=
  (⟨o⟩ : String.Pos.Raw).IsValid source ∧ o < source.utf8ByteSize

/-- The lexeme is the part of the source from its offset on, cut between characters. -/
structure Lexeme.StandsIn (t : Lexeme) (source : String) : Prop where
  starts : StartsCharacter source t.offset
  ends : (⟨t.offset + Text.width t.text⟩ : String.Pos.Raw).IsValid source
  text : String.Pos.Raw.extract source ⟨t.offset⟩ ⟨t.offset + Text.width t.text⟩ =
    String.ofList t.text

/-- A character behind a part of a text starts where that part ends. -/
theorem startsCharacter_width {source : String} {c : Char}
    (h : source.toList = pre ++ c :: post) : StartsCharacter source (Text.width pre) := by
  refine ⟨Text.isValid_width h, ?_⟩
  rw [← String.ofList_toList (s := source), Text.utf8ByteSize_eq_width, h, Text.width_append]
  have hpos : 0 < Text.width (c :: post) := Nat.add_pos_left c.utf8Size_pos _
  omega

/-- What is laid out stands in the text where it says. -/
theorem Laid.mem_split (h : Laid pre ts cs post) : ∀ t ∈ ts, ∃ before after,
    pre ++ (cs ++ post) = before ++ (t.text ++ after) ∧ t.offset = Text.width before ∧
      t.text ≠ [] := by
  induction h with
  | nil => exact nofun
  | blank _ _ ih =>
      intro t ht
      obtain ⟨before, after, hsplit, hrest⟩ := ih t ht
      exact ⟨before, after, hsplit ▸ List.append_cons .., hrest⟩
  | @lexeme pre w cs post t ts hspells _ _ ih =>
      intro t' ht'
      rcases List.mem_cons.mp ht' with rfl | ht'
      · exact ⟨pre, cs ++ post, congrArg (pre ++ ·) (List.append_assoc ..), rfl, hspells.ne_nil⟩
      · obtain ⟨before, after, hsplit, hrest⟩ := ih t' ht'
        exact ⟨before, after, by rw [← hsplit]; simp only [List.append_assoc], hrest⟩

theorem Laid.standsIn {source : String} (h : Laid [] ts cs post)
    (hsource : source.toList = cs ++ post) : ∀ t ∈ ts, t.StandsIn source := by
  intro t ht
  obtain ⟨before, after, hsplit, hoffset, hne⟩ := h.mem_split t ht
  have hall : source.toList = before ++ (t.text ++ after) := hsource.trans hsplit
  obtain ⟨c, more, htext⟩ := List.exists_cons_of_ne_nil hne
  refine ⟨?_, ?_, ?_⟩
  · rw [htext] at hall
    exact hoffset ▸ startsCharacter_width hall
  · rw [hoffset, ← Text.width_append]
    exact Text.isValid_width (hall.trans (List.append_assoc ..).symm)
  · exact hoffset ▸ Text.extract_width hall

/-- The scan of the source stops with the error: what was read until then is laid out, and the
error points at a character of the source, behind or at the head of what is refused. -/
def Stops (source : String) (e : Error) : Prop :=
  ∃ read rest ts kind n, source.toList = read ++ rest ∧ Laid [] ts read rest ∧
    (∀ t ∈ ts, t.StandsIn source) ∧ Refused rest kind n ∧
    e = .rejected kind (Text.width read + n) ∧ StartsCharacter source (Text.width read + n)

/-- **A text is scanned as the lexemes laid out in it, character by character**, and each of them
is the part of the source at its offset; where there are none, the error points at a character. -/
theorem scan_faithful (source : String) :
    (∀ ts, scan source.toList = .ok ts ↔ Laid [] ts source.toList []) ∧
      (∀ ts, scan source.toList = .ok ts → ∀ t ∈ ts, t.StandsIn source) ∧
      ∀ e, scan source.toList = .error e → Stops source e := by
  have hlaid : ∀ {ts}, scan source.toList = .ok ts → Laid [] ts source.toList [] :=
    fun h => laid_of_scanFrom h rfl nofun
  refine ⟨fun ts => ⟨hlaid, fun h => ?_⟩, fun ts h => (hlaid h).standsIn (List.append_nil _).symm,
    fun e h => ?_⟩
  · have hscan := scansAs_of_laid h
    rw [ScansAs, List.append_nil, scanFrom] at hscan
    rw [scan, show 0 = Text.width [] from rfl, hscan]
    exact congrArg Except.ok (List.append_nil ts)
  · obtain ⟨read, ts, rest, kind, n, hsource, hread, hrefused, rfl⟩ :=
      stop_of_scanFrom h (show 0 = Text.width [] from rfl) nofun
    refine ⟨read, rest, ts, kind, n, hsource, hread, hread.standsIn hsource, hrefused, rfl, ?_⟩
    obtain ⟨seen, c, more, rfl, rfl⟩ := hrefused.points
    rw [← Text.width_append]
    exact startsCharacter_width (hsource.trans (List.append_assoc ..).symm)

end SiteSafety.Formula
