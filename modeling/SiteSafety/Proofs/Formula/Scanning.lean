import SiteSafety.Formula.Token
import SiteSafety.Proofs.Outcome
import SiteSafety.Proofs.Text.Width

/-!
# Proofs — Formula — Scanning

The scan of a text word by word.  A word that the scan reads as one token when it stands alone is
read so in front of anything that cannot go on with it: behind a numeral or a name no letter,
digit, underscore or point may stand (`EndsOperand`), behind a sign no `=`.

* `ScansAs.append`: parts one behind the other; `scansAs_gap`, `scansAs_word`: blanks and words.
* `readsAs_numeral`: a numeral that is scanned back alone is read so in front of a text.
* `readsAs_name`: names.
-/

namespace SiteSafety.Formula

/-! ### Blanks -/

/-- The scan passes over a blank. -/
theorem scanFrom_blank {c : Char} {o : Nat} {cs : List Char} (hc : Text.isAsciiBlank c = true) :
    scanFrom o (c :: cs) = scanFrom (o + c.utf8Size) cs := by
  rw [scanFrom, if_pos hc]

theorem scanFrom_space {o : Nat} {cs : List Char} :
    scanFrom o (' ' :: cs) = scanFrom (o + 1) cs := scanFrom_blank rfl

/-- ASCII blanks, or nothing at all. -/
def IsGap (gap : List Char) : Prop := ∀ c ∈ gap, Text.isAsciiBlank c = true

theorem isAsciiBlank_cases {c : Char} (h : Text.isAsciiBlank c = true) :
    c ∈ [' ', '\t', '\n', '\x0c', '\r'] := by
  simpa [Text.isAsciiBlank, or_assoc] using h

theorem isNameChar_of_isAsciiBlank {c : Char} (h : Text.isAsciiBlank c = true) :
    isNameChar c = false := by
  have hnone : [' ', '\t', '\n', '\x0c', '\r'].all (fun d => !isNameChar d) = true := rfl
  exact (Bool.not_eq_true' _).mp (List.all_eq_true.mp hnone c (isAsciiBlank_cases h))

theorem isNameChar_of_isNameStart {c : Char} (h : isNameStart c = true) : isNameChar c = true := by
  rw [isNameStart, Bool.or_eq_true_iff] at h
  rw [isNameChar, Char.isAlphanum, Bool.or_eq_true_iff, Bool.or_eq_true_iff]
  exact h.imp_left Or.inl

/-! ### Parts of a text -/

/-- From byte `o` on and in front of `rest`, the text `w` is scanned as the tokens `ts`. -/
def ScansAs (o : Nat) (w : List Char) (ts : List Lexeme) (rest : List Char) : Prop :=
  scanFrom o (w ++ rest) = (scanFrom (o + Text.width w) rest).map (ts ++ ·)

/-- Parts one behind the other are scanned one after the other. -/
theorem ScansAs.append {o : Nat} {w w' rest : List Char} {ts ts' : List Lexeme}
    (h : ScansAs o w ts (w' ++ rest)) (h' : ScansAs (o + Text.width w) w' ts' rest) :
    ScansAs o (w ++ w') (ts ++ ts') rest := by
  unfold ScansAs at *
  rw [List.append_assoc, h, h', Text.width_append, Nat.add_assoc]
  cases scanFrom (o + (Text.width w + Text.width w')) rest with
  | error e => rfl
  | ok more => simp only [Except.map, List.append_assoc]

theorem scansAs_nil (o : Nat) (rest : List Char) : ScansAs o [] [] rest := by
  show scanFrom o rest = (scanFrom o rest).map ([] ++ ·)
  cases scanFrom o rest <;> rfl

theorem scansAs_gap {gap : List Char} (h : IsGap gap) (o : Nat) (rest : List Char) :
    ScansAs o gap [] rest := by
  induction gap generalizing o with
  | nil => exact scansAs_nil o rest
  | cons c gap ih =>
      have hmore := ih (fun d hd => h d (List.mem_cons_of_mem c hd)) (o + c.utf8Size)
      unfold ScansAs at *
      rw [List.cons_append, scanFrom_blank (h c List.mem_cons_self), hmore, Nat.add_assoc]
      rfl

/-! ### Words -/

/-- A token at the head of a text is the first one of the text. -/
theorem scanFrom_token {c : Char} {o n : Nat} {cs : List Char} {t : Token}
    (hc : Text.isAsciiBlank c = false) (h : Token.first c cs = .ok (t, n)) :
    scanFrom o (c :: cs) = (scanFrom (o + Text.width (c :: cs.take n)) (cs.drop n)).map
      (⟨t, c :: cs.take n, o⟩ :: ·) := by
  rw [scanFrom, if_neg (by simp [hc]), h]
  dsimp only
  cases scanFrom (o + Text.width (c :: cs.take n)) (cs.drop n) <;> rfl

/-- In front of `rest`, the word `w` is read as the token `t`. -/
def ReadsAs (w : List Char) (t : Token) (rest : List Char) : Prop :=
  ∃ c cs, w = c :: cs ∧ Text.isAsciiBlank c = false ∧
    Token.first c (cs ++ rest) = .ok (t, cs.length)

theorem scansAs_word {w rest : List Char} {t : Token} (h : ReadsAs w t rest) (o : Nat) :
    ScansAs o w [⟨t, w, o⟩] rest := by
  obtain ⟨c, cs, rfl, hc, hfirst⟩ := h
  unfold ScansAs
  rw [List.cons_append, scanFrom_token hc hfirst, List.take_left, List.drop_left]
  rfl

/-- No token starts before the text does. -/
theorem le_offset_of_scanFrom {o : Nat} {cs : List Char} {ts : List Lexeme}
    (h : scanFrom o cs = .ok ts) : ∀ t ∈ ts, o ≤ t.offset := by
  fun_induction scanFrom o cs generalizing ts with
  | case1 o =>
      cases h
      exact nofun
  | case2 o c rest hblank ih => exact fun t ht => Nat.le_of_add_right_le (ih h t ht)
  | case3 => cases h
  | case4 o c rest hblank token n hfirst text more hmore =>
      rename_i ih
      cases h
      intro t ht
      rcases List.mem_cons.mp ht with rfl | ht
      · exact Nat.le_refl _
      · exact Nat.le_of_add_right_le (ih hmore t ht)
  | case5 => cases h

/-- A text that is scanned as one token from its first character on is read as that token. -/
theorem first_of_scan {w : List Char} {t : Token} (h : scan w = .ok [⟨t, w, 0⟩]) :
    ∃ c cs n, w = c :: cs ∧ Text.isAsciiBlank c = false ∧ Token.first c cs = .ok (t, n) ∧
      cs.length ≤ n := by
  cases w with
  | nil =>
      rw [scan, scanFrom] at h
      cases h
  | cons c cs =>
      rw [scan] at h
      cases hc : Text.isAsciiBlank c with
      | true =>
          -- behind a blank every token starts later
          rw [scanFrom_blank hc] at h
          have hlate := le_offset_of_scanFrom h _ (List.mem_singleton_self _)
          have hpos := c.utf8Size_pos
          simp only at hlate
          omega
      | false =>
          cases hfirst : Token.first c cs with
          | error e =>
              rw [scanFrom, if_neg (by simp [hc]), hfirst] at h
              cases h
          | ok found =>
              obtain ⟨t', n⟩ := found
              rw [scanFrom_token hc hfirst] at h
              cases hrest : scanFrom (0 + Text.width (c :: cs.take n)) (cs.drop n) with
              | error e =>
                  rw [hrest] at h
                  cases h
              | ok more =>
                  rw [hrest] at h
                  simp only [Except.map, Except.ok.injEq, List.cons.injEq, Lexeme.mk.injEq,
                    true_and, and_true] at h
                  obtain ⟨⟨rfl, htake⟩, -⟩ := h
                  refine ⟨c, cs, n, rfl, hc, hfirst, ?_⟩
                  have hlen := congrArg List.length htake
                  rw [List.length_take] at hlen
                  omega

/-! ### Numerals -/

/-- Neither a numeral nor a name goes on into `rest`. -/
def EndsOperand (rest : List Char) : Prop := ∀ c ∈ rest.head?, isNameChar c = false ∧ c ≠ '.'

theorem EndsOperand.digit {rest : List Char} (h : EndsOperand rest) :
    ∀ c ∈ rest.head?, c.isDigit = false := by
  intro c hc
  have hname := (h c hc).1
  simp only [isNameChar, Char.isAlphanum, Bool.or_eq_false_iff] at hname
  exact hname.1.2

theorem takeWhile_of_head {p : Char → Bool} {rest : List Char}
    (h : ∀ c ∈ rest.head?, p c = false) : rest.takeWhile p = [] := by
  cases rest with
  | nil => rfl
  | cons c rest => simp [h c rfl]

/-- A run of characters of a class ends where one outside it stands. -/
theorem takeWhile_append_of_head {p : Char → Bool} {cs rest : List Char}
    (h : ∀ c ∈ rest.head?, p c = false) : (cs ++ rest).takeWhile p = cs.takeWhile p := by
  induction cs with
  | nil => exact takeWhile_of_head h
  | cons c cs ih => simp only [List.cons_append, List.takeWhile_cons, ih]

/-- A run of characters of a class is taken up to where one outside it stands. -/
theorem takeWhile_run {p : Char → Bool} {cs rest : List Char} (hcs : ∀ c ∈ cs, p c = true)
    (hrest : ∀ c ∈ rest.head?, p c = false) : (cs ++ rest).takeWhile p = cs := by
  rw [List.takeWhile_append_of_pos hcs, takeWhile_of_head hrest, List.append_nil]

/-- The length of a point with its digits. -/
def pointLength : List Char → Nat
  | '.' :: rest => 1 + (rest.takeWhile Char.isDigit).length
  | _ => 0

/-- The length of a sign. -/
def signLength : List Char → Nat
  | '+' :: _ => 1
  | '-' :: _ => 1
  | _ => 0

/-- The length of an exponent, unless its mark has no digits. -/
def exponentLength? : List Char → Option Nat
  | c :: rest =>
    if c = 'e' ∨ c = 'E' then
      let digits := (rest.drop (signLength rest)).takeWhile Char.isDigit
      if digits.isEmpty then none else some (1 + signLength rest + digits.length)
    else some 0
  | [] => some 0

/-- The length of the digits at the head of a text, with a point and its digits. -/
def mantissaLength (cs : List Char) : Nat :=
  let whole := (cs.takeWhile Char.isDigit).length
  whole + pointLength (cs.drop whole)

/-- A numeral is its digits with their point, and its exponent. -/
theorem numeralLength?_eq (cs : List Char) : numeralLength? cs =
    (exponentLength? (cs.drop (mantissaLength cs))).map (mantissaLength cs + ·) := by
  have h : numeralLength? cs = match cs.drop (mantissaLength cs) with
      | c :: rest =>
        if c = 'e' ∨ c = 'E' then
          let digits := (rest.drop (signLength rest)).takeWhile Char.isDigit
          if digits.isEmpty then none
          else some (mantissaLength cs + 1 + signLength rest + digits.length)
        else some (mantissaLength cs)
      | [] => some (mantissaLength cs) := rfl
  rw [h]
  cases cs.drop (mantissaLength cs) with
  | nil => rfl
  | cons c rest =>
      simp only [exponentLength?]
      split
      · split <;> simp [Nat.add_assoc]
      · rfl

theorem pointLength_append {cs rest : List Char} (h : EndsOperand rest) :
    pointLength (cs ++ rest) = pointLength cs := by
  cases cs with
  | nil =>
      rw [List.nil_append]
      unfold pointLength
      split
      · exact absurd rfl (h '.' rfl).2
      · rfl
  | cons c cs =>
      by_cases hc : c = '.'
      · subst hc
        simp only [List.cons_append, pointLength, takeWhile_append_of_head h.digit]
      · have hpoint : ∀ ds, pointLength (c :: ds) = 0 := fun ds => by simp [pointLength, hc]
        rw [List.cons_append, hpoint, hpoint]

theorem pointLength_le (cs : List Char) : pointLength cs ≤ cs.length := by
  unfold pointLength
  split
  · have hle := (List.takeWhile_sublist (l := ‹List Char›) Char.isDigit).length_le
    simp only [List.length_cons]
    omega
  · exact Nat.zero_le _

theorem signLength_append {c : Char} {cs rest : List Char} :
    signLength (c :: cs ++ rest) = signLength (c :: cs) := by
  by_cases hplus : c = '+'
  · subst hplus
    rfl
  · by_cases hminus : c = '-'
    · subst hminus
      rfl
    · simp [signLength, hplus, hminus]

/-- Digits of an exponent are not followed by more of them. -/
theorem exponentLength?_append {cs rest : List Char} {n : Nat} (h : EndsOperand rest)
    (hn : exponentLength? cs = some n) : exponentLength? (cs ++ rest) = some n := by
  match cs with
  | [] =>
      rw [List.nil_append, ← hn]
      cases rest with
      | nil => rfl
      | cons c rest =>
          have hname := (h c rfl).1
          have hmark : ¬(c = 'e' ∨ c = 'E') := by
            rintro (rfl | rfl) <;> exact absurd hname (by decide)
          simp [exponentLength?, hmark]
  | [c] =>
      by_cases hmark : c = 'e' ∨ c = 'E'
      · simp [exponentLength?, hmark] at hn
      · simpa [exponentLength?, hmark] using hn
  | c :: d :: cs =>
      have hsign : signLength (d :: (cs ++ rest)) = signLength (d :: cs) := signLength_append
      have hle : signLength (d :: cs) ≤ (d :: cs).length := by
        unfold signLength
        split <;> simp
      have hdrop : (d :: (cs ++ rest)).drop (signLength (d :: cs)) =
          (d :: cs).drop (signLength (d :: cs)) ++ rest :=
        List.drop_append_of_le_length hle
      rw [← hn]
      simp only [List.cons_append, exponentLength?, hsign, hdrop,
        takeWhile_append_of_head h.digit]

theorem exponentLength?_le {cs : List Char} {n : Nat} (hn : exponentLength? cs = some n) :
    n ≤ cs.length := by
  cases cs with
  | nil => simp_all [exponentLength?]
  | cons c rest =>
      have htake :=
        (List.takeWhile_sublist (l := rest.drop (signLength rest)) Char.isDigit).length_le
      rw [List.length_drop] at htake
      have hsign : signLength rest ≤ rest.length := by
        unfold signLength
        split <;> simp
      simp only [exponentLength?] at hn
      split at hn
      · split at hn
        · cases hn
        · obtain rfl := Option.some.inj hn
          simp only [List.length_cons]
          omega
      · obtain rfl := Option.some.inj hn
        exact Nat.zero_le _

theorem mantissaLength_le (cs : List Char) : mantissaLength cs ≤ cs.length := by
  have hwhole := (List.takeWhile_sublist (l := cs) Char.isDigit).length_le
  have hpoint := pointLength_le (cs.drop (cs.takeWhile Char.isDigit).length)
  rw [List.length_drop] at hpoint
  simp only [mantissaLength]
  omega

theorem mantissaLength_append {cs rest : List Char} (h : EndsOperand rest) :
    mantissaLength (cs ++ rest) = mantissaLength cs := by
  have hwhole := (List.takeWhile_sublist (l := cs) Char.isDigit).length_le
  simp only [mantissaLength, takeWhile_append_of_head h.digit,
    List.drop_append_of_le_length hwhole, pointLength_append h]

theorem numeralLength?_le {cs : List Char} {n : Nat} (hn : numeralLength? cs = some n) :
    n ≤ cs.length := by
  rw [numeralLength?_eq, Option.map_eq_some_iff] at hn
  obtain ⟨k, hk, rfl⟩ := hn
  have hle := exponentLength?_le hk
  have hmantissa := mantissaLength_le cs
  rw [List.length_drop] at hle
  omega

/-- A numeral does not go on into what ends an operand. -/
theorem numeralLength?_append {cs rest : List Char} {n : Nat} (h : EndsOperand rest)
    (hn : numeralLength? cs = some n) : numeralLength? (cs ++ rest) = some n := by
  rw [numeralLength?_eq, Option.map_eq_some_iff] at hn ⊢
  obtain ⟨k, hk, rfl⟩ := hn
  rw [mantissaLength_append h, List.drop_append_of_le_length (mantissaLength_le cs)]
  exact ⟨k, exponentLength?_append h hk, rfl⟩

/-- What is read as a numeral. -/
theorem numeral_eq_ok_iff {cs : List Char} {x : Float} {n : Nat} :
    numeral cs = .ok (x, n) ↔ numeralLength? cs = some n ∧ EndsOperand (cs.drop n) ∧
      Decimal.read? (cs.take n) = some x ∧ Decimal.isFinite x = true := by
  constructor
  · intro h
    unfold numeral at h
    split at h
    · cases h
    next m hm =>
      split at h
      · cases h
      next hpoint =>
        split at h
        · cases h
        next hname =>
          split at h
          next y hread =>
            split at h
            next hfinite =>
              cases h
              refine ⟨hm, fun c hc => ⟨?_, ?_⟩, hread, hfinite⟩
              · rw [hc] at hname
                exact Bool.not_eq_true _ ▸ hname
              · rintro rfl
                obtain ⟨tail, htail⟩ := List.head?_eq_some_iff.mp hc
                exact hpoint tail htail
            · cases h
          · cases h
  · rintro ⟨hm, hends, hread, hfinite⟩
    have hname : ¬(cs.drop n).head?.any isNameChar = true := by
      cases hhead : (cs.drop n).head? with
      | none => exact nofun
      | some c => simp [(hends c hhead).1]
    simp only [numeral, hm, hread, hfinite, if_true]
    split
    next tail htail => exact absurd rfl (hends '.' (by rw [htail]; rfl)).2
    · rw [if_neg hname]

/-- A numeral takes at least one character. -/
theorem pos_of_numeral {cs : List Char} {x : Float} {n : Nat} (h : numeral cs = .ok (x, n)) :
    0 < n := by
  obtain ⟨-, -, hread, -⟩ := numeral_eq_ok_iff.mp h
  rcases Nat.eq_zero_or_pos n with rfl | hpos
  · rw [List.take_zero] at hread
    cases hread
  · exact hpos

/-- A numeral that takes a whole text is read back in front of what ends an operand. -/
theorem numeral_append {cs rest : List Char} {x : Float} {n : Nat} (h : EndsOperand rest)
    (hn : numeral cs = .ok (x, n)) (hlen : cs.length ≤ n) :
    numeral (cs ++ rest) = .ok (x, cs.length) := by
  obtain ⟨hlength, -, hread, hfinite⟩ := numeral_eq_ok_iff.mp hn
  obtain rfl : n = cs.length := Nat.le_antisymm (numeralLength?_le hlength) hlen
  rw [List.take_length] at hread
  refine numeral_eq_ok_iff.mpr ⟨numeralLength?_append h hlength, ?_, ?_, hfinite⟩
  · rwa [List.drop_left]
  · rwa [List.take_left]

theorem first_number_iff {c : Char} {cs : List Char} {x : Float} {n : Nat} :
    Token.first c cs = .ok (.number x, n) ↔
      (c.isDigit = true ∨ c = '.' ∧ cs.head?.any Char.isDigit = true) ∧
        ∃ m, numeral (c :: cs) = .ok (x, m) ∧ n = m - 1 := by
  have hstart : (c.isDigit || (c == '.' && cs.head?.any Char.isDigit)) = true ↔
      (c.isDigit = true ∨ c = '.' ∧ cs.head?.any Char.isDigit = true) := by
    simp only [Bool.or_eq_true, Bool.and_eq_true, beq_iff_eq]
  unfold Token.first
  rw [← hstart]
  by_cases h : (c.isDigit || (c == '.' && cs.head?.any Char.isDigit)) = true
  · rw [if_pos h, map_eq_ok_iff]
    constructor
    · rintro ⟨⟨y, m⟩, hm, heq⟩
      cases heq
      exact ⟨h, m, hm, rfl⟩
    · rintro ⟨-, m, hm, rfl⟩
      exact ⟨(x, m), hm, rfl⟩
  · -- neither a name nor a sign is a number
    rw [if_neg h]
    refine iff_of_false ?_ fun hboth => h hboth.1
    have hsign : symbol? c cs ≠ some (.number x, n) := by
      unfold symbol?
      dsimp only
      split <;> (try split) <;> simp
    split
    · dsimp only
      split <;> simp
    · cases hfound : symbol? c cs with
      | none => simp
      | some found =>
          intro heq
          cases heq
          exact hsign hfound

/-- **A numeral that is scanned back as a value** is read as it in front of what ends an operand. -/
theorem readsAs_numeral {cs rest : List Char} {x : Float} (h : scan cs = .ok [⟨.number x, cs, 0⟩])
    (hrest : EndsOperand rest) : ReadsAs cs (.number x) rest := by
  obtain ⟨c, cs, n, rfl, hc, hfirst, hlen⟩ := first_of_scan h
  obtain ⟨hstart, m, hnumeral, rfl⟩ := first_number_iff.mp hfirst
  refine ⟨c, cs, rfl, hc, first_number_iff.mpr ⟨?_, (c :: cs).length, ?_, rfl⟩⟩
  · refine hstart.imp id fun ⟨hpoint, hdigit⟩ => ⟨hpoint, ?_⟩
    cases cs with
    | nil => cases hdigit
    | cons d cs => exact hdigit
  · have hpos := pos_of_numeral hnumeral
    exact numeral_append hrest hnumeral (by simp only [List.length_cons]; omega)

/-! ### Names -/

/-- A name that a variable may have: a letter or an underscore, then letters, digits and
underscores.  Two underscores in front are reserved, and so are some words, in any case. -/
structure IsName (name : List Char) : Prop where
  spelled : ∃ c cs, name = c :: cs ∧ isNameStart c = true ∧ ∀ d ∈ cs, isNameChar d = true
  allowed : isForbidden name = false

theorem isDigit_of_isNameStart {c : Char} (h : isNameStart c = true) : c.isDigit = false := by
  rw [isNameStart, Bool.or_eq_true_iff] at h
  rcases h with hletter | hunderscore
  · rw [Bool.eq_false_iff]
    intro hdigit
    have hlast : c.toNat ≤ '9'.toNat := (Char.isDigit_iff_toNat.mp hdigit).2
    have hcase : (c.isUpper || c.isLower) = true := hletter
    rcases Bool.or_eq_true_iff.mp hcase with hupper | hlower
    · have hrange : 'A'.val ≤ c.val ∧ c.val ≤ 'Z'.val := of_decide_eq_true hupper
      exact absurd (Nat.le_trans hrange.1 hlast) (by decide)
    · have hfirst : 'a'.val ≤ c.val := of_decide_eq_true (Bool.and_eq_true_iff.mp hlower).1
      exact absurd (Nat.le_trans hfirst hlast) (by decide)
  · rw [beq_iff_eq.mp hunderscore]
    rfl

theorem isAsciiBlank_of_isNameChar {c : Char} (h : isNameChar c = true) :
    Text.isAsciiBlank c = false := by
  cases hblank : Text.isAsciiBlank c with
  | false => rfl
  | true =>
      rw [isNameChar_of_isAsciiBlank hblank] at h
      cases h

theorem readsAs_name {name rest : List Char} (h : IsName name)
    (hrest : ∀ c ∈ rest.head?, isNameChar c = false) :
    ReadsAs name (.ident (String.ofList name)) rest := by
  obtain ⟨⟨c, cs, rfl, hc, hcs⟩, hallowed⟩ := h
  have htail : (cs ++ rest).takeWhile isNameChar = cs := takeWhile_run hcs hrest
  have hdigit := isDigit_of_isNameStart hc
  have hblank := isAsciiBlank_of_isNameChar (isNameChar_of_isNameStart hc)
  have hpoint : (c == '.') = false := by
    rw [beq_eq_false_iff_ne]
    rintro rfl
    cases hc
  refine ⟨c, cs, rfl, hblank, ?_⟩
  simp [Token.first, hdigit, hpoint, hc, htail, hallowed]

end SiteSafety.Formula
