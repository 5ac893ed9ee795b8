import SiteSafety.Proofs.Formula.Reader
import SiteSafety.Proofs.Outcome

/-!
# Proofs — Formula — Acceptance

The reader accepts the language of the grammar and nothing else.

* Soundness (`fronts_operand`, `fronts_comparison`): what a reader takes off the front of the
  tokens is a phrase with that tree, and it has no more levels open than the reader had left.  The
  induction is on the levels; at one level, a chain is followed sign by sign.
* Completeness (`Derives.isRead`): a phrase that is not followed by anything that would extend it
  is read as a whole, by every reader with enough levels.  The induction is on the derivation.  A
  chain is derived from its right end and read from its left one, so for a chain the statement is
  that its reader comes as far as the end of the phrase and may then go on.
* `accepts_iff_derives`: both, for whole lists of tokens and for whole sources.

That a phrase has one tree follows from completeness: it is the tree that is read.
-/

namespace SiteSafety.Formula

/-! ### What is read is a phrase -/

/-- `ts` is a phrase of at most `n` levels with the tree `e`, and then `rest`. -/
def Fronts (p : Phrase) (n : Nat) (ts : List Lexeme) (e : Tree) (rest : List Lexeme) : Prop :=
  ∃ pre d, ts = pre ++ rest ∧ d ≤ n ∧ Derives p d pre e

theorem Fronts.weaken {p q : Phrase} {n : Nat} {ts rest : List Lexeme} {e : Tree}
    (hpq : ∀ {d pre}, Derives p d pre e → Derives q d pre e) (h : Fronts p n ts e rest) :
    Fronts q n ts e rest := by
  obtain ⟨pre, d, rfl, hd, h⟩ := h
  exact ⟨pre, d, rfl, hd, hpq h⟩

/-- Two phrases with a sign between them. -/
theorem Fronts.join {p q r : Phrase} {n : Nat} {t : Lexeme} {op : Op}
    {ts more rest : List Lexeme} {e₁ e₂ : Tree}
    (hpq : ∀ {d₁ d₂ ts₁ ts₂}, Derives p d₁ ts₁ e₁ → Derives q d₂ ts₂ e₂ →
      Derives r (max d₁ d₂) (ts₁ ++ t :: ts₂) (.binary op e₁ e₂))
    (h₁ : Fronts p n ts e₁ (t :: more)) (h₂ : Fronts q n more e₂ rest) :
    Fronts r n ts (.binary op e₁ e₂) rest := by
  obtain ⟨pre₁, d₁, rfl, hd₁, h₁⟩ := h₁
  obtain ⟨pre₂, d₂, rfl, hd₂, h₂⟩ := h₂
  exact ⟨pre₁ ++ t :: pre₂, max d₁ d₂, by simp, Nat.max_le.mpr ⟨hd₁, hd₂⟩, hpq h₁ h₂⟩

/-- A chain of members `q` that has come as far as a phrase `p` goes on to a phrase `p`. -/
theorem fronts_continues {op? : Token → Option Op} {m : Reader} {p q : Phrase} {n : Nat}
    (hm : ∀ {ts e rest}, Reads m ts e rest → Fronts q n ts e rest)
    (hop : ∀ {t op d₁ d₂ ts₁ ts₂ l r}, op? t.token = some op → Derives p d₁ ts₁ l →
      Derives q d₂ ts₂ r → Derives p (max d₁ d₂) (ts₁ ++ t :: ts₂) (.binary op l r))
    {ts mid rest : List Lexeme} {l e : Tree} (hl : Fronts p n ts l mid)
    (hc : Continues op? m l mid e rest) : Fronts p n ts e rest := by
  -- each turn of the chain reads a member, so the tokens left get fewer
  induction hlen : mid.length using Nat.strongRecOn generalizing l mid with
  | ind k ih =>
      cases mid with
      | nil =>
          obtain ⟨rfl, rfl⟩ := continues_nil.mp hc
          exact hl
      | cons t more =>
          cases ht : op? t.token with
          | none =>
              obtain ⟨rfl, rfl⟩ := (continues_cons_of_none ht).mp hc
              exact hl
          | some op =>
              obtain ⟨r, mid', hr, hc'⟩ := (continues_cons_of_some ht).mp hc
              have shorter : mid'.length < more.length := hr.1
              have hlr : Fronts p n ts (.binary op l r) mid' := hl.join (hop ht) (hm hr)
              exact ih _ (by simp at hlen; omega) hlr hc' rfl

variable {m : Reader} {n : Nat}

theorem fronts_product (hm : ∀ {ts e rest}, Reads m ts e rest → Fronts .operand n ts e rest)
    {ts rest : List Lexeme} {e : Tree} (h : Reads (product m) ts e rest) :
    Fronts .product n ts e rest := by
  obtain ⟨l, mid, hl, hc⟩ := reads_chain.mp h
  exact fronts_continues hm .multiplied ((hm hl).weaken .operand) hc

theorem fronts_sum (hm : ∀ {ts e rest}, Reads m ts e rest → Fronts .operand n ts e rest)
    {ts rest : List Lexeme} {e : Tree} (h : Reads (sum m) ts e rest) : Fronts .sum n ts e rest := by
  obtain ⟨l, mid, hl, hc⟩ := reads_chain.mp h
  exact fronts_continues (fronts_product hm) .added ((fronts_product hm hl).weaken .product) hc

theorem fronts_comparison (hm : ∀ {ts e rest}, Reads m ts e rest → Fronts .operand n ts e rest)
    {ts rest : List Lexeme} {e : Tree} (h : Reads (comparison m) ts e rest) :
    Fronts .comparison n ts e rest := by
  obtain ⟨-, h | ⟨l, t, more, op, r, hl, ht, hr, rfl⟩⟩ := reads_comparison.mp h
  · exact (fronts_sum hm h).weaken .sum
  · exact (fronts_sum hm hl).join (.compared ht) (fronts_sum hm hr)

/-- What is read as an operand is one. -/
theorem fronts_operand (size n : Nat) {ts rest : List Lexeme} {e : Tree}
    (h : Reads (operand size n) ts e rest) : Fronts .operand n ts e rest := by
  -- a minus sign and a parenthesis spend a level each, so the induction is on the levels
  induction n using Nat.strongRecOn generalizing ts rest e with
  | ind n ih =>
      rcases reads_operand_inv h with ⟨t, x, rfl, ht, rfl⟩ | ⟨t, x, rfl, ht, rfl⟩ |
        ⟨t, more, k, e', rfl, ht, rfl, rfl, hin⟩ | ⟨o, c, more, k, rfl, ho, hc, rfl, hin⟩
      · exact ⟨[t], 0, rfl, Nat.zero_le _, .atom (.number ht)⟩
      · exact ⟨[t], 0, rfl, Nat.zero_le _, .atom (.name ht)⟩
      · obtain ⟨pre, d, rfl, hd, hin⟩ := ih k (Nat.lt_succ_self k) hin
        exact ⟨t :: pre, d + 1, rfl, Nat.succ_le_succ hd, .negated ht hin⟩
      · obtain ⟨pre, d, rfl, hd, hin⟩ := fronts_comparison (ih k (Nat.lt_succ_self k)) hin
        exact ⟨o :: pre ++ [c], d + 1, by simp, Nat.succ_le_succ hd, .atom (.parens ho hc hin)⟩

/-! ### A phrase is read -/

/-- How the reader of a phrase, with `n` levels for its operands, takes `ts` and makes `e` of it:
an atom, an operand and a comparison are read where they stop; a chain is read up to the end of
`ts`, and further if more of the chain follows. -/
def IsRead (size n : Nat) (ts : List Lexeme) (e : Tree) : Phrase → Prop
  | .atom | .operand => ∀ rest, Phrase.operand.StopsAt rest →
      Reads (operand size n) (ts ++ rest) e rest
  | .product => ∀ rest e' rest', Phrase.operand.StopsAt rest →
      Continues Op.multiplicative? (operand size n) e rest e' rest' →
      Reads (product (operand size n)) (ts ++ rest) e' rest'
  | .sum => ∀ rest e' rest', Phrase.product.StopsAt rest →
      Continues Op.additive? (product (operand size n)) e rest e' rest' →
      Reads (sum (operand size n)) (ts ++ rest) e' rest'
  | .comparison => ∀ rest, Phrase.comparison.StopsAt rest →
      Reads (comparison (operand size n)) (ts ++ rest) e rest

/-- A product that stops is read. -/
theorem IsRead.product {size n : Nat} {ts rest : List Lexeme} {e : Tree}
    (h : IsRead size n ts e .product) (hr : Phrase.product.StopsAt rest) :
    Reads (product (operand size n)) (ts ++ rest) e rest := by
  refine h rest e rest hr.operand (continues_self fun t ht => ?_)
  have := hr t ht
  simp_all [Phrase.extendedBy]

/-- A sum that stops is read. -/
theorem IsRead.sum {size n : Nat} {ts rest : List Lexeme} {e : Tree}
    (h : IsRead size n ts e .sum) (hr : Phrase.sum.StopsAt rest) :
    Reads (sum (operand size n)) (ts ++ rest) e rest := by
  refine h rest e rest hr.product (continues_self fun t ht => ?_)
  have := hr t ht
  simp_all [Phrase.extendedBy]

theorem Phrase.StopsAt.uncompared {rest : List Lexeme} (h : Phrase.comparison.StopsAt rest) :
    Uncompared rest := by
  intro t ht
  have := h t ht
  simp_all [Phrase.extendedBy]

/-- A phrase is read by every reader with enough levels. -/
theorem Derives.isRead {p : Phrase} {d : Nat} {ts : List Lexeme} {e : Tree} (h : Derives p d ts e)
    (size n : Nat) (hd : d ≤ n) : IsRead size n ts e p := by
  induction h generalizing n with
  | number ht => exact fun rest hr => reads_operand_number ht hr
  | name ht => exact fun rest hr => reads_operand_name ht hr
  | @parens o c d ts e ho hc _ ih =>
      intro rest hr
      obtain ⟨k, rfl⟩ : ∃ k, n = k + 1 := ⟨n - 1, by omega⟩
      have hin := ih k (by omega) (c :: rest) (Phrase.comparison_stopsAt_rparen hc)
      simpa using reads_operand_parens ho hc hin hr
  | atom _ ih => exact ih n hd
  | negated ht _ ih =>
      intro rest hr
      obtain ⟨k, rfl⟩ : ∃ k, n = k + 1 := ⟨n - 1, by omega⟩
      exact reads_operand_negated ht (ih k (by omega) rest hr)
  | operand _ ih => exact fun rest e' rest' hr hc => reads_chain.mpr ⟨_, _, ih n hd rest hr, hc⟩
  | @multiplied t op d₁ d₂ ts₁ ts₂ l r ht _ _ ihl ihr =>
      -- the left side is read first, and its chain goes on with the sign and the right side
      intro rest e' rest' hr hc
      have hc' : Continues Op.multiplicative? (Formula.operand size n) l (t :: (ts₂ ++ rest)) e'
          rest' :=
        (continues_cons_of_some ht).mpr ⟨r, rest, ihr n (by omega) rest hr, hc⟩
      simpa using ihl n (by omega) _ e' rest' (Phrase.operand_stopsAt_sign ht) hc'
  | product _ ih =>
      exact fun rest e' rest' hr hc => reads_chain.mpr ⟨_, _, (ih n hd).product hr, hc⟩
  | @added t op d₁ d₂ ts₁ ts₂ l r ht _ _ ihl ihr =>
      intro rest e' rest' hr hc
      have hc' : Continues Op.additive? (Formula.product (Formula.operand size n)) l
          (t :: (ts₂ ++ rest)) e' rest' :=
        (continues_cons_of_some ht).mpr ⟨r, rest, (ihr n (by omega)).product hr, hc⟩
      simpa using ihl n (by omega) _ e' rest' (Phrase.product_stopsAt_sign ht) hc'
  | sum _ ih =>
      exact fun rest hr => reads_comparison.mpr ⟨hr.uncompared, .inl ((ih n hd).sum hr.sum)⟩
  | @compared t op d₁ d₂ ts₁ ts₂ l r ht _ _ ihl ihr =>
      intro rest hr
      have hl : Reads (Formula.sum (Formula.operand size n)) (ts₁ ++ t :: (ts₂ ++ rest)) l
          (t :: (ts₂ ++ rest)) :=
        (ihl n (by omega)).sum (Phrase.sum_stopsAt_sign ht)
      have hr' := (ihr n (by omega)).sum hr.sum
      rw [List.append_assoc]
      exact reads_comparison.mpr ⟨hr.uncompared, .inr ⟨l, t, _, op, r, hl, ht, hr', rfl⟩⟩

/-! ### Acceptance -/

theorem ofTokens_eq_ok_iff_reads {size : Nat} {ts : List Lexeme} {e : Tree} :
    Tree.ofTokens size ts = .ok e ↔ Reads (comparison (operand size maxDepth)) ts e [] := by
  unfold Tree.ofTokens Reads
  constructor
  · intro h
    split at h
    · cases h
    · next e' hs hm =>
        cases h
        exact ⟨hs, hm⟩
    · cases h
  · rintro ⟨hs, hm⟩
    rw [hm]

/-- A list of tokens is read as a tree exactly when it is a comparison with that tree and no more
levels than are allowed. -/
theorem ofTokens_eq_ok_iff {size : Nat} {ts : List Lexeme} {e : Tree} :
    Tree.ofTokens size ts = .ok e ↔ ∃ d ≤ maxDepth, Derives .comparison d ts e := by
  rw [ofTokens_eq_ok_iff_reads]
  constructor
  · intro h
    obtain ⟨pre, d, hts, hd, h⟩ := fronts_comparison (fronts_operand size maxDepth) h
    rw [hts, List.append_nil]
    exact ⟨d, hd, h⟩
  · rintro ⟨d, hd, h⟩
    simpa using h.isRead size maxDepth hd [] (Phrase.stopsAt_nil _)

/-- A comparison has one tree, however deep it is. -/
theorem Derives.tree_unique {d d' : Nat} {ts : List Lexeme} {e e' : Tree}
    (h : Derives .comparison d ts e) (h' : Derives .comparison d' ts e') : e' = e := by
  -- one reader has levels enough for both, and it gives one result
  have hr := h.isRead 0 (max d d') (Nat.le_max_left _ _) [] (Phrase.stopsAt_nil _)
  have hr' := h'.isRead 0 (max d d') (Nat.le_max_right _ _) [] (Phrase.stopsAt_nil _)
  obtain ⟨_, hr⟩ := hr
  obtain ⟨_, hr'⟩ := hr'
  rw [hr] at hr'
  cases hr'
  rfl

/-- A source is valid with a tree exactly when it is short enough, is made of tokens that are read
as the tree, and the tree has no variable that is not bound. -/
theorem validate_eq_ok_iff {source : String} {b : Bindings} {e : Tree} :
    validate source b = .ok e ↔ source.utf8ByteSize ≤ maxBytes ∧ ∃ ts,
      scan source.toList = .ok ts ∧ Tree.ofTokens source.utf8ByteSize ts = .ok e ∧
        e.checkBound b = .ok () := by
  unfold validate
  by_cases hlen : maxBytes < source.utf8ByteSize
  · simp [hlen, throw, throwThe, MonadExceptOf.throw, bind, Except.bind, Nat.not_le.mpr hlen]
  · simp only [hlen, if_false, bind_eq_ok_iff, Nat.not_lt.mp hlen, true_and]
    constructor
    · rintro ⟨ts, hs, e', ht, u, hb, he⟩
      cases he
      exact ⟨ts, hs, ht, hb⟩
    · rintro ⟨ts, hs, ht, hb⟩
      exact ⟨ts, hs, e, ht, (), hb, rfl⟩

/-- **The accepted language.**  A list of tokens is read as the tree `e` exactly when the grammar
derives it with at most `maxDepth` minus signs and parentheses open at one place, and `e` is then
its only tree.  A source is valid exactly when it is short enough, has tokens, these are in the
language, and every name among them is bound. -/
theorem accepts_iff_derives :
    (∀ (size : Nat) (ts : List Lexeme) (e : Tree), Tree.ofTokens size ts = .ok e ↔
      (∃ d ≤ maxDepth, Derives .comparison d ts e) ∧
        ∀ d' e', Derives .comparison d' ts e' → e' = e) ∧
    ∀ (source : String) (b : Bindings) (e : Tree), validate source b = .ok e ↔
      source.utf8ByteSize ≤ maxBytes ∧ ∃ ts, scan source.toList = .ok ts ∧
        (∃ d ≤ maxDepth, Derives .comparison d ts e) ∧
          ∀ x ∈ ts.filterMap Lexeme.name?, (b.lookup x).isSome := by
  refine ⟨fun size ts e => ?_, fun source b e => ?_⟩
  · rw [ofTokens_eq_ok_iff]
    constructor
    · rintro ⟨d, hd, h⟩
      exact ⟨⟨d, hd, h⟩, fun _ _ h' => h.tree_unique h'⟩
    · exact fun h => h.1
  · rw [validate_eq_ok_iff]
    refine and_congr_right fun _ => exists_congr fun ts => and_congr_right fun _ => ?_
    rw [ofTokens_eq_ok_iff, Tree.checkBound_eq_ok_iff]
    refine and_congr_right fun ⟨d, _, h⟩ => ?_
    rw [h.names_eq]

end SiteSafety.Formula
