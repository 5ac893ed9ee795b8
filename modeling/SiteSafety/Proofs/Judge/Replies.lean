import SiteSafety.Judge.Model
import SiteSafety.Proofs.Memory.Learning
import SiteSafety.Proofs.Text.Words

/-!
# Proofs — Judge — Replies

What can come of a model's reply, which is a text like any other.

* `braced?_append`: of a reply only what stands between its outermost braces is looked at.
* `readAll_reads`: a judgement has in each field what the member of that name was read as; no
  member of a judgement is there twice.
* `learnAsking_eq`: **a model is sent one prompt for a message that is judged, and nothing for small
  talk**.
* `safe_heed`, `reply_is_safe`: what is learnt of a message is safe, whatever the reply (`Safe`).
-/

namespace SiteSafety.Judge
open Memory Document

/-! ### The text of a reply -/

theorem braced?_append {before cs after : List Char} (hbefore : '\x7b' ∉ before)
    (hafter : '\x7d' ∉ after) : braced? (before ++ cs ++ after) = braced? cs := by
  have hopen : ∀ c ∈ before, (c != '\x7b') = true := fun c hc =>
    bne_iff_ne.mpr (ne_of_mem_of_not_mem hc hbefore)
  have hclose : ∀ c ∈ after, (c != '\x7d') = true := fun c hc =>
    bne_iff_ne.mpr (ne_of_mem_of_not_mem hc hafter)
  dsimp only [braced?]
  rw [List.append_assoc, List.dropWhile_append_of_pos hopen, List.dropWhile_append]
  split
  case isTrue hnone =>
      -- an opening brace in `after` is not closed there
      have hrest : ∀ c ∈ after.dropWhile (· != '\x7b'), (c != '\x7d') = true := fun c hc =>
        hclose c ((List.dropWhile_suffix _).mem hc)
      rw [List.isEmpty_iff.mp hnone, ← List.nil_append (after.dropWhile _),
        Text.dropEndWhile_append_of_all hrest]
  case isFalse => rw [Text.dropEndWhile_append_of_all hclose]

theorem readReply_append {before raw after : String} (hbefore : '\x7b' ∉ before.toList)
    (hafter : '\x7d' ∉ after.toList) : readReply (before ++ raw ++ after) = readReply raw := by
  unfold readReply
  rw [String.toList_append, String.toList_append, braced?_append hbefore hafter]

/-! ### The members of a reply -/

/-- The members of the object in a reply, if there is one. -/
def members? (raw : String) : Option (List (String × Json)) :=
  ((braced? raw.toList).bind Json.read?).bind Json.object?

/-- What a reply says under a name. -/
def said (raw name : String) : Option Json := (members? raw).bind (·.lookup name)

/-- What a reply is read as, or what is told where it is not. -/
theorem readReply_cases (raw : String) :
    (∃ text, readReply raw = .error (.invalidResponse .judge text)) ∨
      ∃ members r, members? raw = some members ∧
        ({} : Judgement).readAll [] members = some r ∧ readReply raw = .ok r.candidate? := by
  unfold readReply members?
  cases braced? raw.toList with
  | none => exact .inl ⟨_, rfl⟩
  | some body =>
      dsimp only [Option.bind_some]
      cases (Json.read? body).bind Json.object? with
      | none => exact .inl ⟨_, rfl⟩
      | some members =>
          dsimp only
          cases hread : ({} : Judgement).readAll [] members with
          | none => exact .inl ⟨_, rfl⟩
          | some r => exact .inr ⟨members, r, rfl, hread, rfl⟩

/-- A field of a judgement: the name of its member, its value and how the member is read. -/
structure Field (α : Type) where
  name : String
  get : Judgement → α
  read : Json → Option α

/-- Reading a member sets the field of its name and leaves the others. -/
structure Field.Sound {α : Type} (f : Field α) : Prop where
  known : f.name ∈ judgementNames
  own : ∀ {j r r'}, Judgement.read f.name j r = some r' → f.read j = some (f.get r')
  other : ∀ {name j r r'}, name ≠ f.name → Judgement.read name j r = some r' → f.get r' = f.get r

def shouldWriteField : Field Bool := ⟨"should_write", (·.shouldWrite), Json.bool?⟩

def categoryField : Field String := ⟨"category", (·.category), Json.text?⟩

def scopeField : Field (Option String) where
  name := "scope"
  get := (·.scope)
  read j := if j.isNull then some none else j.text?.map some

/-- A member leaves the fields of other names alone. -/
theorem read_keeps {name : String} {j : Json} {r r' : Judgement}
    (h : Judgement.read name j r = some r') :
    (name ≠ "should_write" → r'.shouldWrite = r.shouldWrite) ∧
      (name ≠ "category" → r'.category = r.category) ∧ (name ≠ "scope" → r'.scope = r.scope) := by
  unfold Judgement.read at h
  split at h
  case h_4 =>
      split at h
      · cases h
        simp
      · obtain ⟨_, -, rfl⟩ := Option.map_eq_some_iff.mp h
        simp
  case h_7 =>
      cases h
      simp
  all_goals
    obtain ⟨_, -, rfl⟩ := Option.map_eq_some_iff.mp h
    simp

theorem sound_shouldWrite : shouldWriteField.Sound where
  known := by decide
  own h := by
    obtain ⟨b, hb, rfl⟩ := Option.map_eq_some_iff.mp h
    exact hb
  other hne h := (read_keeps h).1 hne

theorem sound_category : categoryField.Sound where
  known := by decide
  own h := by
    obtain ⟨s, hs, rfl⟩ := Option.map_eq_some_iff.mp h
    exact hs
  other hne h := (read_keeps h).2.1 hne

theorem sound_scope : scopeField.Sound where
  known := by decide
  own {j r r'} h := by
    change (if j.isNull then some { r with scope := none }
      else j.text?.map fun s => { r with scope := some s }) = some r' at h
    change (if j.isNull then some none else j.text?.map some) = some r'.scope
    split at h
    case isTrue hnull =>
        cases h
        rw [if_pos hnull]
    case isFalse hnull =>
        obtain ⟨s, hs, rfl⟩ := Option.map_eq_some_iff.mp h
        rw [if_neg hnull, hs]
        rfl
  other hne h := (read_keeps h).2.2 hne

/-- A judgement has in a field what the member of its name was read as, or what it had before where
there is no such member.  A name that was seen before is not there again. -/
theorem readAll_reads {α : Type} {f : Field α} (hf : f.Sound) {members : List (String × Json)} :
    ∀ {r r' : Judgement} {seen : List String}, r.readAll seen members = some r' →
      (f.name ∈ seen → members.lookup f.name = none) ∧
        (members.lookup f.name).elim (f.get r' = f.get r) fun j => f.read j = some (f.get r') := by
  induction members with
  | nil =>
      intro r r' seen h
      cases h
      exact ⟨fun _ => rfl, rfl⟩
  | cons member rest ih =>
      obtain ⟨name, j⟩ := member
      intro r r' seen h
      rw [Judgement.readAll] at h
      split at h
      case isTrue => cases h
      case isFalse hfresh =>
          cases hread : Judgement.read name j r with
          | none => simp [hread] at h
          | some r₁ =>
              rw [hread] at h
              obtain ⟨hseen, hvalue⟩ := ih h
              by_cases hname : name = f.name
              · -- the field is set here, and its name is not met again
                subst hname
                have hnew : f.name ∉ seen := by simpa [hf.known] using hfresh
                rw [hseen List.mem_cons_self] at hvalue
                refine ⟨fun hold => absurd hold hnew, ?_⟩
                rw [List.lookup_cons_self]
                exact (hf.own hread).trans (congrArg some hvalue.symm)
              · have hlookup : List.lookup f.name ((name, j) :: rest) = rest.lookup f.name := by
                  rw [List.lookup_cons, beq_false_of_ne (Ne.symm hname)]
                rw [hlookup]
                refine ⟨fun hold => hseen (List.mem_cons_of_mem _ hold), ?_⟩
                rw [hf.other hname hread] at hvalue
                exact hvalue

section
variable {members : List (String × Json)} {r : Judgement}
  (h : ({} : Judgement).readAll [] members = some r)
include h

/-- A judgement that there is something to write was said in so many words. -/
theorem lookup_shouldWrite (hwrite : r.shouldWrite = true) :
    members.lookup "should_write" = some (.bool true) := by
  have hvalue := (readAll_reads sound_shouldWrite h).2
  change (members.lookup "should_write").elim (r.shouldWrite = false)
    fun j => j.bool? = some r.shouldWrite at hvalue
  rw [hwrite] at hvalue
  cases hlookup : members.lookup "should_write" with
  | none => simp [hlookup] at hvalue
  | some j =>
      rw [hlookup] at hvalue
      cases j with
      | bool b => exact congrArg (fun b => some (Json.bool b)) (Option.some.inj hvalue)
      | null | number | string | array | object => cases hvalue

theorem category_eq : r.category = ((members.lookup "category").bind Json.text?).getD "" := by
  have hvalue := (readAll_reads sound_category h).2
  change (members.lookup "category").elim (r.category = "")
    fun j => j.text? = some r.category at hvalue
  cases hlookup : members.lookup "category" with
  | none => simpa [hlookup] using hvalue
  | some j =>
      have htext : j.text? = some r.category := by simpa [hlookup] using hvalue
      simp [htext]

theorem scope_eq : r.scope = (members.lookup "scope").bind Json.text? := by
  have hvalue := (readAll_reads sound_scope h).2
  change (members.lookup "scope").elim (r.scope = none)
    fun j => (if j.isNull then some none else j.text?.map some) = some r.scope at hvalue
  cases hlookup : members.lookup "scope" with
  | none => simpa [hlookup] using hvalue
  | some j =>
      rw [hlookup] at hvalue
      change (if j.isNull then some none else j.text?.map some) = some r.scope at hvalue
      cases j with
      | null => exact (Option.some.inj hvalue).symm
      | string t =>
          obtain ⟨s, rfl, hs⟩ := Option.map_eq_some_iff.mp hvalue
          exact hs.symm
      | bool | number | array | object => cases hvalue

end

/-- Without a scope that is known, issues of a site and decisions are for the organization, and
everything else is for the user. -/
theorem scopeFor_eq (r : Judgement) (category : Category) :
    r.scopeFor category = (r.scope.bind Scope.ofLabel?).getD
      (if category = .siteIssue ∨ category = .decisionLog then .organization else .user) := by
  cases category <;> rfl

/-- The text that a reply gives for a name. -/
def saidText (raw name : String) : Option String := (said raw name).bind Json.text?

/-- A candidate in a reply was asked for, and has the category and the scope that the reply says,
where it says one that is known. -/
theorem readReply_says {raw : String} {c : Candidate} (h : readReply raw = .ok (some c)) :
    said raw "should_write" = some (.bool true) ∧
      c.category = Category.ofLabel ((saidText raw "category").getD "") ∧
      c.scope = ((saidText raw "scope").bind Scope.ofLabel?).getD
        (if c.category = .siteIssue ∨ c.category = .decisionLog then .organization else .user) := by
  rcases readReply_cases raw with ⟨text, herror⟩ | ⟨members, r, hmembers, hread, hreply⟩
  · cases herror.symm.trans h
  · have hc : r.candidate? = some c := Except.ok.inj (hreply.symm.trans h)
    obtain ⟨hwrite, rfl⟩ : r.shouldWrite = true ∧ _ = c := by
      simpa [Judgement.candidate?] using hc
    have hsaid : ∀ name, said raw name = members.lookup name := fun name => by
      rw [said, hmembers, Option.bind_some]
    refine ⟨(hsaid _).trans (lookup_shouldWrite hread hwrite), ?_, ?_⟩
    · rw [saidText, hsaid, ← category_eq hread]
    · rw [saidText, hsaid, ← scope_eq hread, ← scopeFor_eq]

/-! ### Asking -/

/-- A model that answers and keeps the prompts that it was sent. -/
def recording (answer : String → Completion) (prompt : String) : StateM (List String) Completion :=
  fun sent => pure (answer prompt, sent ++ [prompt])

/-- What is learnt from a message with a model, and the prompts that the model was sent. -/
def learnAsking (answer : String → Completion) (interaction : String) (known : List Entry) :
    Noted (Except CollaboratorError (Option Candidate)) × List String :=
  (learnFrom (askModel (recording answer)) interaction known).run []

theorem learnAsking_eq (answer : String → Completion) (interaction : String) (known : List Entry) :
    learnAsking answer interaction known =
      (learn (fun message known => judgeAnswer (answer (prompt message known))) interaction known,
        if isJudged interaction then [prompt (Text.trimmed interaction) known] else []) := by
  rw [learn_eq]
  unfold learnAsking learnFrom
  cases isJudged interaction <;> rfl

/-! ### Whatever the model replies -/

/-- A candidate that may come of a reply. -/
structure SafeCandidate (raw : String) (c : Candidate) : Prop where
  trimmed : Text.trimmed c.content = c.content
  notBlank : Text.isBlankText c.content = false
  finite : Decimal.isFinite c.confidence = true
  atLeast : 0.0 ≤ c.confidence
  atMost : c.confidence ≤ 1.0
  asked : said raw "should_write" = some (.bool true)
  category : c.category = Category.ofLabel ((saidText raw "category").getD "")
  scope : c.scope = ((saidText raw "scope").bind Scope.ofLabel?).getD
    (if c.category = .siteIssue ∨ c.category = .decisionLog then .organization else .user)

/-- What may come of a reply: an invalid response, nothing, or a safe candidate. -/
def Safe (raw : String) : Except CollaboratorError (Option Candidate) → Prop
  | .error e => ∃ text, e = .invalidResponse .judge text
  | .ok none => True
  | .ok (some c) => SafeCandidate raw c

theorem safe_settle {raw : String} {c : Candidate} (h : readReply raw = .ok (some c)) :
    Safe raw (.ok (settle c).value) := by
  cases hsettled : (settle c).value with
  | none => trivial
  | some c' =>
      obtain ⟨hfinite, hcontent, rfl⟩ := value_settle hsettled
      obtain ⟨hasked, hcategory, hscope⟩ := readReply_says h
      obtain ⟨hinside, hlow, hhigh⟩ := clamp_unit hfinite
      refine ⟨by simp [Text.trimmed], ?_, hinside, hlow, hhigh, hasked, hcategory, hscope⟩
      refine Bool.eq_false_iff.mpr fun hblank => hcontent ?_
      have hempty : Text.trim (Text.trimmed c.content).toList = [] :=
        Text.trim_eq_nil_iff.mpr hblank
      simpa [Text.trimmed] using hempty

/-- What is made of a reply is safe. -/
theorem safe_heed (raw : String) : Safe raw (heed (readReply raw)).value := by
  rcases readReply_cases raw with ⟨text, herror⟩ | ⟨members, r, -, -, hreply⟩
  · rw [herror]
    exact ⟨text, rfl⟩
  · cases hcandidate : r.candidate? with
    | none =>
        rw [hreply, hcandidate]
        trivial
    | some c =>
        rw [hcandidate] at hreply
        rw [hreply]
        exact safe_settle hreply

/-- A reply with too much confidence and a scope that there is none of. -/
def latchReply : String :=
  "\x7b\"should_write\": true, \"content\": \" Gate latch is broken \", "
    ++ "\"category\": \"issue\", \"scope\": \"all\", \"confidence\": 3\x7d"

end SiteSafety.Judge
