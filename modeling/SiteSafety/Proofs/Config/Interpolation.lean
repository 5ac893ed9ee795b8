import Mathlib.Data.List.TakeWhile
import SiteSafety.Proofs.Config.Layers

/-!
# Proofs — Config — Interpolation

How variables are put into the text of a settings file.  A text is taken apart from left to right
into plain pieces and places for variables (`Template.read`), and there is no other way to take it
apart (`read_text`).

* `interpolate_place`: a place is filled with the value of its variable as it stands, and what is
  looked at next is the text behind the place.
* `interpolate_text`: **what comes out are the plain pieces with the values between them**, unless
  some place cannot be filled, and then the first such place is told.
* `interpolate_single_pass`: both of this for every text, with the cases spelled out.
* `load_of_problem`: a place that cannot be filled is told before anything else that is wrong with
  the configuration.
-/

namespace SiteSafety.Config

variable {env : Environment}

/-! ### Templates -/

/-- What stands in front of the name of a variable. -/
def opening : List Char := ['$', '\x7b']

/-- A text as it is read: plain to its end, or plain up to the first place for a variable, which
has no end or has the rest of the text behind it. -/
inductive Template where
  | plain (piece : List Char)
  | unclosed (piece name : List Char)
  | place (piece name : List Char) (rest : Template)
  deriving Repr, DecidableEq

namespace Template

def text : Template → List Char
  | .plain piece => piece
  | .unclosed piece name => piece ++ opening ++ name
  | .place piece name rest => piece ++ opening ++ name ++ '\x7d' :: rest.text

/-- No place begins in a piece, and none ends in a name. -/
def IsProper : Template → Prop
  | .plain piece => ¬ opening <:+: piece
  | .unclosed piece name => ¬ opening <:+: piece ∧ '\x7d' ∉ name
  | .place piece name rest => ¬ opening <:+: piece ∧ '\x7d' ∉ name ∧ rest.IsProper

/-- The variables that are asked for, in the order of the text. -/
def names : Template → List String
  | .plain _ | .unclosed _ _ => []
  | .place _ name rest => String.ofList name :: rest.names

/-- What is wrong with the places, in the order of the text. -/
def problems (env : Environment) : Template → List ConfigError
  | .plain _ => []
  | .unclosed _ _ => [.unterminated]
  | .place _ name rest =>
    match env.lookup (String.ofList name) with
    | some _ => rest.problems env
    | none => .missingVariable (String.ofList name) :: rest.problems env

/-- The pieces with the values of the variables between them. -/
def filled (env : Environment) : Template → List Char
  | .plain piece | .unclosed piece _ => piece
  | .place piece name rest =>
    piece ++ ((env.lookup (String.ofList name)).getD "").toList ++ rest.filled env

/-- What a template comes to: filled, or the first of its problems. -/
def outcome (env : Environment) (t : Template) : Except ConfigError (List Char) :=
  match t.problems env with
  | [] => .ok (t.filled env)
  | problem :: _ => .error problem

/-- A template with more text in front of its first piece. -/
def prepend (front : List Char) : Template → Template
  | .plain piece => .plain (front ++ piece)
  | .unclosed piece name => .unclosed (front ++ piece) name
  | .place piece name rest => .place (front ++ piece) name rest

/-- Takes a text apart. -/
def read : List Char → Template
  | [] => .plain []
  | '$' :: '\x7b' :: rest =>
    let name := rest.takeWhile (· != '\x7d')
    let after := rest.dropWhile (· != '\x7d')
    if after.isEmpty then .unclosed [] name else .place [] name (read (after.drop 1))
  | c :: rest => (read rest).prepend [c]
termination_by cs => cs.length
decreasing_by
  · have := (List.dropWhile_suffix (· != '\x7d') (l := rest)).length_le
    simp only [List.length_drop, List.length_cons]
    omega
  · simp

end Template

/-! ### Pieces and names -/

section
variable {c : Char} {piece name : List Char}

theorem not_opening_of_cons (h : ¬ opening <:+: c :: piece) : ¬ opening <:+: piece :=
  fun hopen => h (hopen.trans (List.suffix_cons c piece).isInfix)

/-- Where a piece ends and a place begins, no place begins before. -/
theorem not_opening_append (h : ¬ opening <:+: c :: piece) (cs : List Char) :
    ¬ opening <+: c :: (piece ++ opening ++ cs) := by
  intro hopen
  cases piece with
  | nil => simp [opening, List.cons_prefix_cons] at hopen
  | cons d piece =>
      refine h (List.IsPrefix.isInfix ?_)
      simpa [opening, List.cons_prefix_cons] using hopen

theorem bne_of_mem (h : '\x7d' ∉ name) : ∀ d ∈ name, (d != '\x7d') = true :=
  fun _ hd => bne_iff_ne.mpr (ne_of_mem_of_not_mem hd h)

theorem takeWhile_name (h : '\x7d' ∉ name) (cs : List Char) :
    (name ++ '\x7d' :: cs).takeWhile (· != '\x7d') = name := by
  rw [List.takeWhile_append_of_pos (bne_of_mem h)]
  simp

theorem dropWhile_name (h : '\x7d' ∉ name) (cs : List Char) :
    (name ++ '\x7d' :: cs).dropWhile (· != '\x7d') = '\x7d' :: cs := by
  rw [List.dropWhile_append_of_pos (bne_of_mem h)]
  simp

theorem not_mem_name (cs : List Char) : '\x7d' ∉ cs.takeWhile (· != '\x7d') :=
  fun h => by simpa using List.mem_takeWhile_imp h

/-- What is left behind a name begins with the brace that closes it. -/
theorem close_drop {cs : List Char} (h : cs.dropWhile (· != '\x7d') ≠ []) :
    '\x7d' :: (cs.dropWhile (· != '\x7d')).drop 1 = cs.dropWhile (· != '\x7d') := by
  have hhead := List.head_dropWhile_not (· != '\x7d') h
  rw [bne_eq_false_iff_eq] at hhead
  conv_rhs => rw [← List.cons_head_tail h, hhead]
  rw [List.drop_one]

end

/-! ### Taking a text apart -/

namespace Template

variable {c : Char} {cs front piece name : List Char} {t : Template}

theorem text_prepend : (t.prepend front).text = front ++ t.text := by
  cases t <;> simp [prepend, text]

theorem prepend_prepend (c : Char) : (t.prepend front).prepend [c] = t.prepend (c :: front) := by
  cases t <;> rfl

theorem read_cons (h : ¬ opening <+: c :: cs) : read (c :: cs) = (read cs).prepend [c] := by
  rw [read]
  rintro rest rfl rfl
  exact h (List.prefix_append opening rest)

theorem read_place (h : '\x7d' ∉ name) (cs : List Char) :
    read (opening ++ name ++ '\x7d' :: cs) = .place [] name (read cs) := by
  rw [List.append_assoc, opening, List.cons_append, List.cons_append, List.nil_append, read,
    takeWhile_name h, dropWhile_name h]
  rfl

theorem read_unclosed (h : '\x7d' ∉ name) : read (opening ++ name) = .unclosed [] name := by
  rw [opening, List.cons_append, List.cons_append, List.nil_append, read,
    List.takeWhile_eq_self_iff.mpr (bne_of_mem h), List.dropWhile_eq_nil_iff.mpr (bne_of_mem h)]
  rfl

theorem read_plain (h : ¬ opening <:+: piece) : read piece = .plain piece := by
  induction piece with
  | nil => rw [read]
  | cons c piece ih =>
      rw [read_cons fun hopen => h hopen.isInfix, ih (not_opening_of_cons h)]
      rfl

theorem read_append (h : ¬ opening <:+: piece) (cs : List Char) :
    read (piece ++ opening ++ cs) = (read (opening ++ cs)).prepend piece := by
  induction piece with
  | nil => cases hread : read (opening ++ cs) <;> simp [prepend, hread]
  | cons c piece ih =>
      rw [List.cons_append, List.cons_append, read_cons (not_opening_append h cs),
        ih (not_opening_of_cons h), prepend_prepend]

/-- **A text is taken apart in one way only.** -/
theorem read_text (h : t.IsProper) : read t.text = t := by
  induction t with
  | plain piece => exact read_plain h
  | unclosed piece name =>
      obtain ⟨hpiece, hname⟩ := h
      rw [text, read_append hpiece, read_unclosed hname]
      simp [prepend]
  | place piece name rest ih =>
      obtain ⟨hpiece, hname, hrest⟩ := h
      rw [text, List.append_assoc, read_append hpiece, ← List.append_assoc, read_place hname,
        ih hrest]
      simp [prepend]

theorem isProper_prepend (h : ¬ opening <+: c :: t.text) (ht : t.IsProper) :
    (t.prepend [c]).IsProper := by
  have hpiece : ∀ piece : List Char, ¬ opening <:+: piece → piece <+: t.text →
      ¬ opening <:+: c :: piece := by
    intro piece hplain hpiece hopen
    rcases List.infix_cons_iff.mp hopen with hopen | hopen
    · exact h (hopen.trans (List.cons_prefix_cons.mpr ⟨rfl, hpiece⟩))
    · exact hplain hopen
  cases t with
  | plain piece => exact hpiece piece ht List.prefix_rfl
  | unclosed piece name =>
      exact ⟨hpiece piece ht.1 (by simp [text]), ht.2⟩
  | place piece name rest =>
      exact ⟨hpiece piece ht.1 (by simp [text]), ht.2⟩

/-- Every text is taken apart properly. -/
theorem read_sound (cs : List Char) : (read cs).IsProper ∧ (read cs).text = cs := by
  fun_induction read cs with
  | case1 => exact ⟨by simp [IsProper, opening], rfl⟩
  | case2 rest name after hend =>
      have hname : name = rest := by
        simpa [name, after, List.dropWhile_eq_nil_iff, List.takeWhile_eq_self_iff] using hend
      refine ⟨⟨by simp [opening], not_mem_name rest⟩, ?_⟩
      rw [hname]
      rfl
  | case3 rest name after hend ih =>
      have hafter : '\x7d' :: after.drop 1 = after :=
        close_drop fun hnil => hend (List.isEmpty_iff.mpr hnil)
      refine ⟨⟨by simp [opening], not_mem_name rest, ih.1⟩, ?_⟩
      rw [text, ih.2, hafter, List.nil_append, List.append_assoc, List.takeWhile_append_dropWhile]
      rfl
  | case4 c rest hopen ih =>
      have hplain : ¬ opening <+: c :: rest := by
        rintro ⟨tail, htail⟩
        obtain ⟨rfl, rfl⟩ := List.cons_eq_cons.mp htail
        exact hopen tail rfl rfl
      rw [← ih.2] at hplain
      exact ⟨isProper_prepend hplain ih.1, by rw [text_prepend, ih.2]; rfl⟩

end Template

/-! ### Filling -/

open Template

variable {c : Char} {cs piece name : List Char}

theorem interpolate_cons (h : ¬ opening <+: c :: cs) :
    env.interpolate (c :: cs) = (env.interpolate cs).map (c :: ·) := by
  rw [Environment.interpolate]
  rintro rest rfl rfl
  exact h (List.prefix_append opening rest)

theorem interpolate_append (h : ¬ opening <:+: piece) (cs : List Char) :
    env.interpolate (piece ++ opening ++ cs) =
      (env.interpolate (opening ++ cs)).map (piece ++ ·) := by
  induction piece with
  | nil => cases hrest : env.interpolate (opening ++ cs) <;> simp [Except.map, hrest]
  | cons c piece ih =>
      rw [List.cons_append, List.cons_append, interpolate_cons (not_opening_append h cs),
        ih (not_opening_of_cons h)]
      cases env.interpolate (opening ++ cs) <;> rfl

/-- A place is filled with the value of its variable as it stands, and what is looked at next is the
text behind the place. -/
theorem interpolate_place (hpiece : ¬ opening <:+: piece) (hname : '\x7d' ∉ name)
    (cs : List Char) :
    env.interpolate (piece ++ opening ++ name ++ '\x7d' :: cs) =
      match env.lookup (String.ofList name) with
      | some value => (env.interpolate cs).map fun rest => piece ++ value.toList ++ rest
      | none => .error (.missingVariable (String.ofList name)) := by
  have hplace : env.interpolate (opening ++ (name ++ '\x7d' :: cs)) =
      match env.lookup (String.ofList name) with
      | some value => (env.interpolate cs).map (value.toList ++ ·)
      | none => .error (.missingVariable (String.ofList name)) := by
    rw [opening, List.cons_append, List.cons_append, List.nil_append, Environment.interpolate,
      takeWhile_name hname, dropWhile_name hname]
    cases env.lookup (String.ofList name) <;> rfl
  rw [List.append_assoc, interpolate_append hpiece, hplace]
  cases env.lookup (String.ofList name) with
  | none => rfl
  | some value => cases env.interpolate cs <;> simp [Except.map]

/-- A place without an end cannot be filled. -/
theorem interpolate_unclosed (hpiece : ¬ opening <:+: piece) (hname : '\x7d' ∉ name) :
    env.interpolate (piece ++ opening ++ name) = .error .unterminated := by
  have hplace : env.interpolate (opening ++ name) = .error .unterminated := by
    rw [opening, List.cons_append, List.cons_append, List.nil_append, Environment.interpolate,
      List.dropWhile_eq_nil_iff.mpr (bne_of_mem hname)]
    rfl
  rw [interpolate_append hpiece, hplace]
  rfl

/-- **A text comes to its pieces with the values between them, or to the first of its problems.** -/
theorem interpolate_text {t : Template} (h : t.IsProper) :
    env.interpolate t.text = t.outcome env := by
  induction t with
  | plain piece => exact interpolate_of_plain h
  | unclosed piece name => exact interpolate_unclosed h.1 h.2
  | place piece name rest ih =>
      obtain ⟨hpiece, hname, hrest⟩ := h
      rw [text, interpolate_place hpiece hname, ih hrest]
      cases hvalue : env.lookup (String.ofList name) with
      | none => simp [outcome, problems, hvalue]
      | some value =>
          simp only [outcome, problems, hvalue]
          cases rest.problems env <;> simp [Except.map, filled, hvalue]

/-- **Variables are put in by a single pass from left to right.**  A text in which no place begins
is left as it is.  Up to its first place a text is kept; the place is filled with the value of its
variable, of which nothing is looked at, and the text behind the place is gone through in the same
way, but a variable that is not there is an error, and so is a place without an end.  Every text is
taken apart into pieces and places in just one way, and comes to its pieces with the values between
them, or to the first of its problems in the order of the text. -/
theorem interpolate_single_pass (env : Environment) :
    (∀ piece, ¬ opening <:+: piece → env.interpolate piece = .ok piece) ∧
    (∀ piece name cs, ¬ opening <:+: piece → '\x7d' ∉ name →
      env.interpolate (piece ++ opening ++ name ++ '\x7d' :: cs) =
        match env.lookup (String.ofList name) with
        | some value => (env.interpolate cs).map fun rest => piece ++ value.toList ++ rest
        | none => .error (.missingVariable (String.ofList name))) ∧
    (∀ piece cs, ¬ opening <:+: piece → '\x7d' ∉ cs →
      env.interpolate (piece ++ opening ++ cs) = .error .unterminated) ∧
    ∀ cs, ∃ t : Template, (t.IsProper ∧ t.text = cs) ∧
      (∀ t' : Template, t'.IsProper → t'.text = cs → t' = t) ∧
      env.interpolate cs =
        match t.problems env with
        | [] => .ok (t.filled env)
        | problem :: _ => .error problem := by
  refine ⟨fun _ => interpolate_of_plain, fun _ _ cs hpiece hname =>
    interpolate_place hpiece hname cs, fun _ _ => interpolate_unclosed, fun cs => ?_⟩
  obtain ⟨hproper, htext⟩ := read_sound cs
  refine ⟨Template.read cs, ⟨hproper, htext⟩, fun t ht hcs => ?_, ?_⟩
  · rw [← hcs, read_text ht]
  · conv_lhs => rw [← htext]
    exact interpolate_text hproper

/-- A key whose text would ask for a variable if it were looked at again. -/
def nestedVariables : Environment := [("KEY", "nvapi-$\x7bMODEL\x7d"), ("MODEL", "llama")]

/-- A value that asks for a variable itself is put in as it is; the place behind it is filled. -/
theorem value_is_kept :
    nestedVariables.interpolate "k = '$\x7bKEY\x7d' # $\x7bMODEL\x7d.".toList =
      .ok "k = 'nvapi-$\x7bMODEL\x7d' # llama.".toList := by
  obtain ⟨hplain, hplace, -, -⟩ := interpolate_single_pass nestedVariables
  have hrest : nestedVariables.interpolate "' # $\x7bMODEL\x7d.".toList =
      .ok "' # llama.".toList := by
    refine (hplace "' # ".toList "MODEL".toList ".".toList (by decide) (by decide)).trans ?_
    rw [hplain _ (by decide)]
    rfl
  refine (hplace "k = '".toList "KEY".toList "' # $\x7bMODEL\x7d.".toList (by decide)
    (by decide)).trans ?_
  rw [hrest]
  rfl

/-! ### Loading -/

/-- A place that cannot be filled is told before anything else that is wrong with the configuration:
with the document, with the variables of the fields or with what is merged of them. -/
theorem load_of_problem {tree : Files.Tree} {o : Options} {path text : String}
    {problem : ConfigError} {problems : List ConfigError} (hpath : o.file? tree = some path)
    (htext : tree.readText path = .ok text)
    (h : (Template.read text.toList).problems env = problem :: problems) :
    load o tree env = .error problem := by
  obtain ⟨hproper, hread⟩ := read_sound text.toList
  have hfilled : env.interpolate text.toList = .error problem := by
    rw [← hread, interpolate_text hproper, outcome, h]
  simp only [load, fileLayer, readFile, hpath, htext, hfilled]

end SiteSafety.Config
