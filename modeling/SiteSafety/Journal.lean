/-!
# Journal

What the parts of the program tell about their work.  A noted computation is its value together
with the notes it made, in order.  **Notes never influence a value.**
-/

namespace SiteSafety

inductive Level where
  | debug | info | warn
  deriving Repr, DecidableEq

/-- The part of the program that makes a note. -/
inductive Speaker where
  | memory | logbook | audit | check | retrieval | weather
  deriving Repr, DecidableEq

/-- A note: what happened under which name, and the fields that tell more. -/
structure Note where
  level : Level
  speaker : Speaker
  event : String
  message : String
  fields : List (String × String) := []
  deriving Repr, DecidableEq

/-- A value and the notes that were made on the way to it. -/
structure Noted (α : Type) where
  value : α
  notes : List Note := []

instance : Monad Noted where
  pure a := ⟨a, []⟩
  bind x f := ⟨(f x.value).value, x.notes ++ (f x.value).notes⟩

/-- Makes one note. -/
def note (n : Note) : Noted Unit := ⟨(), [n]⟩

@[simp] theorem value_pure {α : Type} (a : α) : (pure a : Noted α).value = a := rfl

@[simp] theorem notes_pure {α : Type} (a : α) : (pure a : Noted α).notes = [] := rfl

@[simp] theorem value_bind {α β : Type} (x : Noted α) (f : α → Noted β) :
    (x >>= f).value = (f x.value).value := rfl

@[simp] theorem notes_bind {α β : Type} (x : Noted α) (f : α → Noted β) :
    (x >>= f).notes = x.notes ++ (f x.value).notes := rfl

@[simp] theorem value_note (n : Note) : (note n).value = () := rfl

@[simp] theorem notes_note (n : Note) : (note n).notes = [n] := rfl

/-- Computations in a row may be grouped as one likes. -/
instance : LawfulMonad Noted := LawfulMonad.mk' Noted
  (fun x => by simp [Functor.map])
  (fun x f => by simp [bind, pure])
  (fun x f g => by simp [bind, List.append_assoc])

end SiteSafety
