/-!
Named numeric fields.

A set of shop constants is a structure, and some rules speak of its fields by name: a settings file
lists them in order, a check names the first one out of range.  A `Field` is a name together with
a way to read and to replace the value.
-/

namespace SpacerTurning

/-- A named part of `σ` that holds an `α`. -/
structure Field (σ α : Type) where
  name : String
  get : σ → α
  set : α → σ → σ

/-- Reading a field gives what was put there. -/
def Field.Lawful {σ α : Type} (f : Field σ α) : Prop := ∀ v s, f.get (f.set v s) = v

end SpacerTurning
