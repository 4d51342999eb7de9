import SpacerTurning.Part.Refusal

/-!
Drilling and profile depths.

The shop keeps a table of depths by thickness.  A thickness that has no row is computed from a
formula instead.  Depths are heights below the face, and so negative.
-/

namespace SpacerTurning

open Number

/-- How deep the first side is drilled and its outside is turned. -/
structure Depths (α : Type) where
  drill : α
  profile : α
deriving Repr, DecidableEq

/-- Where depths were found. -/
inductive DepthSource where
  | table
  | formula
deriving DecidableEq, Repr

namespace Depths

variable {α : Type} [Scalar α]

/-- The rows of the depth table: a key, the drill depth and the profile depth. -/
def table : List (String × Depths α) :=
  [("10MM", ⟨-0.54, -0.1⟩),
   ("11MM", ⟨-0.58, -0.1⟩),
   ("12MM", ⟨-0.62, -0.1⟩),
   ("13MM", ⟨-0.66, -0.1⟩),
   ("14MM", ⟨-0.7, -0.1⟩),
   ("15MM", ⟨-0.74, -0.1⟩),
   ("16MM", ⟨-0.78, -0.1⟩),
   ("17MM", ⟨-0.82, -0.1⟩),
   ("18MM", ⟨-0.86, -0.1⟩),
   ("19MM", ⟨-0.9, -0.1⟩),
   ("20MM", ⟨-0.94, -0.39⟩),
   ("25MM", ⟨-1.13, -0.49⟩),
   ("30MM", ⟨-1.33, -0.62⟩),
   ("0.50", ⟨-0.65, -0.1⟩),
   ("0.75", ⟨-0.9, -0.1⟩),
   ("1.00", ⟨-1.15, -0.5⟩),
   ("1.25", ⟨-1.4, -0.656⟩),
   ("1.50", ⟨-1.65, -0.788⟩),
   ("1.75", ⟨-1.9, -0.919⟩),
   ("2.00", ⟨-2.15, -1.05⟩),
   ("2.25", ⟨-2.4, -1.181⟩),
   ("2.50", ⟨-2.65, -1.312⟩),
   ("2.75", ⟨-2.9, -1.444⟩),
   ("3.00", ⟨-3.15, -1.575⟩),
   ("3.25", ⟨-3.4, -1.706⟩),
   ("3.50", ⟨-3.65, -1.838⟩),
   ("3.75", ⟨-3.9, -1.969⟩),
   ("4.00", ⟨-4.15, -2.1⟩)]

def row? (key : String) : Option (Depths α) := table.lookup key

/-- The depths for a thickness without a row.  The drill goes through by `breakthrough`; the
profile is turned to half way, roughly, except on thin parts. -/
def formula (thickness breakthrough : α) : Depths α where
  drill := -(thickness + breakthrough)
  profile :=
    if thickness ≤ 0.75 then -0.10
    else if thickness ≤ 1.0 then -(thickness * 0.5)
    else -(thickness * 0.525)

/-- How far the formula drills through where nothing else is said. -/
def defaultBreakthrough : α := 0.15

/-- The depths for a key: its row, or else the formula on the given thickness, or on the thickness
that the key itself stands for. -/
def lookup (key : String) (thickness : Option α) (breakthrough : α) :
    Except (Refusal α) (Depths α × DepthSource) :=
  match row? key with
  | some depths => .ok (depths, .table)
  | none =>
    let known := match thickness with
      | some t => some t
      | none => (Thickness.read key).toOption.map fun t : Thickness α => t.inches
    match known.filter isLength with
    | some t => .ok (formula t breakthrough, .formula)
    | none => .error (.missing .depths key)

/-- The depths for a thickness.  There are always some. -/
def ofThickness (t : Thickness α) : Depths α :=
  match lookup t.key (some t.inches) defaultBreakthrough with
  | .ok (depths, _) => depths
  | .error _ => formula t.inches defaultBreakthrough

end Depths
end SpacerTurning
