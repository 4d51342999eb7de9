import SpacerTurning.Part.Refusal
import SpacerTurning.Shop.Constants

/-!
Boring plans.

A bore is opened from the pilot drill to its target by a list of passes, none of which widens it by
more than the largest step.  A plan starts at the safe entry diameter; a plan for a counterbore goes
on from the holder below it, and a continuation goes on from a bore that is already there.

The step between two passes is rounded to the precision of a program word, and one that is rounded
away never gets to the target.  A plan with such a step has no end.
-/

namespace SpacerTurning

open Number

/-- What a pass is for. -/
inductive PassKind where
  | rough
  | finish
  /-- Breaks the edge at the mouth of the bore, at 45 degrees. -/
  | chamfer
deriving DecidableEq, Repr

def PassKind.name : PassKind → String
  | .rough => "rough"
  | .finish => "finish"
  | .chamfer => "chamfer"

/-- One pass of the boring bar. -/
structure Pass (α : Type) where
  diameter : α
  /-- Height of its bottom, at or below the face. -/
  z : α
  kind : PassKind
deriving Repr, DecidableEq

namespace Pass

variable {α : Type}

def isChamfer (p : Pass α) : Bool := p.kind = .chamfer

/-- A pass, at the precision of a program word. -/
def mk4 [Scalar α] (diameter z : α) (kind : PassKind) : Pass α :=
  { diameter := Scalar.round4 diameter, z := Scalar.round4 z, kind }

/-- The diameters that are bored through, in cutting order. -/
def diameters (passes : List (Pass α)) : List α :=
  (passes.filter fun p => !p.isChamfer).map (·.diameter)

end Pass

/-- A counterbored bore: the holder at full depth, then the shelf above it. -/
structure TwoZonePlan (α : Type) where
  inner : List (Pass α)
  shelf : List (Pass α)
deriving Repr, DecidableEq

def TwoZonePlan.passes {α : Type} (plan : TwoZonePlan α) : List (Pass α) := plan.inner ++ plan.shelf

namespace Boring

variable {α : Type} [Scalar α]

/-- Diameters this close count as equal. -/
def epsilon : α := 0.000001

/-- The roughing diameters after `current`, each a step wider than the one before, as long as they
stay under the target.  There are none where the fuel runs out before the target is reached. -/
def roughing (step target : α) : Nat → α → Option (List α)
  | 0, _ => none
  | fuel + 1, current =>
    let next := Scalar.round4 (current + step)
    if next ≥ target - epsilon then some []
    else (roughing step target fuel next).map (next :: ·)

/-- Fuel for as many turns as there are diameters with four decimal places on the way.  A run that
takes more does not get on, and has no end. -/
def roughingFuel (target current : α) : Nat :=
  (Scalar.wholePart ((target - current) * 10000)).toNat + 2

/-- The roughing diameters on the way from one diameter to another. -/
def roughDiameters (c : CuttingConstants α) (start target : α) : Except (Refusal α) (List α) :=
  let target := Scalar.round4 target
  let start := Scalar.round4 start
  match roughing c.maxBoreStep target (roughingFuel target start) start with
  | some ds => .ok ds
  | none => .error .endless

/-- The passes that open a bore from one diameter to another: roughing passes, a pass just under
the target if it is still ahead, the chamfer if there is to be one, and the finishing pass. -/
def opening (c : CuttingConstants α) (start target z : α) (chamfer : Bool) :
    Except (Refusal α) (List (Pass α)) := do
  let rough ← roughDiameters c start target
  let target := Scalar.round4 target
  let reached := rough.getLastD (Scalar.round4 start)
  let preFinish := Scalar.round4 (target - c.preFinishOffset)
  return rough.map (Pass.mk4 · z .rough)
    ++ (if preFinish > reached + epsilon then [Pass.mk4 preFinish z .rough] else [])
    ++ (if chamfer then
          [Pass.mk4 (target + 2.0 * c.chamferDepth) (-c.chamferDepth) .chamfer]
        else [])
    ++ [Pass.mk4 target z .finish]

/-- A diameter that a plan from the pilot drill can end at. -/
def checkTarget (c : CuttingConstants α) (dimension : Dimension) (diameter : α) :
    Except (Refusal α) Unit := do
  demand (Scalar.isFinite diameter && !decide (diameter ≤ c.safeEntryDiameter))
    (.invalid dimension (.notAboveEntry diameter c.safeEntryDiameter))
  demand (!decide (diameter > c.maxBoreDiameter))
    (.invalid dimension (.beyondReach diameter c.maxBoreDiameter))

/-- A height below the face. -/
def checkDepth (dimension : Dimension) (depth : α) : Except (Refusal α) Unit :=
  demand (Scalar.isFinite depth && !decide (depth ≥ 0)) (.invalid dimension (.notNegative depth))

def plan (c : CuttingConstants α) (target drillDepth : α) (chamfer : Bool) :
    Except (Refusal α) (List (Pass α)) := do
  checkTarget c .targetDiameter target
  checkDepth .drillDepth drillDepth
  let opened ← opening c c.safeEntryDiameter target drillDepth chamfer
  return Pass.mk4 c.safeEntryDiameter drillDepth .rough :: opened

/-- The plan for a counterbored bore.  The chamfer, if any, goes on the counterbore. -/
def twoZonePlan (c : CuttingConstants α) (holder counterbore drillDepth stepDepth : α)
    (chamfer : Bool) : Except (Refusal α) (TwoZonePlan α) := do
  checkTarget c .holderDiameter holder
  checkTarget c .counterboreDiameter counterbore
  checkDepth .drillDepth drillDepth
  demand (!decide (counterbore ≤ holder + epsilon))
    (.invalid .counterboreDiameter (.shelfNotWider counterbore holder))
  demand (!decide (stepDepth ≤ 0) && !decide (-stepDepth ≤ drillDepth))
    (.invalid .stepDepth (.shelfNotAboveDrill stepDepth drillDepth))
  let inner ← plan c holder drillDepth false
  let shelf ← opening c holder counterbore (-stepDepth) chamfer
  return { inner, shelf }

/-- The passes that go on from a bore that is there, without that bore itself. -/
def continuation (c : CuttingConstants α) (start target z : α) (chamfer : Bool) :
    Except (Refusal α) (List (Pass α)) := do
  checkDepth .z z
  demand (Scalar.isFinite start && !decide (target ≤ start + epsilon)
      && !decide (target > c.maxBoreDiameter))
    (.invalid .targetDiameter (.notWithinReach target start c.maxBoreDiameter))
  opening c start target z chamfer

end Boring
end SpacerTurning
