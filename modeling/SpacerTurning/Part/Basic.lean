import SpacerTurning.Part.Refusal
import SpacerTurning.Part.Spacer

/-!
Parts.

A `Part` is a spacer with all its dimensions: what a program is made from.  Its variant carries the
dimensions that only some kinds have.  `Part.check` is the list of conditions under which a program
can be made at all.
-/

namespace SpacerTurning

open Number

/-- A raised hub on the second side. -/
structure Hub (α : Type) where
  /-- Nominal diameter, in millimetres. -/
  nominalMm : α
  /-- Diameter with the fit taken off, in millimetres. -/
  fittedMm : α
  /-- Diameter with the fit taken off. -/
  diameter : α
  /-- Height above the body. -/
  height : α
deriving Repr, DecidableEq

/-- A counterbored zone on the first side: the shelf of a step or the recess of a lug. -/
structure Counterbore (α : Type) where
  /-- Diameter, in millimetres. -/
  nominalMm : α
  diameter : α
  /-- Depth below the face. -/
  depth : α
deriving Repr, DecidableEq

/-- The kind of a spacer with the dimensions that belong to it. -/
inductive Variant (α : Type) where
  | standard
  | hubCentric (hub : Hub α)
  | thinLip (hub : Hub α)
  | step (shelf : Counterbore α)
  | steelRing
  | twoPieceLug (recess : Counterbore α)
  | twoPieceStud (hub : Hub α)
deriving Repr, DecidableEq

namespace Variant

variable {α : Type}

def kind : Variant α → SpacerKind
  | .standard => .standard
  | .hubCentric _ => .hubCentric
  | .thinLip _ => .thinLip
  | .step _ => .step
  | .steelRing => .steelRing
  | .twoPieceLug _ => .twoPieceLug
  | .twoPieceStud _ => .twoPieceStud

def hub? : Variant α → Option (Hub α)
  | .hubCentric hub | .thinLip hub | .twoPieceStud hub => some hub
  | _ => none

def counterbore? : Variant α → Option (Counterbore α)
  | .step shelf | .twoPieceLug shelf => some shelf
  | _ => none

theorem hub?_isSome (v : Variant α) : v.hub?.isSome = v.kind.hasHub := by cases v <;> rfl

end Variant

/-- A spacer with all its dimensions. -/
structure Part (α : Type) where
  programNumber : Nat
  /-- Written at the head of the program. -/
  title : String
  /-- Diameter of the stock. -/
  round : α
  /-- Thickness of the body, without a hub. -/
  thickness : Thickness α
  /-- Nominal center bore, in millimetres. -/
  boreMm : α
  /-- Center bore with the fit added, in millimetres. -/
  fittedBoreMm : α
  /-- Center bore with the fit added. -/
  bore : α
  lathe : LatheId
  /-- Fits were applied. -/
  fitted : Bool
  feedMode : FeedMode
  variant : Variant α
deriving Repr, DecidableEq

namespace Part

variable {α : Type}

def kind (p : Part α) : SpacerKind := p.variant.kind

variable [Scalar α]

/-- Height of the hub; zero without one. -/
def hubHeight (p : Part α) : α := (p.variant.hub?.map (·.height)).getD 0

def totalHeight (p : Part α) : α := p.thickness.inches + p.hubHeight

/-- The conditions on a hub: a height, and a wall on either side. -/
def checkHub (p : Part α) (hub : Hub α) : Except (Refusal α) Unit := do
  let _ ← demandLength .hubHeight hub.height
  demand (!decide (hub.diameter ≤ p.bore) && !decide (hub.diameter ≥ p.round))
    (.invalid .outerBoreMm (.hubNotAroundBore hub.diameter p.bore p.round))

/-- The conditions that making a program relies on, in the order in which they are reported. -/
def check (p : Part α) : Except (Refusal α) Unit := do
  let _ ← demandLength .roundSize p.round
  let _ ← demandLength .thickness p.thickness.inches
  let _ ← demandLength .centerBoreMm p.boreMm
  let _ ← demandLength .centerBore p.bore
  demand (!decide (p.bore ≥ p.round)) (.invalid .centerBoreMm (.boreNotInRound p.bore p.round))
  match p.variant.hub? with
  | some hub => p.checkHub hub
  | none => .ok ()
  match p.variant.counterbore? with
  | some shelf => let _ ← demandLength .counterboreDepth shelf.depth
  | none => .ok ()

end Part
end SpacerTurning
