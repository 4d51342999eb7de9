import SpacerTurning.Generation.Sections

/-!
Hub turning.

The second side of a part with a hub is faced, cut down level by level around the hub, and finished
along the wall of the hub.
-/

namespace SpacerTurning

open Number

/-- The heights that a hub is roughed at, from the first step down to its full height. -/
def hubLevels {α : Type} [Scalar α] (height increment : α) : List α :=
  if height ≤ 0 ∨ increment ≤ 0 then []
  else
    let count := Scalar.larger (Scalar.ceiling (height / increment - 0.000000001)) 1.0
    (List.range (Scalar.toNatWithin Scalar.countLimit count)).map fun i =>
      -Scalar.round4 (Scalar.smaller (Scalar.ofNat (i + 1) * increment) height)

namespace Job

/-- Stock left on the wall of a hub for the finishing pass. -/
def hubFinishAllowance {α : Type} [Scalar α] : α := 0.02

variable {α : Type} [Scalar α]

/-- The moves that take the stock off around a hub. -/
def hubRoughMoves (j : Job α) (feeds : FeedRates α) (hub : Hub α) (increment : α) :
    List (Motion α) :=
  (hubLevels hub.height increment).flatMap fun z =>
    [.rapidX j.outsideStock, .feedZ feeds.rough z,
      .feedX feeds.rough (Scalar.round4 (hub.diameter + hubFinishAllowance)), .rapidZ j.clearance]

/-- The moves that break the corner of a hub and finish its wall. -/
def hubFinishMoves (j : Job α) (feeds : FeedRates α) (hub : Hub α) : List (Motion α) :=
  [.rapidX (Scalar.round4 (hub.diameter - 2.0 * edgeBreak)),
    .feedZ feeds.chamfer 0.0,
    { Motion.feedXZ feeds.chamfer hub.diameter (-edgeBreak) with marker := some .outerBore },
    .feedZ feeds.finish (-Scalar.round4 hub.height),
    .feedX feeds.finish j.outsideStock,
    .rapidZ j.clearance]

def hubSection (j : Job α) (hub : Hub α) (increment : α) (comment : String) :
    Except (Refusal α) (Section α) := do
  demand (!decide (increment ≤ 0)) (.invalid .hubIncrement (.notPositive increment))
  let s := j.settings .turnOp2 hub.diameter hub.height
  return {
    kind := .op2Turn
    blocks := j.toolRun j.lathe.tools.turn comment s .op2
      ([.rapidXZ j.outsideStock j.clearance,
          .feedZ s.feeds.finish 0.0,
          .feedX s.feeds.rough j.insideBore,
          .rapidZ j.clearance]
        ++ j.hubRoughMoves s.feeds hub increment ++ j.hubFinishMoves s.feeds hub) }

end Job
end SpacerTurning
