import SpacerTurning.Check.Finding
import SpacerTurning.Check.Modal
import SpacerTurning.Shop.Constants

/-!
Bore steps.

A bore is opened step by step: the first cut stays near the pilot drill, and none widens the bore by
more than a step over the widest one before it.  Cuts are collected tool by tool, as a program says
them, and then checked.
-/

namespace SpacerTurning

open Number

/-- One cut of a bore. -/
structure BoreCut (α : Type) where
  line : Nat
  diameter : α
deriving Repr, DecidableEq

/-- The cuts that one boring tool makes. -/
structure BoreBlock (α : Type) where
  /-- The line that takes the tool up. -/
  toolLine : Nat
  tool : Nat
  cuts : List (BoreCut α)
deriving Repr, DecidableEq

def holds (part : List Char) : List Char → Bool
  | [] => part.isEmpty
  | c :: cs => part.isPrefixOf (c :: cs) || holds part cs

namespace Bore

variable {α : Type} [Scalar α]

omit [Scalar α] in
/-- The comment of a tool names a bore, and not the chamfer of one. -/
def isBoreTool (l : Line α) : Bool :=
  let comment := l.commentCapitals
  holds "BORE".toList comment && !holds "CHAMFER".toList comment

/-- The cut that a step makes, if it cuts straight and below the surface. -/
def cut? (c : CheckingConstants α) (s : Step α) : Option (BoreCut α) :=
  if s.isFeedMove && !s.isDiagonal then
    match s.after.x, s.after.z with
    | some x, some z =>
      if z < -c.boreSurfaceDepth then some { line := s.line.number, diameter := x } else none
    | _, _ => none
  else none

/-- The step belongs to the tool that was taken up before it: it takes up no other one, and does not
end the program. -/
def isWithinBlock (s : Step α) : Bool := s.line.tool?.isNone && !s.line.has 'M' 30

/-- The block of a tool, for the steps after the one that takes it up. -/
def blockOf (c : CheckingConstants α) (toolLine tool : Nat) (after : List (Step α)) : BoreBlock α where
  toolLine
  tool
  cuts := (after.takeWhile isWithinBlock).filterMap (cut? c)

/-- The blocks of steps, one for each boring tool that is taken up. -/
def blocks (c : CheckingConstants α) : List (Step α) → List (BoreBlock α)
  | [] => []
  | s :: after =>
    match s.line.tool? with
    | some tool =>
      if isBoreTool s.line then blockOf c s.line.number tool after :: blocks c after
      else blocks c after
    | none => blocks c after

def collect (c : CheckingConstants α) (lines : List (Line α)) : List (BoreBlock α) :=
  blocks c (steps lines)

/-- Diameters between two others, evenly spaced, so that no step is wider than the largest. -/
def intermediate (start target maxStep : α) : List α :=
  let gap := target - start
  if gap ≤ 0 ∨ maxStep ≤ 0 then []
  else
    let count := Scalar.larger (Scalar.ceiling (gap / maxStep - 0.000001)) 1.0
    let segments := Scalar.toNatWithin Scalar.countLimit count
    let step := gap / Scalar.ofNat segments
    (List.range (segments - 1)).map fun i => start + step * Scalar.ofNat (i + 1)

/-- The diagnostic of a cut, for the widest diameter before it. -/
def stepFault? (c : CheckingConstants α) (tool : Nat) (reached : α) (cut : BoreCut α) :
    Option (Diagnostic α) :=
  let gap := cut.diameter - reached
  if gap > c.maxBoreStep + c.stepTolerance then
    let missing := intermediate reached cut.diameter c.maxBoreStep
    some {
      finding := .wideStep tool gap reached cut.diameter missing
      line := some cut.line
      fix := some ("insert passes at " ++ Finding.diameterList missing) }
  else none

/-- The diagnostics of cuts, for the widest diameter before them. -/
def stepFaults (c : CheckingConstants α) (tool : Nat) : α → List (BoreCut α) → List (Diagnostic α)
  | _, [] => []
  | reached, cut :: rest =>
    (stepFault? c tool reached cut).toList
      ++ stepFaults c tool (Scalar.larger reached cut.diameter) rest

def entryFault? (c : CheckingConstants α) (tool : Nat) (cut : BoreCut α) : Option (Diagnostic α) :=
  if cut.diameter > c.safeEntryDiameter + c.stepTolerance then
    some {
      finding := .wideEntry tool cut.diameter c.safeEntryDiameter
      line := some cut.line
      fix := some ("start boring at X" ++ Scalar.fixed 3 c.safeEntryDiameter) }
  else none

/-- The diagnostics of a block. -/
def checkBlock (c : CheckingConstants α) (b : BoreBlock α) : List (Diagnostic α) :=
  match b.cuts with
  | [] => []
  | first :: rest =>
    (entryFault? c b.tool first).toList ++ stepFaults c b.tool first.diameter rest

def checkLines (c : CheckingConstants α) (lines : List (Line α)) : List (Diagnostic α) :=
  (collect c lines).flatMap (checkBlock c)

end Bore
end SpacerTurning
