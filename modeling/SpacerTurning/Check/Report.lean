import SpacerTurning.Check.Feasibility
import SpacerTurning.Check.Features
import SpacerTurning.Check.FixChain

/-!
Checking a whole program.

The chain of passes, the bore steps, the marked diameters, and, when something is known about the
part, whether it can be made.
-/

namespace SpacerTurning

open Number

/-- Everything that is found in a program. -/
structure Report (α : Type) where
  diagnostics : List (Diagnostic α)
  /-- The program as it should be, if a line was changed. -/
  fixedText : Option String
  features : Features α
  /-- Whether the part can be made, if something is known about it. -/
  feasibility : Option (FeasibilityReport α)
deriving Repr, DecidableEq

namespace Report

variable {α : Type} [Scalar α]

def ofChain (chain : FixChain α) (c : CheckingConstants α) (s : Standards α) (text : String)
    (facts : Option (PartFacts α)) : Report α :=
  let fixes := chain.run text
  let lines := Line.parseText text
  let features := Features.ofLines lines
  let feasibility := facts.map (·.feasibility s)
  let marks := match facts with
    | some f => features.check f.boreMm f.hubMm c.dimensionToleranceMm
    | none => []
  let limits := match feasibility with
    | some r => r.diagnostics
    | none => []
  { diagnostics := fixes.diagnostics ++ Bore.checkLines c lines ++ marks ++ limits
    fixedText := fixes.fixedText
    features
    feasibility }

def ofText (c : CheckingConstants α) (s : Standards α) (text : String)
    (facts : Option (PartFacts α)) : Report α :=
  ofChain (.standard c) c s text facts

omit [Scalar α] in
def hasCritical (r : Report α) : Bool := r.diagnostics.any (·.isCritical)

end Report
end SpacerTurning
