import SpacerTurning.Check.Detector

/-!
Chains of passes.

Passes run one after the other, each on the lines that those before it left.  What they find is
reported in that order.
-/

namespace SpacerTurning

open Number

/-- A pass over a program. -/
structure FixPass (α : Type) where
  name : String
  description : String
  enabled : Bool := true
  apply : List (Line α) → PassOutput α

/-- What comes of a chain. -/
structure ChainReport (α : Type) where
  diagnostics : List (Diagnostic α)
  /-- The program as it should be, if a line was changed. -/
  fixedText : Option String
deriving Repr, DecidableEq

namespace FixPass

variable {α : Type} [Scalar α]

def ofDetector (name description : String) (judge : Detector α) : FixPass α where
  name
  description
  apply := judge.run

def rapidPlunge (c : CheckingConstants α) : FixPass α :=
  ofDetector "rapid_plunge" "Rapid moves that go below the work surface" (.rapidPlunge c)

def missingFeed (c : CheckingConstants α) : FixPass α :=
  ofDetector "missing_feed" "Feed moves that start without an F word" (.missingFeed c)

def workOffsetClearance (c : CheckingConstants α) : FixPass α :=
  ofDetector "work_offset_clearance" "Approach height after selecting a work offset"
    (.workOffsetClearance c)

def bareFace (c : CheckingConstants α) : FixPass α :=
  ofDetector "bare_z0" "Bare Z0 chamfer approaches left in rapid" (.bareFace c)

end FixPass

/-- Passes in the order in which they run. -/
abbrev FixChain (α : Type) := List (FixPass α)

namespace FixChain

variable {α : Type} [Scalar α]

def standard (c : CheckingConstants α) : FixChain α :=
  [.rapidPlunge c, .missingFeed c, .workOffsetClearance c, .bareFace c]

/-- Runs a chain over lines.  A pass that returns another number of lines has no say in them. -/
def runLines : FixChain α → List String → List String × List (Diagnostic α)
  | [], raws => (raws, [])
  | pass :: rest, raws =>
    if pass.enabled then
      let output := pass.apply (Line.parseAll raws)
      let kept := if output.lines.length = raws.length then output.lines else raws
      let (final, more) := runLines rest kept
      (final, output.diagnostics ++ more)
    else runLines rest raws

/-- The text of lines.  It ends with a line feed if the text that the lines came from did. -/
def textOf (source : String) (raws : List String) : String :=
  "\n".intercalate raws ++ if Text.endsWithFeed source then "\n" else ""

def run (chain : FixChain α) (text : String) : ChainReport α :=
  let raws := Text.splitLines text
  let (final, diagnostics) := runLines chain raws
  { diagnostics
    fixedText := if final = raws then none else some (textOf text final) }

end FixChain
end SpacerTurning
