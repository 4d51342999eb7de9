import SpacerTurning.Check.Feasibility
import SpacerTurning.Part.Order
import SpacerTurning.Storage.Path

/-!
Commands.

What an operator can ask for: a program made from an order, a program checked, dimensions checked
against the standards, and the settings written down or shown.
-/

namespace SpacerTurning

/-- How a report is printed. -/
inductive ReportForm where
  /-- One finding a line. -/
  | text
  | json
deriving DecidableEq, Repr

/-- A program to be made. -/
structure Making where
  order : Order Float
  /-- The program is checked, and findings are told. -/
  check : Bool := false
  /-- A file to write the program to; the output if there is none. -/
  output : Option Path := none
deriving Repr, DecidableEq

/-- A program to be checked. -/
structure Checking where
  /-- The input, if this is a hyphen. -/
  file : Path
  /-- A file for the program as it should be. -/
  fix : Option Path := none
  form : ReportForm := .text
  facts : PartFacts Float := {}
deriving Repr, DecidableEq

/-- What is asked for. -/
inductive Command where
  | generate (making : Making)
  | verify (checking : Checking)
  | feasibility (form : ReportForm) (facts : PartFacts Float)
  | showConfig
  /-- Settings are written to a file; `force` replaces one that is there. -/
  | initConfig (path : Option Path) (force : Bool)
deriving Repr, DecidableEq

/-- What is asked for, and the file of settings to do it with. -/
structure Request where
  config : Option Path
  command : Command
deriving Repr, DecidableEq

end SpacerTurning
