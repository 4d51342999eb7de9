import SpacerTurning.Number.Scalar
import SpacerTurning.Text.Blank
import SpacerTurning.Text.Uppercase

/-!
Thicknesses.

Tables are keyed by thickness as a text: inches with two decimals, as in `1.50`, or millimetres, as
in `15MM`.  A `Thickness` keeps that key beside the value in inches, so that a rule can still
compute where a table has no row.
-/

namespace SpacerTurning

open Number

/-- A thickness and the key it is looked up by. -/
structure Thickness (α : Type) where
  key : String
  inches : α
deriving Repr, DecidableEq

/-- Why a text is no thickness. -/
inductive ThicknessFault where
  | empty
  | unreadable (text : String)
  | notPositive (text : String)
deriving DecidableEq, Repr

namespace ThicknessFault

def message : ThicknessFault → String
  | .empty => "Empty thickness"
  | .unreadable text => "Invalid thickness: " ++ text
  | .notPositive text => "Thickness must be > 0: " ++ text

end ThicknessFault

namespace Thickness

variable {α : Type} [Scalar α]

def ofInches (inches : α) : Thickness α := { key := Scalar.fixed 2 inches, inches }

/-- Largest whole number of millimetres that a key holds, either way. -/
def wholeLimit : Int := 9223372036854775807

/-- A thickness given in millimetres.  A whole number of them has no point in its key. -/
def ofMillimetres (mm : α) : Thickness α :=
  let whole := Scalar.round mm
  let number :=
    if Scalar.magnitude (mm - whole) < 0.000000001 then
      toString (Scalar.wholeWithin (-wholeLimit - 1) wholeLimit whole)
    else Scalar.fixed 1 mm
  { key := number ++ "MM", inches := toInches mm }

def millimetres (t : Thickness α) : α := toMillimetres t.inches

omit [Scalar α] in
/-- The key is written in millimetres. -/
def isMetric (t : Thickness α) : Bool := ['M', 'M'].isSuffixOf t.key.toList

/-- A text without a given ending, if it has that ending. -/
def dropEnding? (ending cs : List Char) : Option (List Char) :=
  if ending.isSuffixOf cs then some (cs.take (cs.length - ending.length)) else none

/-- The number in a text without blanks, and whether it counts millimetres.  Inches may be marked
or not. -/
def splitUnit (cs : List Char) : List Char × Bool :=
  match dropEnding? ['M', 'M'] cs with
  | some number => (number, true)
  | none =>
    match dropEnding? ['I', 'N'] cs with
    | some number => (number, false)
    | none => ((dropEnding? ['"'] cs).getD cs, false)

/-- Reads a thickness as an operator writes it: `15MM`, `15 mm`, `1.5`, `1.50`, `1.5in`. -/
def read (text : String) : Except ThicknessFault (Thickness α) :=
  let compact := Text.capitalize (text.toList.filter fun c => !Text.isBlank c)
  if compact = [] then .error .empty
  else
    let (number, metric) := splitUnit compact
    match Numeral.read number with
    | none => .error (.unreadable text)
    | some (.decimal d) =>
      let value : α := Scalar.ofDecimal d
      if !Scalar.isFinite value || value ≤ 0 then .error (.notPositive text)
      else .ok (if metric then ofMillimetres value else ofInches value)
    | some _ => .error (.notPositive text)

end Thickness
end SpacerTurning
