import SpacerTurning.Check.BoreSteps

/-!
What a program says about its part.

Number and title, tools, work offsets, the deepest cut, and the diameters that a comment marks as
the finished center bore or outer bore.
-/

namespace SpacerTurning

open Number

/-- A tool that is taken up. -/
structure ToolUse where
  line : Nat
  tool : Nat
  comment : Option String
deriving DecidableEq, Repr

/-- A diameter that a comment marks. -/
structure MarkedDiameter (α : Type) where
  line : Nat
  diameter : α
deriving Repr, DecidableEq

/-- What a program says about its part. -/
structure Features (α : Type) where
  programNumber : Option Nat
  title : Option String
  tools : List ToolUse
  workOffsets : List Nat
  deepestZ : Option α
  /-- The first diameter that is marked as the center bore. -/
  centerBore : Option (MarkedDiameter α)
  /-- The first diameter that is marked as the outer bore. -/
  outerBore : Option (MarkedDiameter α)
deriving Repr, DecidableEq

namespace Features

/-- What a comment marks a diameter as. -/
inductive Mark where
  | centerBore
  | outerBore
deriving DecidableEq, Repr

def Mark.name : Mark → String
  | .centerBore => "CB"
  | .outerBore => "OB"

variable {α : Type} [Scalar α]

omit [Scalar α] in
/-- The mark in the comment of a line. -/
def mark? (l : Line α) : Option Mark :=
  let comment := l.commentCapitals
  if holds "X IS CB".toList comment then some .centerBore
  else if holds "X IS OB".toList comment then some .outerBore
  else none

omit [Scalar α] in
def isNumberLine (l : Line α) : Bool :=
  (match Text.trimStart l.raw.toList with
    | c :: _ => c = 'O' || c = 'o'
    | [] => false) &&
  match l.words with
  | w :: _ => w.letter = 'O'
  | [] => false

/-- The program number of a line, and its title. -/
def numberOf? (l : Line α) : Option (Option Nat × Option String) :=
  if isNumberLine l then some (l.words.head?.bind (·.code?), l.comment) else none

/-- The number and title of a program: those of the first line with a number that counts, or of the
last one when none does. -/
def identity : List (Line α) → Option Nat × Option String
  | [] => (none, none)
  | l :: rest =>
    match numberOf? l with
    | some (some number, title) => (some number, title)
    | some (none, title) =>
      if rest.any isNumberLine then identity rest else (none, title)
    | none => identity rest

def toolUse? (l : Line α) : Option ToolUse :=
  l.tool?.map fun tool => { line := l.number, tool, comment := l.comment }

def workOffset? (l : Line α) : Option Nat :=
  if l.has 'G' 154 then (l.words.find? fun w => w.letter = 'P').bind (·.code?) else none

omit [Scalar α] in
/-- The height of a step that is not in machine coordinates. -/
def height? (s : Step α) : Option α := if s.after.machine then none else s.line.z?

omit [Scalar α] in
def marked? (mark : Mark) (s : Step α) : Option (MarkedDiameter α) :=
  if mark? s.line = some mark then
    (s.line.x? <|> s.after.x).map fun diameter => { line := s.line.number, diameter }
  else none

def ofLines (lines : List (Line α)) : Features α :=
  let (programNumber, title) := identity lines
  let steps := steps lines
  { programNumber
    title
    tools := lines.filterMap toolUse?
    workOffsets := lines.filterMap workOffset?
    deepestZ := Scalar.least? (steps.filterMap height?)
    centerBore := steps.findSome? (marked? .centerBore)
    outerBore := steps.findSome? (marked? .outerBore) }

def ofText (text : String) : Features α := ofLines (Line.parseText text)

/-- The diagnostic of a marked diameter, for the one that is expected, in millimetres. -/
def checkMark (mark : Mark) (found : Option (MarkedDiameter α)) (expectedMm : Option α)
    (toleranceMm : α) : Option (Diagnostic α) :=
  match expectedMm, found with
  | none, _ => none
  | some _, none => some { finding := .noMarker mark.name }
  | some expected, some d =>
    if Scalar.magnitude (toMillimetres d.diameter - expected) > toleranceMm then
      some { finding := .wrongDiameter mark.name d.diameter expected, line := some d.line }
    else none

def check (f : Features α) (boreMm hubMm : Option α) (toleranceMm : α) : List (Diagnostic α) :=
  (checkMark .centerBore f.centerBore boreMm toleranceMm).toList
    ++ (checkMark .outerBore f.outerBore hubMm toleranceMm).toList

end Features
end SpacerTurning
