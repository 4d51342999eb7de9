import SpacerTurning.Number.Scalar

/-!
Programs.

A program is a list of named sections, a section a list of blocks.  A block is what a machine does
in one step; how it is written is a matter of `SpacerTurning.Program.Text`.
-/

namespace SpacerTurning

open Number

/-- The parts of a program. -/
inductive SectionKind where
  | header
  | op1Drill
  | op1Bore
  | op1Turn
  | flip
  | op2Turn
  | op2Chamfer
  | footer
deriving DecidableEq, Repr

namespace SectionKind

def all : List SectionKind :=
  [.header, .op1Drill, .op1Bore, .op1Turn, .flip, .op2Turn, .op2Chamfer, .footer]

def name : SectionKind → String
  | .header => "header"
  | .op1Drill => "op1-drill"
  | .op1Bore => "op1-bore"
  | .op1Turn => "op1-turn"
  | .flip => "flip"
  | .op2Turn => "op2-turn"
  | .op2Chamfer => "op2-chamfer"
  | .footer => "footer"

def tag : SectionKind → String
  | .op1Drill => "op1_drill"
  | .op1Bore => "op1_bore"
  | .op1Turn => "op1_turn"
  | .op2Turn => "op2_turn"
  | .op2Chamfer => "op2_chamfer"
  | kind => kind.name

/-- The section kind with a given spelling in a record file. -/
def ofTag? (text : String) : Option SectionKind := all.find? fun kind => kind.tag = text

end SectionKind

/-- How a tool moves. -/
inductive MotionMode where
  | rapid
  | linear
deriving DecidableEq, Repr

/-- What a diameter that is cut is for. -/
inductive DiameterMarker where
  | centerBore
  | outerBore
deriving DecidableEq, Repr

/-- One move.  What is left out stays as it was. -/
structure Motion (α : Type) where
  mode : Option MotionMode := none
  /-- A diameter. -/
  x : Option α := none
  z : Option α := none
  feed : Option α := none
  marker : Option DiameterMarker := none
deriving Repr, DecidableEq

namespace Motion

variable {α : Type}

/-- The move cuts. -/
def isFeed (m : Motion α) : Bool := m.mode = some .linear

end Motion

/-- One step of a program. -/
inductive Block (α : Type) where
  | percent
  | programNumber (number : Nat) (title : String)
  | comment (text : String)
  | toolChange (tool : Nat) (comment : String)
  | constantSurfaceSpeed (maxRpm css : Nat)
  | fixedSpeed (rpm : Nat)
  | workOffset (slot : Nat)
  | coolantOn
  | coolantOff
  | motion (m : Motion α)
  /-- To the place where tools are changed, in machine coordinates. -/
  | machineHome (x z : α)
  /-- Waits for the operator, with a message or without. -/
  | programStop (message : Option String)
  | optionalStop
  | programEnd
deriving Repr, DecidableEq

/-- A named run of blocks. -/
structure Section (α : Type) where
  kind : SectionKind
  blocks : List (Block α)
deriving Repr, DecidableEq

namespace Section

variable {α : Type}

def motions (s : Section α) : List (Motion α) :=
  s.blocks.filterMap fun
    | .motion m => some m
    | _ => none

variable [Scalar α]

/-- The lowest height of any move. -/
def deepestZ? (s : Section α) : Option α := Scalar.least? (s.motions.filterMap (·.z))

/-- The diameters of the cutting moves that go below a height.  A move without a diameter is made
at the one before. -/
def feedDiametersBelow (limit : α) : Option α → List (Motion α) → List α
  | _, [] => []
  | x, m :: rest =>
    let x := m.x <|> x
    let below := match m.z with
      | some z => decide (z < limit)
      | none => false
    (if m.isFeed && below then x.toList else []) ++ feedDiametersBelow limit x rest

/-- The widest diameter of any cutting move that goes below a height. -/
def widestFeedBelow? (s : Section α) (limit : α) : Option α :=
  Scalar.greatest? (feedDiametersBelow limit none s.motions)

end Section

/-- A whole program. -/
structure Program (α : Type) where
  number : Nat
  title : String
  sections : List (Section α)
deriving Repr, DecidableEq

namespace Program

variable {α : Type}

/-- The first section of a kind. -/
def section? (p : Program α) (kind : SectionKind) : Option (Section α) :=
  p.sections.find? fun s => s.kind = kind

def blocks (p : Program α) : List (Block α) := p.sections.flatMap (·.blocks)

end Program
end SpacerTurning
