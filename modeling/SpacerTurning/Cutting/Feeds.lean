import SpacerTurning.Part.Basic

/-!
Feeds and speeds.

Spindle speed and feeds of a cut come from values proven on the floor, which go by round size and
thickness, or from a formula on the surface speed.  Either way they are held under what the lathe
can do.
-/

namespace SpacerTurning

open Number

/-- The cuts that a program makes. -/
inductive Operation where
  | drill
  | bore
  /-- Facing and outside of the first side. -/
  | turnOp1
  /-- Facing and hub of the second side. -/
  | turnOp2
  | chamfer
deriving DecidableEq, Repr

namespace Operation

def all : List Operation := [.drill, .bore, .turnOp1, .turnOp2, .chamfer]

def name : Operation → String
  | .drill => "drill"
  | .bore => "bore"
  | .turnOp1 => "turn-op1"
  | .turnOp2 => "turn-op2"
  | .chamfer => "chamfer"

/-- The spelling in a record file. -/
def tag : Operation → String
  | .turnOp1 => "turn_op1"
  | .turnOp2 => "turn_op2"
  | op => op.name

/-- The cut with a given spelling in a record file. -/
def ofTag? (text : String) : Option Operation := all.find? fun op => op.tag = text

/-- Surface speed of the formula, in feet per minute. -/
def surfaceSpeed : Operation → Nat
  | .drill => 300
  | .bore => 600
  | .turnOp1 | .turnOp2 => 750
  | .chamfer => 500

end Operation

/-- How the spindle turns. -/
structure Spindle where
  /-- Ceiling of the speed. -/
  maxRpm : Nat
  /-- Speed, where it is fixed, or speed at the diameter that is cut. -/
  rpm : Nat
  /-- Constant surface speed; a cut without one runs at a fixed speed. -/
  css : Option Nat
deriving DecidableEq, Repr

/-- Feeds, in inches per revolution. -/
structure FeedRates (α : Type) where
  rough : α
  finish : α
  chamfer : α
deriving Repr, DecidableEq

/-- Spindle and feeds of one cut. -/
structure CutSettings (α : Type) where
  spindle : Spindle
  feeds : FeedRates α
deriving Repr, DecidableEq

def minRpm : Nat := 400

section

variable {α : Type} [Scalar α]

/-- The speed that gives a surface speed at a diameter, between the lowest speed and a ceiling. -/
def rpmFor (surfaceSpeed diameter : α) (ceiling : Nat) : Nat :=
  if diameter ≤ 0 then ceiling
  else
    let rpm := Scalar.round (surfaceSpeed * 12.0 / (3.141592653589793 * diameter))
    min (max (Scalar.toNatWithin Scalar.codeLimit rpm) minRpm) ceiling

def scaleSpeed (factor : α) (speed : Nat) : Nat :=
  Scalar.toNatWithin Scalar.codeLimit (Scalar.round (Scalar.ofNat speed * factor))

namespace CutSettings

/-- Feeds and speeds times a factor each.  The ceiling stays. -/
def scaled (s : CutSettings α) (feedFactor speedFactor : α) : CutSettings α where
  spindle :=
    { maxRpm := s.spindle.maxRpm
      rpm := scaleSpeed speedFactor s.spindle.rpm
      css := s.spindle.css.map (scaleSpeed speedFactor) }
  feeds :=
    { rough := Scalar.round4 (s.feeds.rough * feedFactor)
      finish := Scalar.round4 (s.feeds.finish * feedFactor)
      chamfer := Scalar.round4 (s.feeds.chamfer * feedFactor) }

omit [Scalar α] in
/-- Speeds held under what the lathe can do. -/
def clampedTo (s : CutSettings α) (lathe : Lathe α) : CutSettings α :=
  let maxRpm := min s.spindle.maxRpm lathe.maxRpm
  { spindle :=
      { maxRpm
        rpm := min s.spindle.rpm maxRpm
        css := s.spindle.css.map (min · lathe.maxCss) }
    feeds := s.feeds }

end CutSettings

/-- Round sizes that share the proven values. -/
inductive RoundBand where
  | small
  | medium
  | large
deriving DecidableEq, Repr

def RoundBand.ofRound (round : α) : RoundBand :=
  if round ≤ 6.5 then .small else if round ≤ 8.5 then .medium else .large

/-- What feeds and speeds depend on, besides the cut. -/
structure CutSetup (α : Type) where
  lathe : Lathe α
  mode : FeedMode
  round : α
  /-- Thickness of the whole part. -/
  thickness : α
  /-- The wall is thin: everything is slower. -/
  thinLip : Bool
deriving Repr

namespace CutSetup

def ofPart (lathe : Lathe α) (part : Part α) : CutSetup α where
  lathe
  mode := part.feedMode
  round := part.round
  thickness := part.totalHeight
  thinLip := part.kind = .thinLip

/-- The reduction for a thin wall, then the limits of the lathe. -/
def finish (s : CutSetup α) (settings : CutSettings α) : CutSettings α :=
  (if s.thinLip then settings.scaled 0.7 0.9 else settings).clampedTo s.lathe

/-- A row of the proven values: ceiling, surface speed, and the three feeds. -/
structure ProvenRow (α : Type) where
  maxRpm : Nat
  css : Option Nat
  rough : α
  finish : α
  chamfer : α

def provenRow (op : Operation) (band : RoundBand) : ProvenRow α :=
  match op, band with
  | .drill, .small => ⟨1200, none, 0.008, 0.008, 0.008⟩
  | .drill, .medium => ⟨1000, none, 0.008, 0.008, 0.008⟩
  | .drill, .large => ⟨800, none, 0.007, 0.007, 0.007⟩
  | .bore, .small => ⟨2500, some 600, 0.012, 0.006, 0.004⟩
  | .bore, .medium => ⟨2000, some 550, 0.010, 0.005, 0.004⟩
  | .bore, .large => ⟨1600, some 500, 0.009, 0.005, 0.004⟩
  | .turnOp1, .small | .turnOp2, .small => ⟨2500, some 750, 0.013, 0.008, 0.004⟩
  | .turnOp1, .medium | .turnOp2, .medium => ⟨2000, some 700, 0.012, 0.007, 0.004⟩
  | .turnOp1, .large | .turnOp2, .large => ⟨1600, some 650, 0.010, 0.006, 0.004⟩
  | .chamfer, .small => ⟨2500, some 500, 0.006, 0.004, 0.004⟩
  | .chamfer, .medium => ⟨2000, some 450, 0.006, 0.004, 0.004⟩
  | .chamfer, .large => ⟨1600, some 400, 0.005, 0.004, 0.004⟩

/-- The proven settings of a cut.  A thick part is roughed more slowly. -/
def proven (s : CutSetup α) (op : Operation) (diameter : α) : CutSettings α :=
  let row : ProvenRow α := provenRow op (RoundBand.ofRound s.round)
  let rough := if s.thickness > 2.0 then Scalar.round4 (row.rough * 0.85) else row.rough
  let rpm := match row.css with
    | some css => rpmFor (Scalar.ofNat css) diameter row.maxRpm
    | none => row.maxRpm
  { spindle := { maxRpm := row.maxRpm, rpm, css := row.css }
    feeds := { rough, finish := row.finish, chamfer := row.chamfer } }

/-- The feeds of the formula, before the depth is taken into account. -/
def formulaFeeds : Operation → FeedRates α
  | .drill => { rough := 0.008, finish := 0.008, chamfer := 0.008 }
  | .bore => { rough := 0.010, finish := 0.005, chamfer := 0.004 }
  | .turnOp1 | .turnOp2 => { rough := 0.012, finish := 0.007, chamfer := 0.004 }
  | .chamfer => { rough := 0.006, finish := 0.004, chamfer := 0.004 }

/-- A deep cut is fed more slowly. -/
def depthFactor (depth : α) : α :=
  if depth > 2.0 then 0.8 else if depth > 1.25 then 0.9 else 1.0

def calculated (s : CutSetup α) (op : Operation) (diameter depth : α) : CutSettings α :=
  let feeds : FeedRates α := formulaFeeds op
  let factor := depthFactor depth
  let ceiling := s.lathe.maxRpm
  { spindle :=
      { maxRpm := ceiling
        rpm := rpmFor (Scalar.ofNat op.surfaceSpeed) diameter ceiling
        css := if op = .drill then none else some op.surfaceSpeed }
    feeds :=
      { rough := Scalar.round4 (feeds.rough * factor)
        finish := Scalar.round4 (feeds.finish * factor)
        chamfer := feeds.chamfer } }

/-- The settings of a cut at a diameter and down to a depth, whatever the sign of the depth. -/
def settings (s : CutSetup α) (op : Operation) (diameter depth : α) : CutSettings α :=
  s.finish (match s.mode with
    | .proven => s.proven op diameter
    | .calculated => s.calculated op diameter (Scalar.magnitude depth))

end CutSetup
end

end SpacerTurning
