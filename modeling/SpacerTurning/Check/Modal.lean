import SpacerTurning.Check.Line

/-!
Modal state.

What a program says holds until it says something else: a line without a motion word moves as the
line before it did.  Taking up a tool and moving in machine coordinates end that.
-/

namespace SpacerTurning

open Number

/-- The motion that is in force. -/
inductive MotionState where
  /-- None yet, or none any more. -/
  | unknown
  | rapid
  | linear
  | arc
deriving DecidableEq, Repr

def MotionState.name : MotionState → String
  | .unknown => "unknown"
  | .rapid => "rapid"
  | .linear => "linear-feed"
  | .arc => "arc"

/-- What a line does to the motion that is in force. -/
inductive ModalEvent where
  | machineCoordinates
  | toolChange
  | motion (word : MotionWord)
  | inherit
deriving DecidableEq, Repr

def MotionWord.state : MotionWord → MotionState
  | .rapid => .rapid
  | .linear => .linear
  | .arcCw | .arcCcw => .arc

def MotionState.after (state : MotionState) : ModalEvent → MotionState
  | .machineCoordinates | .toolChange => .unknown
  | .motion word => word.state
  | .inherit => state

variable {α : Type} [Scalar α]

/-- What a line does.  Machine coordinates come before a tool, and a tool before a motion word. -/
def Line.event (l : Line α) : ModalEvent :=
  if l.isMachine then .machineCoordinates
  else if l.tool?.isSome then .toolChange
  else match l.motionWord? with
    | some word => .motion word
    | none => .inherit

/-- Everything that holds until it is changed. -/
structure ModalState (α : Type) where
  motion : MotionState := .unknown
  tool : Option Nat := none
  /-- Last diameter since the tool was taken up. -/
  x : Option α := none
  /-- Last height since the tool was taken up. -/
  z : Option α := none
  feed : Option α := none
  /-- The last line was in machine coordinates. -/
  machine : Bool := false
deriving Repr, DecidableEq

def ModalState.next (s : ModalState α) (l : Line α) : ModalState α :=
  let event := l.event
  let feed := l.feed? <|> s.feed
  let motion := s.motion.after event
  match event with
  | .machineCoordinates => { s with motion, feed, machine := true }
  | .toolChange => { motion, tool := l.tool?, x := none, z := none, feed, machine := false }
  | .motion _ | .inherit =>
    { s with motion, x := l.x? <|> s.x, z := l.z? <|> s.z, feed, machine := false }

/-- A line between the states before and after it. -/
structure Step (α : Type) where
  line : Line α
  before : ModalState α
  after : ModalState α
deriving Repr, DecidableEq

namespace Step

/-- The motion of the line comes from a line before it. -/
def isInherited (s : Step α) : Bool := s.line.event = .inherit

omit [Scalar α] in
/-- The line cuts: it feeds, moves an axis, and is not in machine coordinates. -/
def isFeedMove (s : Step α) : Bool :=
  s.after.motion = .linear && !s.after.machine && s.line.hasAxis

/-- The line moves an axis away from where it was, as far as that is known. -/
def moves : Option α → Option α → Bool
  | some new, some old => decide (Scalar.magnitude (new - old) > 0.000000001)
  | some _, none => true
  | none, _ => false

def isDiagonal (s : Step α) : Bool :=
  moves s.line.x? s.before.x && moves s.line.z? s.before.z

omit [Scalar α] in
/-- The line is a rapid move that is not in machine coordinates. -/
def isRapid (s : Step α) : Bool := s.after.motion = .rapid && !s.after.machine

end Step

/-- The steps of lines from a state. -/
def ModalState.steps : ModalState α → List (Line α) → List (Step α)
  | _, [] => []
  | s, l :: rest => { line := l, before := s, after := s.next l } :: steps (s.next l) rest

def steps (lines : List (Line α)) : List (Step α) := ModalState.steps {} lines

end SpacerTurning
