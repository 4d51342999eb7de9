import SpacerTurning.Check.Edit
import SpacerTurning.Check.Finding
import SpacerTurning.Check.Modal
import SpacerTurning.Shop.Constants

/-!
Detectors.

A detector looks at every line of a program in its place, between the lines before it, nearest
first, and the lines after it.  Where something is wrong it says so, and what the line should be.
No detector adds or removes a line, so that line numbers stay as they are.
-/

namespace SpacerTurning

open Number

/-- What a detector says about a line: the line as it should be, and why. -/
structure Verdict (α : Type) where
  text : String
  diagnostic : Diagnostic α
deriving Repr, DecidableEq

/-- A detector judges a step between those before it, nearest first, and those after it. -/
abbrev Detector (α : Type) := List (Step α) → Step α → List (Step α) → Option (Verdict α)

/-- What comes of a pass over a program. -/
structure PassOutput (α : Type) where
  lines : List String
  diagnostics : List (Diagnostic α)
deriving Repr, DecidableEq

/-- What the first element that has something to say says, of so many elements. -/
def firstWithin {β γ : Type} (read : β → Option γ) : Nat → List β → Option γ
  | window + 1, b :: rest =>
    match read b with
    | some said => some said
    | none => firstWithin read window rest
  | _, _ => none

theorem firstWithin_eq_findSome? {β γ : Type} (read : β → Option γ) (window : Nat) (bs : List β) :
    firstWithin read window bs = (bs.take window).findSome? read := by
  induction window generalizing bs with
  | zero => simp [firstWithin]
  | succ window ih =>
    cases bs with
    | nil => simp [firstWithin]
    | cons b rest => cases h : read b <;> simp [firstWithin, h, ih]

namespace Detector

variable {α : Type}

/-- The verdicts on steps in their order, for steps before them that are given nearest first. -/
def verdicts (judge : Detector α) : List (Step α) → List (Step α) → List (Option (Verdict α))
  | _, [] => []
  | before, here :: after =>
    judge before here after :: verdicts judge (here :: before) after

variable [Scalar α]

/-- The line that a verdict leaves. -/
def outcome (l : Line α) : Option (Verdict α) → String
  | some v => v.text
  | none => l.raw

def run (judge : Detector α) (lines : List (Line α)) : PassOutput α :=
  let found := verdicts judge [] (steps lines)
  { lines := List.zipWith outcome lines found
    diagnostics := found.filterMap fun v => v.map (·.diagnostic) }

end Detector

variable {α : Type} [Scalar α]

omit [Scalar α] in
/-- The last feed of some lines before, which are given nearest first, and of which so many are
looked at. -/
def precedingFeed? (window : Nat) (before : List (Line α)) : Option α :=
  firstWithin (·.feed?) window before

namespace Step

omit [Scalar α] in
/-- The feed of the last step before that has one. -/
def precedingFeed? (window : Nat) (before : List (Step α)) : Option α :=
  firstWithin (·.line.feed?) window before

/-- The height to which a rapid move takes the tool into the part: below the face, and deeper than
the tool is known to be. -/
def plunge? (s : Step α) : Option α :=
  if s.isRapid then
    s.line.z?.filter fun z => !decide (z ≥ 0) && (match s.before.z with
      | some previous => !decide (z ≥ previous)
      | none => true)
  else none

def isRapidZ (s : Step α) : Bool := s.isRapid && s.line.z?.isSome

/-- The step switches to feeding, and moves an axis, without a feed of its own. -/
def switchesWithoutFeed (s : Step α) : Bool :=
  s.line.motionWord? == some .linear && !s.line.isMachine && s.before.motion != .linear
    && s.line.feed?.isNone && s.line.hasAxis

/-- The line is nothing but the height of the face. -/
def isBareFace (s : Step α) : Bool :=
  match s.line.words with
  | [w] => w.letter = 'Z' && w.value == 0
  | _ => false

end Step

def feedWord (feed : α) : String := "F" ++ Word.format feed

def Step.diagnostic (s : Step α) (finding : Finding α) (fix : String) : Diagnostic α :=
  { finding, line := some s.line.number, fix := some fix }

namespace Detector

/-- Rapid moves into the part.  Where the line only inherits the rapid, it becomes a cut. -/
def rapidPlunge (c : CheckingConstants α) : Detector α := fun before here _ =>
  here.plunge?.map fun z =>
    let feed := (here.line.feed? <|> Step.precedingFeed? c.lookaheadLines before).getD
      c.defaultSafeFeed
    if here.isInherited then
      let front := Edit.prependWord here.line.raw "G01"
      let text := if here.line.feed?.isNone then Edit.insertBeforeComment front (feedWord feed)
        else front
      { text, diagnostic := here.diagnostic (.rapidPlunge z true) text }
    else
      { text := here.line.raw
        diagnostic := here.diagnostic (.rapidPlunge z false)
          ("replace G00 with G01 " ++ feedWord feed) }

/-- Cuts that switch to feeding without a feed. -/
def missingFeed (c : CheckingConstants α) : Detector α := fun before here _ =>
  if here.switchesWithoutFeed then
    let feed := (Step.precedingFeed? c.lookaheadLines before).getD c.defaultSafeFeed
    let text := Edit.insertBeforeComment here.line.raw (feedWord feed)
    some { text, diagnostic := here.diagnostic .missingFeed text }
  else none

/-- The step is the first rapid move to a height after a work offset was chosen, among so many
lines. -/
def followsWorkOffset (window : Nat) (before : List (Step α)) (here : Step α) : Bool :=
  let choice (s : Step α) : Option Bool :=
    if s.line.has 'G' 154 then some true else if s.isRapidZ then some false else none
  here.isRapidZ && !here.line.has 'G' 154 && firstWithin choice window before == some true

/-- First rapid moves after a work offset that stop too close to the face. -/
def workOffsetClearance (c : CheckingConstants α) : Detector α := fun before here _ =>
  if followsWorkOffset c.contextLines before here then
    (here.line.z?.filter fun z => decide (0 ≤ z) && decide (z < c.workOffsetMinClearance)).map
      fun z =>
        let text := Edit.replaceWord here.line.raw 'Z' ("Z" ++ Word.format c.workOffsetClearanceZ)
        { text
          diagnostic := here.diagnostic (.lowClearance z c.workOffsetMinClearance) text }
  else none

/-- How many lines after a bare face are searched for the chamfer it is the start of. -/
def chamferWindow : Nat := 3

/-- The slanting cut that follows a bare face, if one does soon. -/
def chamferAfter? (after : List (Step α)) : Option (Step α) :=
  (after.take chamferWindow).find? fun s =>
    s.line.motionWord? == some .linear && s.isDiagonal

/-- Rapid moves onto the face where a chamfer starts. -/
def bareFace (c : CheckingConstants α) : Detector α := fun before here after =>
  if here.isBareFace && here.isInherited && here.after.motion = .rapid then
    (chamferAfter? after).map fun chamfer =>
      let feed := (chamfer.line.feed? <|> Step.precedingFeed? c.lookaheadLines before).getD
        c.defaultSafeFeed
      let code := "G01 Z0. " ++ feedWord feed
      let text := match here.line.comment with
        | some comment => code ++ " (" ++ comment ++ ")"
        | none => code
      { text, diagnostic := here.diagnostic (.bareFace chamfer.line.number) text }
  else none

end Detector
end SpacerTurning
