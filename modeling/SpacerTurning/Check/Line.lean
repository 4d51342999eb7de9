import SpacerTurning.Number.Word
import SpacerTurning.Text.Digit
import SpacerTurning.Text.Lines
import SpacerTurning.Text.Uppercase

/-!
Lines of a program.

A line is read as words and comments.  A comment is what stands in parentheses; the code is what is
left, up to a semicolon.  A word is a letter and a number, with or without blanks between them.
Whatever is neither is passed over, so that every text can be read.
-/

namespace SpacerTurning

open Number

/-! ## Comments -/

/-- A line with something else in place of every comment.  The first argument says whether a comment
is open; one that is never closed goes on to the end. -/
def replaceComments (filler : List Char) : Bool → List Char → List Char
  | _, [] => []
  | true, c :: cs => replaceComments filler (c != ')') cs
  | false, c :: cs =>
    if c = '(' then filler ++ replaceComments filler true cs
    else c :: replaceComments filler false cs

/-- The comments of a line, without their parentheses.  The first argument is what is read of an
open one, in reverse. -/
def commentBodies : Option (List Char) → List Char → List (List Char)
  | none, [] => []
  | some body, [] => [body.reverse]
  | none, c :: cs => commentBodies (if c = '(' then some [] else none) cs
  | some body, c :: cs =>
    if c = ')' then body.reverse :: commentBodies none cs else commentBodies (some (c :: body)) cs

/-- The comments of a line that say anything, with a blank between them. -/
def commentOf (cs : List Char) : Option String :=
  match ((commentBodies none cs).map Text.trim).filter (· ≠ []) with
  | [] => none
  | bodies => some (" ".intercalate (bodies.map String.ofList))

/-- The code of a line: something in place of every comment, up to a semicolon. -/
def codeOf (filler cs : List Char) : List Char :=
  (replaceComments filler false cs).takeWhile (· != ';')

/-! ## Words -/

/-- A part of a line: a letter with a number, or any other character. -/
inductive Piece where
  | word (letter : Char) (gap number : List Char)
  | other (c : Char)
deriving DecidableEq, Repr

def Piece.text : Piece → List Char
  | .word letter gap number => letter :: (gap ++ number)
  | .other c => [c]

def signPart : List Char → List Char
  | c :: _ => if c = '-' ∨ c = '+' then [c] else []
  | [] => []

/-- Digits with at most one point at the front of a text, if it starts with some. -/
def unsignedPart (cs : List Char) : List Char :=
  match cs.takeWhile Text.isDecimalDigit with
  | [] =>
    match cs with
    | '.' :: rest =>
      match rest.takeWhile Text.isDecimalDigit with
      | [] => []
      | ds => '.' :: ds
    | _ => []
  | ds =>
    match cs.drop ds.length with
    | '.' :: rest => ds ++ '.' :: rest.takeWhile Text.isDecimalDigit
    | _ => ds

/-- The blanks and the number at the front of a text, if there is a number. -/
def numberPart (cs : List Char) : Option (List Char × List Char) :=
  let gap := cs.takeWhile Text.isBlank
  let rest := cs.drop gap.length
  let sign := signPart rest
  match unsignedPart (rest.drop sign.length) with
  | [] => none
  | number => some (gap, sign ++ number)

/-- The parts of a line.  The first argument counts the characters that belong to the word before
them. -/
def pieces : Nat → List Char → List Piece
  | _, [] => []
  | skip + 1, _ :: cs => pieces skip cs
  | 0, c :: cs =>
    if c.isAlpha then
      match numberPart cs with
      | some (gap, number) => .word c gap number :: pieces (gap.length + number.length) cs
      | none => .other c :: pieces 0 cs
    else .other c :: pieces 0 cs

/-- An address word, as in `X2.5`. -/
structure AddressWord (α : Type) where
  /-- A capital. -/
  letter : Char
  value : α
deriving Repr, DecidableEq

/-- What a motion word asks for. -/
inductive MotionWord where
  | rapid
  | linear
  | arcCw
  | arcCcw
deriving DecidableEq, Repr

/-- The motion word of a preparatory code. -/
def MotionWord.ofCode? : Nat → Option MotionWord
  | 0 => some .rapid
  | 1 => some .linear
  | 2 => some .arcCw
  | 3 => some .arcCcw
  | _ => none

/-- A line of a program, as it is read. -/
structure Line (α : Type) where
  /-- Lines are counted from one. -/
  number : Nat
  raw : String
  words : List (AddressWord α)
  comment : Option String
deriving Repr, DecidableEq

variable {α : Type} [Scalar α]

def Piece.word? : Piece → Option (AddressWord α)
  | .word letter _ number =>
    (Word.read number).map fun value => { letter := letter.toUpper, value }
  | .other _ => none

namespace AddressWord

/-- The number of a word that is whole and not negative. -/
def code? (w : AddressWord α) : Option Nat :=
  let whole := Scalar.round w.value
  if w.value ≥ 0 ∧ Scalar.magnitude (w.value - whole) < 0.000000001 then
    some (Scalar.toNatWithin Scalar.codeLimit whole)
  else none

end AddressWord

namespace Line

def parse (number : Nat) (raw : String) : Line α where
  number
  raw
  words := (pieces 0 (codeOf [' '] raw.toList)).filterMap Piece.word?
  comment := commentOf raw.toList

omit [Scalar α] in
/-- The value of the first word with a letter. -/
def value? (l : Line α) (letter : Char) : Option α :=
  (l.words.find? fun w => w.letter = letter).map (·.value)

omit [Scalar α] in
def x? (l : Line α) : Option α := l.value? 'X'

omit [Scalar α] in
def z? (l : Line α) : Option α := l.value? 'Z'

omit [Scalar α] in
def feed? (l : Line α) : Option α := l.value? 'F'

def tool? (l : Line α) : Option Nat :=
  (l.words.find? fun w => w.letter = 'T').bind (·.code?)

/-- There is a word with a letter and a code. -/
def has (l : Line α) (letter : Char) (code : Nat) : Bool :=
  l.words.any fun w => w.letter = letter && w.code? == some code

/-- The last motion word. -/
def motionWord? (l : Line α) : Option MotionWord :=
  ((l.words.filter fun w => w.letter = 'G').filterMap fun w =>
    w.code?.bind MotionWord.ofCode?).getLast?

def isMachine (l : Line α) : Bool := l.has 'G' 53

omit [Scalar α] in
def hasAxis (l : Line α) : Bool := l.x?.isSome || l.z?.isSome

omit [Scalar α] in
/-- The comment in capitals; nothing when there is none. -/
def commentCapitals (l : Line α) : List Char := Text.capitalize (l.comment.getD "").toList

omit [Scalar α] in
/-- The code, without blanks around it. -/
def codeText (l : Line α) : String := String.ofList (Text.trim (codeOf [] l.raw.toList))

/-- Reads lines, counting from a number. -/
def parseFrom : Nat → List String → List (Line α)
  | _, [] => []
  | n, raw :: rest => parse n raw :: parseFrom (n + 1) rest

def parseAll (raws : List String) : List (Line α) := parseFrom 1 raws

def parseText (text : String) : List (Line α) := parseAll (Text.splitLines text)

end Line
end SpacerTurning
