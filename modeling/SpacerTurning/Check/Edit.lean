import SpacerTurning.Check.Line

/-!
Changing a line.

A line is mended in its code, in front of the first comment.
-/

namespace SpacerTurning
namespace Edit

/-- The code in front of the first comment, and the rest. -/
def splitComment (cs : List Char) : List Char × List Char :=
  (cs.takeWhile (· != '('), cs.dropWhile (· != '('))

/-- Puts a text in place of the first word with a letter, small or capital. -/
def replaceFirst (letter : Char) (replacement : List Char) : List Piece → List Char
  | [] => []
  | .word l gap number :: rest =>
    if l.toUpper = letter.toUpper then replacement ++ rest.flatMap Piece.text
    else (Piece.word l gap number).text ++ replaceFirst letter replacement rest
  | .other c :: rest => c :: replaceFirst letter replacement rest

/-- A line with a text in place of the first word with a letter.  A line without one stays. -/
def replaceWord (raw : String) (letter : Char) (replacement : String) : String :=
  let (code, comment) := splitComment raw.toList
  String.ofList (replaceFirst letter replacement.toList (pieces 0 code) ++ comment)

/-- A line with a word at the end of its code. -/
def insertBeforeComment (raw word : String) : String :=
  let (code, comment) := splitComment raw.toList
  let front := Text.trimEnd code ++ ' ' :: word.toList
  String.ofList (if comment = [] then front else front ++ ' ' :: comment)

/-- The sequence number at the front of a line: the letter and at least one digit. -/
def sequencePart : List Char → List Char
  | c :: cs =>
    if c = 'N' ∨ c = 'n' then
      match cs.takeWhile Char.isDigit with
      | [] => []
      | ds => c :: ds
    else []
  | [] => []

/-- A line with a word at its front, behind a sequence number. -/
def prependWord (raw word : String) : String :=
  let text := Text.trimStart raw.toList
  match sequencePart text with
  | [] => String.ofList (word.toList ++ ' ' :: text)
  | sequence =>
    let rest := Text.trimStart (text.drop sequence.length)
    String.ofList (Text.trimEnd (sequence ++ ' ' :: (word.toList ++ ' ' :: rest)))

end Edit
end SpacerTurning
