import SpacerTurning.Document.Toml.Value

/-!
Documents in TOML.

A text is a run of lines, each of which is a header, a key with its value, or nothing.  A header
chooses the table that the keys below it belong to.
-/

namespace SpacerTurning
namespace Toml

/-- What has been read so far: the whole table, and the header that is in force. -/
structure Reading where
  entries : Entries
  header : List String

/-- A list may be longer than a record, and a name may be the key of an empty table or list. -/
def dialect : Dialect where
  longLists := true
  isEmptyContent
    | .table [] | .list [] => true
    | _ => false

/-- What is left behind blanks, a comment and a line end, or nothing at the end of the text. -/
def afterLine (cs : List Char) : Option (List Char) :=
  match afterComment (cs.dropWhile isBlank) with
  | [] => some []
  | rest => lineEnd? rest

/-- The rest of a line with a header, behind its opening bracket. -/
def header (r : Reading) (cs : List Char) : Option (Reading × List Char) :=
  match cs with
  | '[' :: rest =>
    match key rest with
    | some (path, ']' :: ']' :: rest) =>
      (addTable path r.entries).map fun entries => ({ entries, header := path }, rest)
    | _ => none
  | _ =>
    match key cs with
    | some (path, ']' :: rest) =>
      (openTable path r.entries).map fun entries => ({ entries, header := path }, rest)
    | _ => none

def pair (r : Reading) (cs : List Char) : Option (Reading × List Char) :=
  match key cs with
  | some (path, '=' :: rest) => do
    let (d, rest) ← value (rest.length + 1) (depthLimit - 1) (rest.dropWhile isBlank)
    let entries ← within r.header (assign path d) r.entries
    return ({ r with entries }, rest)
  | _ => none

/-- Reads line after line.  The fuel bounds their number. -/
def readLines : Nat → Reading → List Char → Option Entries
  | 0, r, _ => some r.entries
  | fuel + 1, r, cs =>
    let found := match cs.dropWhile isBlank with
      | [] => some (r, [])
      | '#' :: rest => some (r, '#' :: rest)
      | '[' :: rest => header r rest
      | '\n' :: rest => some (r, '\n' :: rest)
      | '\r' :: rest => some (r, '\r' :: rest)
      | rest => pair r rest
    match found with
    | none => none
    | some (r, rest) =>
      match afterLine rest with
      | none => none
      | some [] => some r.entries
      | some rest => readLines fuel r rest

/-- A mark of the encoding at the front of a text does not belong to it. -/
def dropMark : List Char → List Char
  | '\ufeff' :: rest => rest
  | cs => cs

def read (text : String) : Option Document :=
  let cs := dropMark text.toList
  (readLines (cs.length + 1) { entries := [], header := [] } cs).map fun entries =>
    .table (entriesDocument entries)

end Toml
end SpacerTurning
