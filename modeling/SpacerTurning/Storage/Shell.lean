import SpacerTurning.Storage.Files

/-!
What commands work on.

A command reads and writes files, reads its input and prints.  It is written over any monad with
these operations.  A `Session` holds all of them as a value, so that a run of a command is a
function from sessions to sessions.
-/

namespace SpacerTurning

/-- The operations that commands use. -/
class Shell (m : Type → Type) where
  readText : Path → m (Except IoFault String)
  /-- Replaces the file if there is one. -/
  writeText : Path → String → m (Except IoFault Unit)
  /-- A path leads to something. -/
  holds : Path → m Bool
  /-- Makes the directories that a path leads through. -/
  makeParents : Path → m (Except IoFault Unit)
  /-- The whole input. -/
  readInput : m (Except IoFault String)
  /-- To the output. -/
  print : String → m Unit
  /-- To where faults are told. -/
  report : String → m Unit

/-- Files, a directory to work in, and what is read and printed. -/
structure Session where
  files : Files
  here : Place
  input : String := ""
  output : String := ""
  reports : String := ""

namespace Session

/-- What an operation on files leaves behind. -/
def keep (s : Session) : Except IoFault Files → Except IoFault Unit × Session
  | .ok files => (.ok (), { s with files })
  | .error fault => (.error fault, s)

end Session

instance : Shell (StateM Session) where
  readText p s := (s.files.readText s.here p, s)
  writeText p text s := s.keep (s.files.write s.here p text.toUTF8)
  holds p s := (s.files.holds s.here p, s)
  makeParents p s :=
    match s.files.makeParents s.here p with
    | (files, none) => (.ok (), { s with files })
    | (files, some fault) => (.error fault, { s with files })
  readInput s := (.ok s.input, { s with input := "" })
  print text s := ((), { s with output := s.output ++ text })
  report text s := ((), { s with reports := s.reports ++ text })

end SpacerTurning
