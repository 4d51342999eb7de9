import SpacerTurning.Storage.Directory
import SpacerTurning.Storage.Path

/-!
Stored files.

`Files` is a tree of directories as it is reached through paths.  Every operation returns the tree
it leaves behind, or why it did nothing, so that what a command does to files can be read off its
result.
-/

namespace SpacerTurning

/-- Why nothing was read or written. -/
inductive IoFault where
  | notFound
  | notADirectory
  | isADirectory
  | alreadyExists
  /-- The bytes are no text. -/
  | invalidData
  /-- The path has a character that no path may have. -/
  | invalidInput
  | nameTooLong
  /-- Any other reason, in the words of the system. -/
  | other (reason : String)
deriving DecidableEq, Repr

namespace IoFault

def message : IoFault → String
  | .notFound => "no such file or directory"
  | .notADirectory => "not a directory"
  | .isADirectory => "is a directory"
  | .alreadyExists => "already exists"
  | .invalidData => "the file is not valid UTF-8"
  | .invalidInput => "the path has a NUL in it"
  | .nameTooLong => "the name is too long"
  | .other reason => reason

end IoFault

/-- A tree of directories. -/
structure Files where
  root : Directory := .empty

/-- A way into the tree: the names that lead to a place, the last one first, each with what is found
there. -/
abbrev Trail := List (String × Option Entry)

def Trail.place (trail : Trail) : Place := trail.map (·.1)

/-- Longest name, in bytes. -/
def nameLimit : Nat := 255

/-- Longest path, in bytes. -/
def pathLimit : Nat := 4095

namespace Files

/-! ## Places -/

/-- What is found at the end of a trail. -/
def reached (files : Files) : Trail → Option Entry
  | [] => some (.directory files.root)
  | (_, found) :: _ => found

def extend (files : Files) (trail : Trail) (name : String) : Trail :=
  (name, (files.reached trail).bind (·.get? name)) :: trail

def trailTo (files : Files) : Place → Trail
  | [] => []
  | name :: above => files.extend (files.trailTo above) name

/-- What is found at a place. -/
def entryAt? (files : Files) (place : Place) : Option Entry := files.reached (files.trailTo place)

/-- The directory at the end of a trail.  Where there is none, it is as if it were empty. -/
def inside (files : Files) (trail : Trail) : Directory :=
  match files.reached trail with
  | some (.directory inside) => inside
  | _ => .empty

/-- The tree with something put at the end of a trail. -/
def put (files : Files) : Trail → Entry → Files
  | [], .directory root => { root }
  | [], .file _ => files
  | (name, _) :: above, entry =>
    files.put above (.directory ((files.inside above).insert name entry))

theorem entryAt?_cons (files : Files) (name : String) (above : Place) :
    files.entryAt? (name :: above) = (files.entryAt? above).bind (·.get? name) := rfl

/-- A directory that is put somewhere is found there. -/
theorem entryAt?_put_directory (files : Files) (trail : Trail) (d : Directory) :
    (files.put trail (.directory d)).entryAt? trail.place = some (.directory d) := by
  induction trail generalizing d with
  | nil => rfl
  | cons step above ih =>
    show (files.put above _).entryAt? (step.1 :: Trail.place above) = _
    rw [entryAt?_cons, ih]
    exact Directory.get?_insert_self _ _ _

/-- What is put somewhere below the root is found there. -/
theorem entryAt?_put_self (files : Files) (name : String) (found : Option Entry) (above : Trail)
    (entry : Entry) :
    (files.put ((name, found) :: above) entry).entryAt? (name :: above.place) = some entry := by
  show (files.put above _).entryAt? (name :: above.place) = _
  rw [entryAt?_cons, entryAt?_put_directory]
  exact Directory.get?_insert_self _ _ _

/-! ## Paths -/

/-- Nothing stands against a step from the end of a trail if it is a directory. -/
def enter (files : Files) (trail : Trail) : Except IoFault Unit :=
  match files.reached trail with
  | none => .error .notFound
  | some (.file _) => .error .notADirectory
  | some (.directory _) => .ok ()

/-- The trail that steps make longer.  Every step is taken from within a directory. -/
def follow (files : Files) : Trail → List String → Except IoFault Trail
  | trail, [] => .ok trail
  | trail, name :: rest =>
    match files.enter trail with
    | .error fault => .error fault
    | .ok () =>
      if name = "." then follow files trail rest
      else if name = ".." then follow files trail.tail rest
      else if nameLimit < name.utf8ByteSize then .error .nameTooLong
      else follow files (files.extend trail name) rest

/-- Where the steps of a path start, if it is one that can be followed at all. -/
def start (here : Place) (p : Path) : Except IoFault Place :=
  if p.hasNul then .error .invalidInput
  else if p.text = "" then .error .notFound
  else if pathLimit < p.text.utf8ByteSize then .error .nameTooLong
  else .ok (if p.isAbsolute then [] else here)

def locate (files : Files) (here : Place) (p : Path) : Except IoFault Trail :=
  match start here p with
  | .error fault => .error fault
  | .ok place => files.follow (files.trailTo place) p.steps

/-! ## Reading -/

def find (files : Files) (here : Place) (p : Path) : Except IoFault Entry :=
  match files.locate here p with
  | .error fault => .error fault
  | .ok trail =>
    match files.reached trail with
    | none => .error .notFound
    | some (.directory inside) => .ok (.directory inside)
    | some (.file content) =>
      if p.endsWithSlash then .error .notADirectory else .ok (.file content)

def holds (files : Files) (here : Place) (p : Path) : Bool :=
  match files.find here p with
  | .ok _ => true
  | .error _ => false

def read (files : Files) (here : Place) (p : Path) : Except IoFault ByteArray :=
  match files.find here p with
  | .error fault => .error fault
  | .ok (.directory _) => .error .isADirectory
  | .ok (.file content) => .ok content

def readText (files : Files) (here : Place) (p : Path) : Except IoFault String :=
  match files.read here p with
  | .error fault => .error fault
  | .ok content =>
    match String.fromUTF8? content with
    | some text => .ok text
    | none => .error .invalidData

/-! ## Writing -/

/-- Why nothing can be written to a path that says it leads to a directory.  Its last name is not
looked at. -/
def directoryFault (files : Files) (here : Place) (p : Path) : IoFault :=
  match start here p with
  | .error fault => fault
  | .ok place =>
    match files.follow (files.trailTo place) p.steps.dropLast with
    | .error fault => fault
    | .ok above =>
      match files.enter above with
      | .error fault => fault
      | .ok () => .isADirectory

/-- The trail of a file to be written. -/
def writable (files : Files) (here : Place) (p : Path) : Except IoFault Trail :=
  if p.endsWithSlash then .error (files.directoryFault here p)
  else
    match files.locate here p with
    | .error fault => .error fault
    | .ok trail =>
      match files.reached trail with
      | some (.directory _) => .error .isADirectory
      | _ => .ok trail

def write (files : Files) (here : Place) (p : Path) (content : ByteArray) : Except IoFault Files :=
  (files.writable here p).map fun trail => files.put trail (.file content)

/-- The tree with a directory made where steps lead from a place. -/
def makeDirectory (files : Files) (place : Place) (steps : List String) : Except IoFault Files :=
  match files.follow (files.trailTo place) steps with
  | .error fault => .error fault
  | .ok trail =>
    match files.reached trail with
    | some _ => .error .alreadyExists
    | none => .ok (files.put trail (.directory .empty))

def isDirectory (files : Files) (place : Place) (steps : List String) : Bool :=
  match files.follow (files.trailTo place) steps with
  | .error _ => false
  | .ok trail =>
    match files.reached trail with
    | some (.directory _) => true
    | _ => false

/-- The tree that an attempt to make a directory leaves.  It is no fault if there is one already. -/
def settle (files : Files) (place : Place) (steps : List String) :
    Except IoFault Files → Files × Option IoFault
  | .ok made => (made, none)
  | .error fault => (files, if files.isDirectory place steps then none else some fault)

/-- Makes a directory and those above it, as far as there are none.  The steps that lead to it from a
place come last one first.  Directories that were made before a fault stay. -/
def makeDirectories (files : Files) (place : Place) : List String → Files × Option IoFault
  | [] => (files, none)
  | name :: above =>
    if name = "." then makeDirectories files place above
    else
      let steps := (name :: above).reverse
      match files.makeDirectory place steps with
      | .error .notFound =>
        match makeDirectories files place above with
        | (made, none) => made.settle place steps (made.makeDirectory place steps)
        | failed => failed
      | attempt => files.settle place steps attempt

/-- Makes the directories that a path leads through. -/
def makeParents (files : Files) (here : Place) (p : Path) : Files × Option IoFault :=
  let above := (p.segments.reverse.dropWhile Path.isIdle).tail.dropWhile Path.isIdle
  if above = [] then (files, none)
  else
    match start here (Path.ofSegments above.reverse) with
    | .error fault => (files, some fault)
    | .ok place => files.makeDirectories place (above.filter (· ≠ ""))

end Files
end SpacerTurning
