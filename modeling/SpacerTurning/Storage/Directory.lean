/-!
Directories.

A directory holds files and further directories, one under each name.  What is put under a name
takes the place of what stood there, and nothing else changes.
-/

namespace SpacerTurning

-- File contents are compared by the core instance, also where a richer library is in scope.
attribute [local instance (high)] ByteArray.instDecidableEq

/-- What is in a directory. -/
inductive Directory where
  | empty
  | file (name : String) (content : ByteArray) (rest : Directory)
  | folder (name : String) (inside rest : Directory)
deriving DecidableEq

/-- What is found under a name. -/
inductive Entry where
  | file (content : ByteArray)
  | directory (inside : Directory)
deriving DecidableEq

/-- The names that lead to a place, the last one first. -/
abbrev Place := List String

namespace Directory

/-- What stands under a name. -/
def get? (name : String) : Directory → Option Entry
  | .empty => none
  | .file n content rest => if n = name then some (.file content) else rest.get? name
  | .folder n inside rest => if n = name then some (.directory inside) else rest.get? name

def erase (name : String) : Directory → Directory
  | .empty => .empty
  | .file n content rest =>
    if n = name then rest.erase name else .file n content (rest.erase name)
  | .folder n inside rest =>
    if n = name then rest.erase name else .folder n inside (rest.erase name)

/-- The directory with something under a name. -/
def insert (d : Directory) (name : String) : Entry → Directory
  | .file content => .file name content (d.erase name)
  | .directory inside => .folder name inside (d.erase name)

/-- The files in a directory and below it, each with its place, for the place of the directory. -/
def files (above : Place) : Directory → List (Place × ByteArray)
  | .empty => []
  | .file name content rest => (name :: above, content) :: rest.files above
  | .folder name inside rest => inside.files (name :: above) ++ rest.files above

theorem get?_erase_of_ne {name other : String} (h : other ≠ name) (d : Directory) :
    (d.erase name).get? other = d.get? other := by
  induction d with
  | empty => rfl
  | file n content rest ih => by_cases hn : n = name <;> simp_all [erase, get?, h.symm]
  | folder n inside rest _ ih => by_cases hn : n = name <;> simp_all [erase, get?, h.symm]

theorem get?_insert_self (d : Directory) (name : String) (entry : Entry) :
    (d.insert name entry).get? name = some entry := by
  cases entry <;> simp [insert, get?]

theorem get?_insert_of_ne {name other : String} (h : other ≠ name) (d : Directory) (entry : Entry) :
    (d.insert name entry).get? other = d.get? other := by
  cases entry <;> simp [insert, get?, h.symm, get?_erase_of_ne h]

end Directory

/-- What stands under a name in what was found.  Nothing does in a file. -/
def Entry.get? (name : String) : Entry → Option Entry
  | .file _ => none
  | .directory inside => inside.get? name

end SpacerTurning
