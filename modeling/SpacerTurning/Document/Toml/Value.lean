import SpacerTurning.Document.Toml.Scalar

/-!
Values of TOML.

A value is a scalar, a list over any number of lines, or a table on one line.  Keys with points in
them reach into tables inside tables, which come into being on the way; a table that was written in
another way may not be reached into.
-/

namespace SpacerTurning
namespace Toml

/-- A name, in quotes or bare. -/
def name (cs : List Char) : Option (String × List Char) :=
  match cs with
  | '"' :: rest => basicText (rest.length + 1) rest []
  | '\'' :: rest => literalText rest
  | _ =>
    match cs.takeWhile isBare with
    | [] => none
    | ns => some (String.ofList ns, cs.dropWhile isBare)

/-- How deep lists and tables may stand in each other, and how many names a key may have: fewer than
this. -/
def depthLimit : Nat := 80

/-- Names with points between them, and blanks around each, of which there may be so many. -/
def names : Nat → List Char → Option (List String × List Char)
  | 0, _ => none
  | more + 1, cs => do
    let (n, rest) ← name (cs.dropWhile isBlank)
    match rest.dropWhile isBlank with
    | '.' :: rest => do
      let (ns, rest) ← names more rest
      return (n :: ns, rest)
    | rest => return ([n], rest)

def key (cs : List Char) : Option (List String × List Char) := names (depthLimit - 1) cs

/-! ## Tables in the making -/

/-- What a name in a table stands for while the text is read. -/
inductive Node where
  | value (d : Document)
  /-- A table.  `implied` ones came into being on the way to another table, and of those `dotted`
  ones on the way to a value. -/
  | table (implied dotted : Bool) (entries : List (String × Node))
  /-- A list of tables that headers add to. -/
  | tables (items : List (List (String × Node)))

/-- The entries of a table in the making. -/
abbrev Entries := List (String × Node)

def update (n : String) (f : Option Node → Option Node) : Entries → Option Entries
  | [] => (f none).map fun node => [(n, node)]
  | (m, node) :: rest =>
    if m = n then (f (some node)).map fun node => (m, node) :: rest
    else (update n f rest).map ((m, node) :: ·)

/-- Changes the last of a list of tables. -/
def updateLast (f : Entries → Option Entries) : List Entries → Option (List Entries)
  | [] => none
  | [last] => (f last).map fun entries => [entries]
  | first :: rest => (updateLast f rest).map (first :: ·)

def assign : List String → Document → Entries → Option Entries
  | [], _, _ => none
  | [n], d, entries =>
    update n (fun
      | none => some (.value d)
      | some _ => none) entries
  | n :: m :: path, d, entries =>
    update n (fun
      | none => (assign (m :: path) d []).map (.table true true)
      | some (.table implied dotted inner) =>
        if implied ∧ (dotted ∨ path ≠ []) then
          (assign (m :: path) d inner).map (.table implied dotted)
        else none
      | some (.tables items) =>
        if path = [] then none
        else (updateLast (assign (m :: path) d) items).map .tables
      | some (.value _) => none) entries

/-- Changes the table that a header names. -/
def within : List String → (Entries → Option Entries) → Entries → Option Entries
  | [], f, entries => f entries
  | n :: path, f, entries =>
    update n (fun
      | none => (within path f []).map (.table true false)
      | some (.table implied dotted inner) =>
        (within path f inner).map (.table implied dotted)
      | some (.tables items) => (updateLast (within path f) items).map .tables
      | some (.value _) => none) entries

/-- Opens a table.  It may be there only as one that another table implied. -/
def openTable (path : List String) (entries : Entries) : Option Entries :=
  match path.getLast? with
  | none => none
  | some n =>
    within path.dropLast (update n fun
      | none => some (.table false false [])
      | some (.table true false inner) => some (.table false false inner)
      | some _ => none) entries

def addTable (path : List String) (entries : Entries) : Option Entries :=
  match path.getLast? with
  | none => none
  | some n =>
    within path.dropLast (update n fun
      | none => some (.tables [[]])
      | some (.tables items) => some (.tables (items ++ [[]]))
      | some _ => none) entries

mutual

/-- The document of what a name stands for. -/
def Node.document : Node → Document
  | .value d => d
  | .table _ _ entries => .table (entriesDocument entries)
  | .tables items => .list (itemsDocument items)

def entriesDocument : List (String × Node) → List (String × Document)
  | [] => []
  | (n, node) :: rest => (n, node.document) :: entriesDocument rest

def itemsDocument : List (List (String × Node)) → List Document
  | [] => []
  | entries :: rest => .table (entriesDocument entries) :: itemsDocument rest

end

/-! ## Values -/

def afterComment : List Char → List Char
  | '#' :: rest => rest.dropWhile isPrintable
  | cs => cs

/-- What is left behind blanks, comments and line ends.  The fuel bounds the number of lines. -/
def afterBlankLines : Nat → List Char → List Char
  | 0, cs => cs
  | fuel + 1, cs =>
    match lineEnd? (afterComment (cs.dropWhile isBlank)) with
    | some rest => afterBlankLines fuel rest
    | none => cs.dropWhile isBlank

mutual

/-- A value from the front of a text, in which so many lists and tables may stand in each other.
The fuel bounds the characters that are used up: a list has a bracket at either end, and an item has
one and a comma. -/
def value : Nat → Nat → List Char → Option (Document × List Char)
  | 0, _, _ => none
  | fuel + 1, depth, cs =>
    match cs with
    | '[' :: rest =>
      if depth = 0 then none
      else
        match afterBlankLines fuel rest with
        | ']' :: rest => some (.list [], rest)
        | rest => items fuel (depth - 1) rest []
    | '\x7b' :: rest =>
      if depth = 0 then none
      else
        match rest.dropWhile isBlank with
        | '\x7d' :: rest => some (.table [], rest)
        | rest => pairs fuel (depth - 1) rest []
    | 't' :: 'r' :: 'u' :: 'e' :: rest => some (.bool true, rest)
    | 'f' :: 'a' :: 'l' :: 's' :: 'e' :: rest => some (.bool false, rest)
    | c :: _ =>
      if c = '"' ∨ c = '\'' then (anyText cs).map fun (s, rest) => (.text s, rest)
      else numeric cs
    | [] => none

/-- The items of a list up to its end, with those already read in reverse. -/
def items : Nat → Nat → List Char → List Document → Option (Document × List Char)
  | 0, _, _, _ => none
  | fuel + 1, depth, cs, before =>
    match value fuel depth cs with
    | none => none
    | some (d, rest) =>
      match afterBlankLines fuel rest with
      | ']' :: rest => some (.list (d :: before).reverse, rest)
      | ',' :: rest =>
        match afterBlankLines fuel rest with
        | ']' :: rest => some (.list (d :: before).reverse, rest)
        | rest => items fuel depth rest (d :: before)
      | _ => none

/-- The pairs of a table on one line up to its end, with those already read. -/
def pairs : Nat → Nat → List Char → Entries → Option (Document × List Char)
  | 0, _, _, _ => none
  | fuel + 1, depth, cs, before =>
    match key cs with
    | some (path, '=' :: rest) =>
      match value fuel depth (rest.dropWhile isBlank) with
      | none => none
      | some (d, rest) =>
        match assign path d before with
        | none => none
        | some entries =>
          match rest.dropWhile isBlank with
          | ',' :: rest => pairs fuel depth rest entries
          | '\x7d' :: rest => some (.table (entriesDocument entries), rest)
          | _ => none
    | _ => none

end

end Toml
end SpacerTurning
