import SpacerTurning.Number.Binary64

/-!
Documents.

Settings, standards and reports pass through a tree of plain values, which one notation or another
writes down.  `Document` is that tree, and the functions here take records out of it.  A record is
a table of its fields; a list stands for the fields in their order.
-/

namespace SpacerTurning

open Number

/-- A tree of plain values. -/
inductive Document where
  | null
  | bool (value : Bool)
  | integer (value : Int)
  | number (value : Float)
  | text (value : String)
  | list (items : List Document)
  /-- Entries in the order in which they are written. -/
  | table (entries : List (String × Document))
  /-- Written properly, but beyond what can be held: a number out of range, half a character, or a
  table with half a character in a key. -/
  | beyond
deriving Inhabited

/-- In what notations differ when a record is taken out of a document. -/
structure Dialect where
  /-- A list that is longer than the record is no fault. -/
  longLists : Bool
  /-- What a name without content may be paired with. -/
  isEmptyContent : Document → Bool

namespace Document

def bool? : Document → Option Bool
  | .bool b => some b
  | _ => none

def text? : Document → Option String
  | .text s => some s
  | _ => none

/-- A number, written as whole or not. -/
def number? : Document → Option Float
  | .number x => some x
  | .integer n => some (Float.ofInt n)
  | _ => none

/-- A whole number from zero to a limit. -/
def natUpTo? (limit : Nat) : Document → Option Nat
  | .integer n => if 0 ≤ n ∧ n ≤ limit then some n.toNat else none
  | _ => none

def listOf? {β : Type} (read : Document → Option β) : Document → Option (List β)
  | .list items => items.mapM read
  | _ => none

/-- A value, or its absence. -/
def option? {β : Type} (read : Document → Option β) : Document → Option (Option β)
  | .null => some none
  | d => (read d).map some

/-- A name out of a set of names, alone or as the key of nothing. -/
def name? {β : Type} (dialect : Dialect) (ofName : String → Option β) : Document → Option β
  | .text s => ofName s
  | .table [(s, content)] => if dialect.isEmptyContent content then ofName s else none
  | _ => none

/-- The fields of a record that are there. -/
abbrev Record := List (String × Document)

/-- No name is there twice. -/
def namedOnce (record : Record) : Bool := decide (record.map (·.1)).Nodup

/-- The fields of a record with given names.  Other entries are passed over, and a list may end
early. -/
def record? (dialect : Dialect) (names : List String) : Document → Option Record
  | .table entries =>
    let record := entries.filter fun e => names.contains e.1
    if namedOnce record then some record else none
  | .list items =>
    if items.length ≤ names.length ∨ dialect.longLists then some (names.zip items) else none
  | _ => none

/-- The fields of a record that has no value to take for any of them: a list gives every field its
place, though a table may leave out those that may be absent. -/
def fullRecord? (dialect : Dialect) (names : List String) (d : Document) : Option Record :=
  match d with
  | .list items => if items.length < names.length then none else d.record? dialect names
  | _ => d.record? dialect names

namespace Record

def required {β : Type} (record : Record) (name : String) (read : Document → Option β) :
    Option β :=
  (record.lookup name).bind read

/-- A field that has a value to take when it is not there. -/
def orElse {β : Type} (record : Record) (name : String) (read : Document → Option β)
    (fallback : β) : Option β :=
  match record.lookup name with
  | some d => read d
  | none => some fallback

def optional {β : Type} (record : Record) (name : String) (read : Document → Option β) :
    Option (Option β) :=
  record.orElse name (option? read) none

end Record
end Document
end SpacerTurning
