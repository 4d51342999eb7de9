import SpacerTurning.Settings.Config
import SpacerTurning.Document.Basic

/-!
Settings as documents.

How configurations and standards stand in a document: every field under its name, in a fixed order.
A configuration may leave out what it takes from the shop; standards may leave out rules and limits.
-/

namespace SpacerTurning

open Number

namespace Document

def nat (n : Nat) : Document := .integer n

def ofOption {β : Type} (f : β → Document) : Option β → Document
  | some b => f b
  | none => .null

end Document

open Document

/-- Takes the fields that a record has, and leaves the others as they are. -/
def Field.readAll {σ β : Type} (record : Record) (read : Document → Option β) :
    List (Field σ β) → σ → Option σ
  | [], s => some s
  | f :: rest, s => do
    let v ← record.orElse f.name read (f.get s)
    readAll record read rest (f.set v s)

/-- Largest number that a count of lines takes. -/
def lineCountLimit : Nat := Scalar.countLimit

namespace CuttingConstants

def document (c : CuttingConstants Float) : Document :=
  .table (fields.map fun f => (f.name, .number (f.get c)))

/-- The constants of a document; those of the shop where it has none. -/
def ofDocument? (dialect : Dialect) (d : Document) : Option (CuttingConstants Float) := do
  let names := (fields (α := Float)).map (·.name)
  Field.readAll (← d.record? dialect names) number? fields standard

end CuttingConstants

namespace CheckingConstants

def document (c : CheckingConstants Float) : Document :=
  .table ((counts.map fun f => (f.name, .integer (f.get c)))
    ++ fields.map fun f => (f.name, .number (f.get c)))

/-- The constants of a document; those of the shop where it has none. -/
def ofDocument? (dialect : Dialect) (d : Document) : Option (CheckingConstants Float) := do
  let names := (counts (α := Float)).map (·.name) ++ (fields (α := Float)).map (·.name)
  let record ← d.record? dialect names
  Field.readAll record number? fields
    (← Field.readAll record (natUpTo? lineCountLimit) counts standard)

end CheckingConstants

namespace Config

def document (c : Config Float) : Document :=
  .table ((c.standardsPath.map fun path => ("standards_path", Document.text path)).toList
    ++ [("generator", c.generator.document), ("verifier", c.verifier.document)])

def ofDocument? (dialect : Dialect) (d : Document) : Option (Config Float) := do
  let record ← d.record? dialect ["standards_path", "generator", "verifier"]
  let standardsPath ← record.optional "standards_path" text?
  let generator ← record.orElse "generator" (CuttingConstants.ofDocument? dialect) .standard
  let verifier ← record.orElse "verifier" (CheckingConstants.ofDocument? dialect) .standard
  return { standardsPath, generator, verifier }

end Config

/-- The lathe with a given name in a record file. -/
def LatheId.ofName? (text : String) : Option LatheId := LatheId.all.find? fun id => id.name = text

namespace KindRule

def document (r : KindRule Float) : Document :=
  .table [("spacer_type", .text r.kind.tag), ("min_thickness", ofOption .number r.minThickness),
    ("max_thickness", ofOption .number r.maxThickness),
    ("max_hub_height", ofOption .number r.maxHubHeight)]

def ofDocument? (dialect : Dialect) (d : Document) : Option (KindRule Float) := do
  let record ← d.record? dialect
    ["spacer_type", "min_thickness", "max_thickness", "max_hub_height"]
  return {
    kind := ← record.required "spacer_type" (name? dialect SpacerKind.ofTag?)
    minThickness := ← record.optional "min_thickness" number?
    maxThickness := ← record.optional "max_thickness" number?
    maxHubHeight := ← record.optional "max_hub_height" number? }

end KindRule

namespace LatheRecord

def document (r : LatheRecord Float) : Document :=
  .table [("lathe", .text r.lathe.name), ("round_sizes", .list (r.roundSizes.map .number)),
    ("chuck_capacity", .number r.chuckCapacity), ("min_thickness", .number r.minThickness),
    ("max_thickness", .number r.maxThickness), ("max_drill_depth", .number r.maxDrillDepth),
    ("piece_types", .list (r.rules.map KindRule.document))]

def ofDocument? (dialect : Dialect) (d : Document) : Option (LatheRecord Float) := do
  let record ← d.record? dialect ["lathe", "round_sizes", "chuck_capacity", "min_thickness",
    "max_thickness", "max_drill_depth", "piece_types"]
  return {
    lathe := ← record.required "lathe" (name? dialect LatheId.ofName?)
    roundSizes := ← record.required "round_sizes" (listOf? number?)
    chuckCapacity := ← record.required "chuck_capacity" number?
    minThickness := ← record.required "min_thickness" number?
    maxThickness := ← record.required "max_thickness" number?
    maxDrillDepth := ← record.required "max_drill_depth" number?
    rules := ← record.orElse "piece_types" (listOf? (KindRule.ofDocument? dialect)) [] }

end LatheRecord

namespace Standards

def document (s : Standards Float) : Document :=
  .table [("lathes", .list (s.records.map LatheRecord.document))]

def ofDocument? (dialect : Dialect) (d : Document) : Option (Standards Float) := do
  let record ← d.record? dialect ["lathes"]
  return { records := ← record.required "lathes" (listOf? (LatheRecord.ofDocument? dialect)) }

end Standards
end SpacerTurning
