import SpacerTurning.Command.Basic
import SpacerTurning.Generation.Build
import SpacerTurning.Number.Word
import SpacerTurning.Program.Text
import SpacerTurning.Records.Report
import SpacerTurning.Settings.Load

/-!
Running commands.

Every command loads what it needs before it writes anything, and each writes at most one file, so a
command that fails before that leaves the files as they were.
-/

namespace SpacerTurning

open Number

/-- How a command ended that was carried out. -/
inductive Outcome where
  | clean
  /-- Something critical was found. -/
  | critical
deriving DecidableEq, Repr

namespace Outcome

def ofCritical (critical : Bool) : Outcome := if critical then .critical else .clean

def exitCode : Outcome → Nat
  | .clean => 0
  | .critical => 2

end Outcome

/-- Why a command was not carried out. -/
inductive RunFault where
  | config (path : Path) (fault : FileFault)
  | standards (fault : FileFault)
  | choice (fault : ChoiceFault Float)
  | part (refusal : Refusal Float)
  | program (number : Nat) (refusal : Refusal Float)
  | readFile (path : Path) (fault : IoFault)
  | readInput (fault : IoFault)
  | writeFile (path : Path) (fault : IoFault)
  | writeConfig (path : Path) (fault : FileFault)
  | showConfig (fault : FileFault)
  | fileThere (path : Path)
  | noDimensions
  | noConfigDirectory
deriving DecidableEq, Repr

/-- One part of the account that is given of a fault. -/
inductive Cause where
  | stated (text : String)
  /-- A file of settings could not be read or written. -/
  | fileIo (fault : IoFault)
  /-- A file of settings is not in its format. -/
  | malformed (format : SettingsFormat)
  | unwritable
  | io (fault : IoFault)
  /-- What a format finds wrong with a text. -/
  | form
deriving DecidableEq, Repr

namespace Cause

def message : Cause → String
  | .stated text => text
  | .fileIo fault => "settings file I/O failed: " ++ fault.message
  | .malformed .json => "invalid JSON settings"
  | .malformed .toml => "invalid TOML settings"
  | .unwritable => "cannot render TOML settings"
  | .io fault => fault.message
  | .form => "the text does not hold settings"

end Cause

/-- The account of a fault of a file, the outermost cause first. -/
def FileFault.causes : FileFault → List Cause
  | .io fault => [.fileIo fault, .io fault]
  | .malformed format => [.malformed format, .form]
  | .unwritable => [.unwritable, .stated "out-of-range value for u64 type"]
  | .rejected fault => [.stated fault.message]

/-- The account of a fault, the outermost cause first. -/
def RunFault.causes : RunFault → List Cause
  | .config path fault => .stated ("Failed to load config " ++ path.text) :: fault.causes
  | .standards fault => .stated "Failed to load standards" :: fault.causes
  | .choice fault => [.stated fault.message]
  | .part refusal => [.stated "Invalid part dimensions", .stated refusal.message]
  | .program number refusal =>
    [.stated ("Failed to generate " ++ numberWord number), .stated refusal.message]
  | .readFile path fault => [.stated ("Failed to read " ++ path.text), .io fault]
  | .readInput fault => [.stated "Failed to read program from stdin", .io fault]
  | .writeFile path fault => [.stated ("Failed to write " ++ path.text), .io fault]
  | .writeConfig path fault => .stated ("Failed to write " ++ path.text) :: fault.causes
  | .showConfig fault => fault.causes
  | .fileThere path => [.stated (path.text ++ " exists; use --force to replace it")]
  | .noDimensions => [.stated "no part dimensions given"]
  | .noConfigDirectory =>
    [.stated "No config directory on this platform", .stated "no config directory on linux"]

/-- The facts, if there are any. -/
def PartFacts.known? (f : PartFacts Float) : Option (PartFacts Float) :=
  if f.round.isSome || f.thickness.isSome || f.boreMm.isSome || f.hubMm.isSome
      || f.hubHeight.isSome || f.counterboreMm.isSome || f.lathe.isSome || f.kind.isSome then some f
  else none

namespace Run

variable {m : Type → Type} [Monad m] [Shell m]

def settle {ε β : Type} (fault : ε → RunFault) (result : Except ε β) : ExceptT RunFault m β :=
  ExceptT.mk (pure (result.mapError fault))

def attempt {ε β : Type} (fault : ε → RunFault) (action : m (Except ε β)) : ExceptT RunFault m β :=
  ExceptT.mk ((Except.mapError fault) <$> action)

def print (text : String) : ExceptT RunFault m Unit := ExceptT.lift (Shell.print text)

def report (text : String) : ExceptT RunFault m Unit := ExceptT.lift (Shell.report text)

def findings (ds : List (Diagnostic Float)) : String :=
  String.join (ds.map fun d => d.text ++ "\n")

/-- The settings: of the file that is named, or of the usual file if there is one. -/
def loadConfig (usual : Option Path) (named : Option Path) : ExceptT RunFault m (Config Float) :=
  match named, usual with
  | some path, _ => attempt (.config path) (Config.load path).run
  | none, some path => attempt (.config path) (Config.loadOrStandard path).run
  | none, none => return .standard

def loadStandards (c : Config Float) : ExceptT RunFault m (Standards Float) :=
  attempt .standards c.loadStandards.run

/-- An order with a lathe: the one it names, or the only one that runs its round size. -/
def chooseLathe (s : Standards Float) (order : Order Float) :
    Except (ChoiceFault Float) (Order Float) :=
  match order.lathe, order.round with
  | none, some round => (s.choose round).map fun lathe => { order with lathe := some lathe.name }
  | _, _ => .ok order

/-- Tells the findings of a program that was made.  The output may be carrying the program. -/
def tellFindings (c : CheckingConstants Float) (s : Standards Float) (p : Part Float)
    (text : String) : ExceptT RunFault m Outcome := do
  let found := Report.ofText c s text (some (.ofPart p))
  report (findings found.diagnostics)
  return .ofCritical found.hasCritical

/-- Writes a text to a file, or prints it. -/
def deliver (output : Option Path) (text : String) : ExceptT RunFault m Unit :=
  match output with
  | some path => attempt (.writeFile path) (Shell.writeText path text)
  | none => print text

def generate (c : Config Float) (making : Making) : ExceptT RunFault m Outcome := do
  let s ← loadStandards c
  let order ← settle .choice (chooseLathe s making.order)
  let p ← settle .part (order.build c.generator)
  let made ← settle (.program p.programNumber)
    (Program.build (s.lathes .standard) c.generator .none p)
  let outcome ← if making.check then tellFindings c.verifier s p made.text else pure .clean
  deliver making.output made.text
  return outcome

def readProgram (file : Path) : ExceptT RunFault m String :=
  if file.text = "-" then attempt .readInput Shell.readInput
  else attempt (.readFile file) (Shell.readText file)

def reportText (file : Path) (form : ReportForm) (r : Report Float) : String :=
  match form with
  | .json => Json.write r.document ++ "\n"
  | .text =>
    if r.diagnostics.isEmpty then file.text ++ ": no findings\n" else findings r.diagnostics

def verify (c : Config Float) (checking : Checking) : ExceptT RunFault m Outcome := do
  let s ← loadStandards c
  let text ← readProgram checking.file
  let r := Report.ofText c.verifier s text checking.facts.known?
  print (reportText checking.file checking.form r)
  match checking.fix, r.fixedText with
  | some path, some fixed => attempt (.writeFile path) (Shell.writeText path fixed)
  | _, _ => pure ()
  return .ofCritical r.hasCritical

def feasibilityText (form : ReportForm) (r : FeasibilityReport Float) : String :=
  match form with
  | .json => Json.write r.document ++ "\n"
  | .text => findings r.diagnostics ++ (if r.feasible then "feasible\n" else "NOT feasible\n")

def feasibility (c : Config Float) (form : ReportForm) (facts : PartFacts Float) :
    ExceptT RunFault m Outcome := do
  let s ← loadStandards c
  match facts.known? with
  | none => throw .noDimensions
  | some facts =>
    let r := facts.feasibility s
    print (feasibilityText form r)
    return .ofCritical !r.feasible

def showConfig (c : Config Float) : ExceptT RunFault m Outcome := do
  print (← settle .showConfig (c.text .toml))
  return .clean

/-- Writes the settings of the shop to a file. -/
def initConfig (path : Option Path) (force : Bool) : ExceptT RunFault m Outcome := do
  match path with
  | none => throw .noConfigDirectory
  | some path =>
    let there ← ExceptT.lift (Shell.holds path : m Bool)
    if there && !force then throw (.fileThere path)
    attempt (.writeConfig path) (Config.save .standard path).run
    print ("wrote " ++ path.text ++ "\n")
    return .clean

end Run

/-- Carries out a request.  `usual` is where settings are looked for when no file of them is
named. -/
def Request.run {m : Type → Type} [Monad m] [Shell m] (usual : Option Path) (r : Request) :
    ExceptT RunFault m Outcome :=
  match r.command with
  | .generate making => do Run.generate (← Run.loadConfig usual r.config) making
  | .verify checking => do Run.verify (← Run.loadConfig usual r.config) checking
  | .feasibility form facts => do
    Run.feasibility (← Run.loadConfig usual r.config) form facts
  | .showConfig => do Run.showConfig (← Run.loadConfig usual r.config)
  | .initConfig path force => Run.initConfig (path <|> r.config <|> usual) force

end SpacerTurning
