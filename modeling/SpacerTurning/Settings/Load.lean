import SpacerTurning.Document.Toml.Read
import SpacerTurning.Document.Toml.Write
import SpacerTurning.Records.Settings
import SpacerTurning.Storage.Shell

/-!
Settings in files.

The ending of its name says how a file of settings is written.  Settings are looked at before they
are used and before they are written: rejected settings leave no file behind.
-/

namespace SpacerTurning

/-- How a file of settings is written. -/
inductive SettingsFormat where
  | toml
  | json
deriving DecidableEq, Repr

namespace SettingsFormat

/-- The format that the ending of a name tells, in any case of its letters. -/
def ofPath (p : Path) : Except (SettingsFault Float) SettingsFormat :=
  let ending := p.ending?
  match ending.map fun name => name.toList.map Char.toLower with
  | some ['t', 'o', 'm', 'l'] => .ok .toml
  | some ['j', 's', 'o', 'n'] => .ok .json
  | _ => .error (.unsupportedFormat ending)

def read : SettingsFormat → String → Option Document
  | .toml => Toml.read
  | .json => Json.read

def write : SettingsFormat → Document → Option String
  | .toml, d => Toml.write d
  | .json, d => some (Json.write d)

/-- How a record is taken out of a document. -/
def dialect : SettingsFormat → Dialect
  | .toml => Toml.dialect
  | .json => Json.dialect

end SettingsFormat

/-- Why settings could not be taken from a file or put into one. -/
inductive FileFault where
  | io (fault : IoFault)
  /-- The text is not written in the format, or holds something else than settings. -/
  | malformed (format : SettingsFormat)
  /-- The format has no way to write the settings: a count is too large for it. -/
  | unwritable
  | rejected (fault : SettingsFault Float)
deriving DecidableEq, Repr

namespace Config

/-- The text of settings.  There is none for settings that are rejected. -/
def text (c : Config Float) (format : SettingsFormat) : Except FileFault String :=
  match c.fault? with
  | some fault => .error (.rejected fault)
  | none =>
    match format.write c.document with
    | some text => .ok text
    | none => .error .unwritable

end Config

section

variable {m : Type → Type} [Monad m] [Shell m]

/-- What a file of settings holds, as it is written. -/
def readSettings {β : Type} (ofDocument? : Dialect → Document → Option β) (p : Path) :
    ExceptT FileFault m β := do
  let format ← ExceptT.mk (pure ((SettingsFormat.ofPath p).mapError .rejected))
  let text ← ExceptT.mk ((Except.mapError .io) <$> Shell.readText p)
  match (format.read text).bind (ofDocument? format.dialect) with
  | some b => return b
  | none => throw (.malformed format)

/-- Lets settings through that have no fault. -/
def demandSound (fault? : Option (SettingsFault Float)) : ExceptT FileFault m Unit :=
  match fault? with
  | some fault => throw (.rejected fault)
  | none => pure ()

namespace Config

def load (p : Path) : ExceptT FileFault m (Config Float) := do
  let c ← readSettings Config.ofDocument? p
  demandSound c.fault?
  return c

/-- The settings of a file; those of the shop where there is no file. -/
def loadOrStandard (p : Path) : ExceptT FileFault m (Config Float) := do
  let there ← (Shell.holds p : m Bool)
  if there then load p else return .standard

/-- Writes settings to a file.  Directories on the way to it are made. -/
def save (c : Config Float) (p : Path) : ExceptT FileFault m Unit := do
  let format ← ExceptT.mk (pure ((SettingsFormat.ofPath p).mapError .rejected))
  let text ← ExceptT.mk (pure (c.text format))
  ExceptT.mk ((Except.mapError .io) <$> Shell.makeParents p)
  ExceptT.mk ((Except.mapError .io) <$> Shell.writeText p text)

/-- The standards to use: those of the file that the settings name, or those of the shop. -/
def loadStandards (c : Config Float) : ExceptT FileFault m (Standards Float) :=
  match c.standardsPath with
  | none => return .standard
  | some path => do
    let s ← readSettings Standards.ofDocument? { text := path }
    demandSound s.fault?
    return s

end Config
end

end SpacerTurning
