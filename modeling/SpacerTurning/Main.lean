import SpacerTurning.Command.Line
import SpacerTurning.Command.Run

/-!
The program.

Commands on the files of the system: `Shell IO` is the whole of what is not a function of its
arguments.
-/

namespace SpacerTurning

/-- What a fault of the system means for a file. -/
def IoFault.ofSystem : IO.Error → IoFault
  | .noFileOrDirectory .. => .notFound
  | .alreadyExists .. => .alreadyExists
  | .inappropriateType _ code _ => if code = 21 then .isADirectory else .notADirectory
  | fault => .other (toString fault)

/-- Carries out an action of the system. -/
def ofSystem {β : Type} (action : IO β) : IO (Except IoFault β) :=
  try return .ok (← action) catch fault => return .error (.ofSystem fault)

def textOfBytes (content : ByteArray) : Except IoFault String :=
  match String.fromUTF8? content with
  | some text => .ok text
  | none => .error .invalidData

instance : Shell IO where
  readText p := do return (← ofSystem (IO.FS.readBinFile ⟨p.text⟩)).bind textOfBytes
  writeText p text := ofSystem (IO.FS.writeFile ⟨p.text⟩ text)
  holds p := do
    match ← ofSystem (IO.FS.Handle.mk ⟨p.text⟩ .read) with
    | .ok _ => return true
    | .error .notFound | .error .notADirectory => return false
    | .error _ => return true
  makeParents p :=
    let above := "/".intercalate p.names.dropLast
    if p.isAbsolute then ofSystem (IO.FS.createDirAll ⟨"/" ++ above⟩)
    else if above = "" then return .ok ()
    else ofSystem (IO.FS.createDirAll ⟨above⟩)
  readInput := do
    return (← ofSystem (do (← IO.getStdin).readBinToEnd)).bind textOfBytes
  print := IO.print
  report := IO.eprint

/-- Where settings are looked for when no file of them is named. -/
def usualConfig : IO (Option Path) := do
  let home := (← IO.getEnv "HOME").map fun text => ({ text } : Path).below ".config"
  let chosen := (← IO.getEnv "XDG_CONFIG_HOME").map Path.mk
  let directory := match chosen with
    | some p => if p.isAbsolute then some p else home
    | none => home
  return directory.map (·.below "spacerkit/config.toml")

def usage : String :=
  "Usage: spacerkit [-v] [--json] [-c PATH] COMMAND\n\n"
    ++ "Commands:\n"
    ++ "  generate     Generate a spacer program\n"
    ++ "  verify       Verify a program file (\"-\" reads stdin)\n"
    ++ "  feasibility  Check part dimensions against the lathe standards\n"
    ++ "  config       Write or show the configuration file (init, show)\n"

def tellUsage : UsageFault → IO UInt32
  | .help => do IO.print usage; return 0
  | .version => do IO.println "spacerkit 0.4.0"; return 0
  | .nothing => do IO.eprint usage; return 2
  | fault => do IO.eprintln ("error: " ++ fault.message); return 2

def tellFault (fault : RunFault) : IO UInt32 := do
  match fault.causes.map Cause.message with
  | [] => return 1
  | first :: rest =>
    IO.eprintln ("Error: " ++ first)
    if !rest.isEmpty then
      IO.eprintln "\nCaused by:"
      for cause in rest do IO.eprintln ("    " ++ cause)
    return 1

end SpacerTurning

open SpacerTurning in
/-- Reads the arguments, carries out what they ask for, and ends with its code. -/
def main (args : List String) : IO UInt32 := do
  match Request.read (← IO.getEnv "SPACERKIT_CONFIG") args with
  | .error fault => tellUsage fault
  | .ok request =>
    match ← (request.run (m := IO) (← usualConfig)).run with
    | .ok outcome => return UInt32.ofNat outcome.exitCode
    | .error fault => tellFault fault
