import SpacerTurning.Command.Arguments
import SpacerTurning.Command.Basic
import SpacerTurning.Number.Binary64

/-!
Command lines.

Which arguments each command takes, and how a `Request` is made of them.  Some options are
understood everywhere; of several files of settings the one that stands last counts, and one on the
command line counts more than one in the environment.
-/

namespace SpacerTurning

open Number

/-! ## Values -/

namespace Value

/-- A program number: a whole number, perhaps with a sign, that a code can take. -/
def code (text : String) : Except ValueFault Nat :=
  let (negative, digits) := takeSign text.toList
  let n := ofDigits digits
  if digits ≠ [] ∧ digits.all Char.isDigit ∧ n ≤ Scalar.codeLimit ∧ (negative → n = 0) then .ok n
  else .error .unreadable

def number (text : String) : Except ValueFault Float :=
  match Numeral.read text.toList with
  | some numeral => .ok (Binary64.ofNumeral numeral)
  | none => .error .unreadable

def text (text : String) : Except ValueFault String := .ok text

/-- A path has at least one character. -/
def path (text : String) : Except ValueFault Path :=
  if text = "" then .error .refused else .ok { text }

/-- A name that an operator can write in more than one way. -/
def name {β : Type} (read? : String → Option β) (text : String) : Except ValueFault β :=
  match read? text with
  | some b => .ok b
  | none => .error .unreadable

/-- A thickness, in inches. -/
def inches (text : String) : Except ValueFault Float :=
  match (Thickness.read text : Except ThicknessFault (Thickness Float)) with
  | .ok thickness => .ok thickness.inches
  | .error _ => .error .unreadable

def form (text : String) : Except ValueFault ReportForm :=
  if text = "text" then .ok .text
  else if text = "json" then .ok .json
  else .error .refused

end Value

/-! ## What is said to a command, and everywhere -/

/-- The file of settings, and what else has been said. -/
abbrev Settled (σ : Type) := Option Path × σ

namespace Grammar

/-- The options that are understood everywhere.  Two of them are about a log of the run, which is
not kept, so it only counts that they stand at most once. -/
def shared {σ : Type} : List (Argument (Settled σ)) :=
  [.flag "verbose" (some 'v') id,
   .flag "json" none id,
   .ofReader "config" (some 'c') Value.path fun p s => (some p, s.2),
   { name := "help", letter := some 'h', effect := .help }]

/-- What can be said to a command, with the options that are understood everywhere. -/
def withShared {σ : Type} (g : Grammar σ) : Grammar (Settled σ) :=
  let within (a : Argument σ) : Argument (Settled σ) := a.within (·.2) fun own s => (s.1, own)
  { options := g.options.map within ++ shared
    operands := g.operands.map within
    required := g.required
    commands := g.commands }

/-- The end of what is said.  A file of settings that the environment names must have a name. -/
def finish {σ : Type} (env : Option String) (s : Said (Settled σ)) :
    Except UsageFault (Said (Settled σ)) := do
  let s ← s.settle
  if env = some "" ∧ !s.given.contains "config" then .error (.badValue "config" .refused)
  return s

/-- Reads all that is said to a command that no command follows. -/
def readAll {σ : Type} (g : Grammar σ) (value : σ) (env : Option String) (args : List String) :
    Except UsageFault (Settled σ) := do
  let g := g.withShared
  let (s, _) ← g.scan (g.start (none, value)) args
  let s ← finish env s
  g.demandGiven s
  return s.value

end Grammar

/-! ## The commands -/

/-- What can be said about a part to be made. -/
def orderOptions : List (Argument (Order Float)) :=
  [.ofReader "program-number" (some 'p') Value.code fun x o => { o with programNumber := some x },
   .ofReader "title" none Value.text fun x o => { o with title := some x },
   .ofReader "round" (some 'r') Value.number fun x o => { o with round := some x },
   .ofReader "thickness" (some 't') Value.text fun x o => { o with thickness := some x },
   .ofReader "cb" none Value.number fun x o => { o with boreMm := some x },
   .ofReader "lathe" (some 'l') Value.text fun x o => { o with lathe := some x },
   .ofReader "type" none (Value.name SpacerKind.read?) fun x o => { o with kind := some x },
   .ofReader "ob" none Value.number fun x o => { o with hubMm := some x },
   .ofReader "hub-height" none Value.number fun x o => { o with hubHeight := some x },
   .ofReader "counterbore" none Value.number fun x o => { o with counterboreMm := some x },
   .ofReader "counterbore-depth" none Value.number fun x o => { o with counterboreDepth := some x },
   .flag "tolerancing" none fun o => { o with fitted := true },
   .ofReader "feed-mode" none (Value.name FeedMode.read?) fun x o => { o with feedMode := x }]

/-- What can be said about a part that is known in part. -/
def factOptions : List (Argument (PartFacts Float)) :=
  [.ofReader "round" none Value.number fun x f => { f with round := some x },
   .ofReader "thickness" none Value.inches fun x f => { f with thickness := some x },
   .ofReader "cb" none Value.number fun x f => { f with boreMm := some x },
   .ofReader "ob" none Value.number fun x f => { f with hubMm := some x },
   .ofReader "hub-height" none Value.number fun x f => { f with hubHeight := some x },
   .ofReader "counterbore" none Value.number fun x f => { f with counterboreMm := some x },
   .ofReader "lathe" none (Value.name LatheId.read?) fun x f => { f with lathe := some x },
   .ofReader "type" none (Value.name SpacerKind.read?) fun x f => { f with kind := some x }]

namespace Grammar

/-- What can be said when a program is to be made. -/
def making : Grammar Making where
  options := orderOptions.map (Argument.within (·.order) fun order m => { m with order }) ++
    [.flag "check" none fun m => { m with check := true },
     .ofReader "output" (some 'o') Value.path fun p m => { m with output := some p }]
  required := ["program-number", "round", "thickness", "cb"]

/-- What can be said when a program is to be checked. -/
def checking : Grammar Checking where
  options := factOptions.map (Argument.within (·.facts) fun facts c => { c with facts }) ++
    [.ofReader "fix" none Value.path fun p c => { c with fix := some p },
     .ofReader "format" none Value.form fun form c => { c with form }]
  operands := [.ofReader "FILE" none Value.path fun file c => { c with file }]
  required := ["FILE"]

/-- What can be said when dimensions are to be checked. -/
def dimensions : Grammar (ReportForm × PartFacts Float) where
  options := factOptions.map (Argument.within (·.2) fun facts s => (s.1, facts)) ++
    [.ofReader "format" none Value.form fun form s => (form, s.2)]

/-- What can be said when settings are to be written down. -/
def initConfig : Grammar (Option Path × Bool) where
  options := [.flag "force" none fun s => (s.1, true)]
  operands := [.ofReader "PATH" none Value.path fun p s => (some p, s.2)]

/-- Nothing of its own can be said. -/
def silent : Grammar Unit where
  options := []

/-- The commands that can follow those of a list. -/
def commandsAfter : List String → List String
  | [] => ["generate", "verify", "feasibility", "config", "help"]
  | ["config"] => ["init", "show", "help"]
  | _ => []

/-- What comes of asking for help on a command: there must be one of that name. -/
def helpOn (path : List String) : List String → UsageFault
  | [] => .help
  | name :: rest =>
    if (commandsAfter path).contains name then helpOn (path ++ [name]) rest
    else .unknownCommand name

/-- Reads what is said before a command, the command, and what is said to it. -/
def readCommand (path : List String) (own : List (Argument Unit)) (env : Option String)
    (child : String → List String → Except UsageFault (Settled Command)) (args : List String) :
    Except UsageFault (Settled Command) := do
  let commands := commandsAfter path
  let g := (Grammar.withShared { options := own, commands } : Grammar (Settled Unit))
  let (s, next) ← g.scan (g.start (none, ())) args
  match next with
  | some (name, rest) =>
    if name = "help" then .error (helpOn path rest)
    let (config, command) ← child name rest
    let s ← finish env s
    return (config <|> s.value.1, command)
  | none =>
    let s ← finish env s
    .error (if s.given.isEmpty ∧ env.isNone then .nothing else .missingCommand)

end Grammar

namespace Command

def readConfig (env : Option String) (name : String) (args : List String) :
    Except UsageFault (Settled Command) :=
  if name = "init" then do
    let (config, path, force) ← Grammar.initConfig.readAll (none, false) env args
    return (config, .initConfig path force)
  else do
    let (config, _) ← Grammar.silent.readAll () env args
    return (config, .showConfig)

def read (env : Option String) (name : String) (args : List String) :
    Except UsageFault (Settled Command) :=
  if name = "generate" then do
    let (config, making) ← Grammar.making.readAll
      { order := { kind := some .standard } } env args
    return (config, .generate making)
  else if name = "verify" then do
    let (config, checking) ← Grammar.checking.readAll { file := { text := "" } } env args
    return (config, .verify checking)
  else if name = "feasibility" then do
    let (config, form, facts) ← Grammar.dimensions.readAll (.text, {}) env args
    return (config, .feasibility form facts)
  else Grammar.readCommand ["config"] [] env (readConfig env) args

end Command

/-- The request that a command line makes.  The environment can name a file of settings. -/
def Request.read (env : Option String) (args : List String) : Except UsageFault Request := do
  let version : Argument Unit := { name := "version", letter := some 'V', effect := .version }
  let (config, command) ← Grammar.readCommand [] [version] env (Command.read env) args
  return { config := config <|> env.map fun text => { text }, command }

end SpacerTurning
