/-!
Arguments.

Arguments are read from the left.  An option starts with two hyphens and its name, or with one
hyphen and a letter; letters can stand together, and what follows a letter that takes a value is
the value.  A value follows its option as the next argument, or in the same one.  After two hyphens
alone no option follows.

A value is only looked at when the next option or operand comes, or the end, so `settle` stands in
front of both: that decides which of two faults is told.
-/

namespace SpacerTurning

/-- Why a value is not taken. -/
inductive ValueFault where
  /-- It does not read as what the option takes. -/
  | unreadable
  /-- It is missing, or none of the values that can be chosen. -/
  | refused
deriving DecidableEq, Repr

/-- Why arguments tell nothing that can be run. -/
inductive UsageFault where
  /-- Help was asked for. -/
  | help
  /-- The version was asked for. -/
  | version
  /-- Nothing was asked for. -/
  | nothing
  | unknownCommand (name : String)
  | missingCommand
  | unknownArgument (text : String)
  | repeated (argument : String)
  | missing (argument : String)
  /-- A value for an option that takes none. -/
  | needlessValue (argument : String)
  | badValue (argument : String) (fault : ValueFault)
deriving DecidableEq, Repr

namespace UsageFault

def message : UsageFault → String
  | .help | .nothing => "see the usage"
  | .version => "see the version"
  | .unknownCommand name => "unknown command '" ++ name ++ "'"
  | .missingCommand => "a command is missing"
  | .unknownArgument text => "unexpected argument '" ++ text ++ "'"
  | .repeated argument => "'" ++ argument ++ "' is given twice"
  | .missing argument => "'" ++ argument ++ "' is required"
  | .needlessValue argument => "'" ++ argument ++ "' takes no value"
  | .badValue argument _ => "bad value for '" ++ argument ++ "'"

end UsageFault

/-- What an argument does to what is said so far. -/
inductive Effect (σ : Type) where
  | help
  | version
  | flag (set : σ → σ)
  | value (set : String → σ → Except ValueFault σ)

/-- An option, or an operand if it has no hyphens before it. -/
structure Argument (σ : Type) where
  name : String
  letter : Option Char := none
  effect : Effect σ

namespace Argument

variable {σ τ : Type}

def ofReader {β : Type} (name : String) (letter : Option Char)
    (read : String → Except ValueFault β) (set : β → σ → σ) : Argument σ where
  name
  letter
  effect := .value fun text s => (read text).map fun b => set b s

def flag (name : String) (letter : Option Char) (set : σ → σ) : Argument σ :=
  { name, letter, effect := .flag set }

def takesValue (a : Argument σ) : Bool :=
  match a.effect with
  | .value _ => true
  | _ => false

/-- An argument about a part of something larger. -/
def within (get : τ → σ) (put : σ → τ → τ) (a : Argument σ) : Argument τ where
  name := a.name
  letter := a.letter
  effect :=
    match a.effect with
    | .help => .help
    | .version => .version
    | .flag set => .flag fun t => put (set (get t)) t
    | .value set => .value fun text t => (set text (get t)).map fun s => put s t

end Argument

/-- What can be said to a command. -/
structure Grammar (σ : Type) where
  options : List (Argument σ)
  /-- Arguments without hyphens, in their order. -/
  operands : List (Argument σ) := []
  /-- What must be given. -/
  required : List String := []
  /-- The commands that can follow. -/
  commands : List String := []

/-- What has been said. -/
structure Said (σ : Type) where
  value : σ
  /-- The names of the arguments that were given. -/
  given : List String := []
  /-- An argument that was met but not stored, with its value if that has been met too. -/
  pending : Option (Argument σ × Option String) := none
  /-- Operands that are still free. -/
  operands : List (Argument σ) := []
  /-- Two hyphens alone have been met. -/
  trailing : Bool := false

namespace Said

variable {σ : Type}

def store (s : Said σ) (a : Argument σ) (text : Option String) : Except UsageFault (Said σ) :=
  let put (value : σ) : Except UsageFault (Said σ) :=
    .ok { s with value, given := a.name :: s.given }
  match a.effect with
  | .help => .error .help
  | .version => .error .version
  | .flag set => if s.given.contains a.name then .error (.repeated a.name) else put (set s.value)
  | .value set =>
    match text with
    | none => .error (.badValue a.name .refused)
    | some text =>
      if s.given.contains a.name then .error (.repeated a.name)
      else
        match set text s.value with
        | .ok value => put value
        | .error fault => .error (.badValue a.name fault)

/-- Stores the argument that was met last. -/
def settle (s : Said σ) : Except UsageFault (Said σ) :=
  match s.pending with
  | some (a, text) => { s with pending := none }.store a text
  | none => .ok s

/-- An option is met, perhaps with a value in the same argument. -/
def meet (s : Said σ) (a : Argument σ) (attached : Option String) : Except UsageFault (Said σ) :=
  if a.takesValue then do
    let s ← s.settle
    match attached with
    | some text => s.store a (some text)
    | none => return { s with pending := some (a, none) }
  else
    match attached with
    | some _ => .error (.needlessValue a.name)
    | none => do (← s.settle).store a none

def awaitsValue (s : Said σ) : Bool :=
  match s.pending with
  | some (_, none) => true
  | _ => false

end Said

namespace Grammar

variable {σ : Type}

/-- Before anything is said. -/
def start (g : Grammar σ) (value : σ) : Said σ := { value, operands := g.operands }

/-- A name, and what follows the first equals sign. -/
def splitValue (cs : List Char) : String × Option String :=
  let name := cs.takeWhile (· ≠ '=')
  match cs.dropWhile (· ≠ '=') with
  | _ :: value => (String.ofList name, some (String.ofList value))
  | [] => (String.ofList name, none)

def letters (g : Grammar σ) (whole : String) : Said σ → List Char → Except UsageFault (Said σ)
  | s, [] => .ok s
  | s, c :: rest =>
    match g.options.find? fun a => a.letter = some c with
    | none => .error (.unknownArgument whole)
    | some a =>
      if a.takesValue then
        match rest with
        | [] => s.meet a none
        | '=' :: value => s.meet a (some (String.ofList value))
        | value => s.meet a (some (String.ofList value))
      else do letters g whole (← s.meet a none) rest

def operand (g : Grammar σ) (s : Said σ) (text : String) : Except UsageFault (Said σ) :=
  match s.operands with
  | a :: free => do return { ← s.settle with operands := free, pending := some (a, some text) }
  | [] =>
    if g.commands.isEmpty ∨ (s.trailing ∧ g.commands.contains text) then
      .error (.unknownArgument text)
    else .error (.unknownCommand text)

/-- The next argument, which does not name a command. -/
def step (g : Grammar σ) (s : Said σ) (text : String) : Except UsageFault (Said σ) :=
  if s.trailing then g.operand s text
  else
    match text.toList with
    | ['-', '-'] => .ok { s with trailing := true }
    | '-' :: '-' :: body =>
      let (name, attached) := splitValue body
      match g.options.find? fun a => a.name = name with
      | some a => s.meet a attached
      | none => .error (.unknownArgument text)
    | '-' :: c :: body => g.letters text s (c :: body)
    | _ =>
      match s.pending with
      | some (a, none) => .ok { s with pending := some (a, some text) }
      | _ => g.operand s text

/-- Reads arguments up to the first one that names a command, which is returned with what follows
it. -/
def scan (g : Grammar σ) : Said σ → List String →
    Except UsageFault (Said σ × Option (String × List String))
  | s, [] => .ok (s, none)
  | s, text :: rest =>
    if !s.trailing && !s.awaitsValue && g.commands.contains text then .ok (s, some (text, rest))
    else do scan g (← g.step s text) rest

def demandGiven (g : Grammar σ) (s : Said σ) : Except UsageFault Unit :=
  match g.required.find? fun name => !s.given.contains name with
  | some name => .error (.missing name)
  | none => .ok ()

end Grammar
end SpacerTurning
