/-
Module: SourceAudit.Command.Arguments
Layer: Command line
Purpose: Command lines as lists of words: options with a long and maybe a short name, with or without a
  value, and operands. A value follows its option as the next word, behind an equals sign, or right
  behind a short name; after a double dash everything is an operand.
Main exports: OptionSpec, Arguments, Arguments.values, Arguments.has, UsageError, readArguments
-/
import SourceAudit.Text.Basic

namespace SourceAudit

/-- An option that a command knows. -/
structure OptionSpec where
  /-- The name behind two dashes. -/
  long : String
  /-- The letter behind one dash. -/
  short : Option Char
  takesValue : Bool
  /-- Whether it may be given more than once. -/
  repeats : Bool
  /-- The values that it takes. -/
  accepts : String → Bool

namespace OptionSpec

/-- An option without a value. -/
def flag (long : String) : OptionSpec := ⟨long, none, false, false, fun _ => true⟩

/-- An option with a value, given at most once. -/
def setting (long : String) (accepts : String → Bool) : OptionSpec := ⟨long, none, true, false, accepts⟩

/-- The option with a short name. -/
def orShort (o : OptionSpec) (c : Char) : OptionSpec := { o with short := some c }

/-- The option, which may be given again and again. -/
def repeated (o : OptionSpec) : OptionSpec := { o with repeats := true }

end OptionSpec

/-- Why a command line is not run. -/
inductive UsageError where
  /-- It asks for help. -/
  | helpWanted
  /-- It asks for the version. -/
  | versionWanted
  /-- It makes no sense. -/
  | invalid
deriving DecidableEq, Repr

/-- What a command line gives: the options by long name, in order, and the operands. A flag has an
    empty value. -/
structure Arguments where
  options : List (String × String)
  operands : List String
deriving DecidableEq, Repr

namespace Arguments

/-- The values of an option in order. -/
def values (a : Arguments) (long : String) : List String :=
  a.options.filterMap fun o => if o.1 = long then some o.2 else none

/-- The value of an option that is given at most once. -/
def value? (a : Arguments) (long : String) : Option String := (a.values long).head?

/-- Whether an option is given. -/
def has (a : Arguments) (long : String) : Bool := !(a.values long).isEmpty

/-- The arguments with one more option, unless it may not be given again or does not take the
    value. -/
def add (a : Arguments) (o : OptionSpec) (value : String) : Except UsageError Arguments :=
  if !o.repeats && a.has o.long then .error .invalid
  else if !o.accepts value then .error .invalid
  else .ok { a with options := a.options ++ [(o.long, value)] }

/-- Whether the command that the arguments are for takes one more operand. -/
def hasRoom (a : Arguments) (most : Option Nat) : Bool := most.all fun n => a.operands.length < n

/-- The arguments with one more operand, of which there may be at most `most`. An operand is never
    empty. -/
def addOperand (most : Option Nat) (a : Arguments) (operand : String) :
    Except UsageError Arguments :=
  if operand.isEmpty || !a.hasRoom most then .error .invalid
  else .ok { a with operands := a.operands ++ [operand] }

end Arguments

/-- A word of a command line, by what it looks like. -/
inductive Word where
  /-- Two dashes and nothing else. -/
  | divider
  /-- A long name, maybe with a value behind an equals sign. -/
  | long (name : String) (value : Option String)
  /-- A short name and what follows it in the same word. -/
  | short (name : Char) (rest : Text)
  | plain (s : String)
deriving DecidableEq, Repr

/-- What a word looks like. A single dash is plain. -/
def Word.of (s : String) : Word :=
  match Text.of s with
  | '-' :: '-' :: [] => .divider
  | '-' :: '-' :: name =>
    match Text.cut? name "=" with
    | some (name, value) => .long name.str (some value.str)
    | none => .long (String.ofList name) none
  | '-' :: c :: rest => .short c rest
  | _ => .plain s

/-- The value that follows a short name in the same word, if any; an equals sign in front of it is not
    part of it. -/
def attachedValue? : Text → Option String
  | [] => none
  | '=' :: value => some (String.ofList value)
  | value => some value.str

/-- Reads the words of a command line from left to right; `awaiting` is the option whose value comes
    next. The first word that decides against running the command settles why. -/
def readWords (specs : List OptionSpec) (most : Option Nat) :
    (awaiting : Option OptionSpec) → (done : Arguments) → List String → Except UsageError Arguments
  | none, done, [] => .ok done
  | some _, _, [] => .error .invalid
  | some o, done, word :: words =>
    match Word.of word with
    | .plain s => do readWords specs most none (← done.add o s) words
    | _ => .error .invalid
  | none, done, word :: words =>
    match Word.of word with
    | .plain s => do readWords specs most none (← done.addOperand most s) words
    | .divider => words.foldlM (Arguments.addOperand most) done
    | .long "help" none => .error .helpWanted
    | .long name value =>
      match specs.find? (·.long == name), value with
      | none, _ => .error .invalid
      | some o, none =>
        if o.takesValue then readWords specs most (some o) done words
        else do readWords specs most none (← done.add o "") words
      | some o, some v =>
        if o.takesValue then do readWords specs most none (← done.add o v) words else .error .invalid
    | .short 'h' _ => .error .helpWanted
    | .short c rest =>
      match specs.find? (·.short == some c), attachedValue? rest with
      | none, _ => .error .invalid
      | some o, none => readWords specs most (some o) done words
      | some o, some v => do readWords specs most none (← done.add o v) words

/-- The options and the operands, at most `most` of them, of a command line. Only options with a value
    have short names. -/
def readArguments (specs : List OptionSpec) (most : Option Nat) (words : List String) :
    Except UsageError Arguments :=
  readWords specs most none ⟨[], []⟩ words

end SourceAudit
