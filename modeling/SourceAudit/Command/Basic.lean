/-
Module: SourceAudit.Command.Basic
Layer: Command line
Purpose: The commands that can be given, with their options and the defaults that the environment may
  set.
Main exports: OutputFormat, OutputOptions, LoadOptions, ImproveOptions, Command, Command.parse
-/
import SourceAudit.Command.Arguments
import SourceAudit.Files.Loading

namespace SourceAudit

/-- How a report is written. -/
inductive OutputFormat where
  | text | json | markdown
deriving DecidableEq, Repr

namespace OutputFormat

/-- The format with a name. -/
def ofName? : String → Option OutputFormat
  | "text" => some .text
  | "json" => some .json
  | "markdown" => some .markdown
  | _ => none

end OutputFormat

/-- How and where a report is written. -/
structure OutputOptions where
  format : OutputFormat
  /-- The file it goes to instead of the standard output. -/
  reportOutput : Option String
deriving DecidableEq, Repr

/-- How files are loaded. -/
structure LoadOptions where
  /-- How many are processed at once. -/
  concurrency : Nat
  /-- The size limit in bytes. -/
  maxFileSize : Nat
deriving DecidableEq, Repr

/-- What an improvement does. -/
structure ImproveOptions where
  file : String
  /-- The fixes to apply, by identifier; the suggestions of the analysis when there are none. -/
  fixes : List String
  /-- Whether the result is written next to the file. -/
  write : Bool
  /-- Whether the changed lines are shown. -/
  diff : Bool
deriving DecidableEq, Repr

/-- A command. -/
inductive Command where
  | analyze (paths : List String) (failOnError : Bool) (load : LoadOptions) (output : OutputOptions)
  | validate (files : List String) (load : LoadOptions) (output : OutputOptions)
  | speed (files : List String) (load : LoadOptions) (output : OutputOptions)
  | improve (options : ImproveOptions) (output : OutputOptions)
deriving DecidableEq, Repr

/-- A count of at most 64 bits: digits, with or without a plus sign in front. -/
def parseCount? (s : String) : Option Nat :=
  let digits :=
    match s.toList with
    | '+' :: rest => rest
    | cs => cs
  if digits.isEmpty || !digits.all Char.isDigit then none
  else
    let n := digits.foldl (fun n c => n * 10 + (c.toNat - 48)) 0
    if n < 18446744073709551616 then some n else none

namespace Command

/-- The options of how a report is written. -/
def outputSpecs : List OptionSpec :=
  [.setting "format" fun s => (OutputFormat.ofName? s).isSome,
    .setting "report-output" fun s => !s.isEmpty]

/-- The options of how files are loaded. -/
def loadSpecs : List OptionSpec :=
  [(OptionSpec.setting "concurrency" fun s => (parseCount? s).isSome).orShort 'j',
    .setting "max-file-size" fun s => (parseCount? s).isSome]

/-- The options of an improvement. -/
def improveSpecs : List OptionSpec :=
  [(OptionSpec.setting "fix" fun _ => true).repeated, .flag "write", .flag "diff"]

/-- How a report is written, by the arguments. -/
def outputOptions (a : Arguments) : OutputOptions :=
  { format := ((a.value? "format").bind OutputFormat.ofName?).getD .text
    reportOutput := a.value? "report-output" }

/-- A count that an option gives, or else a variable of the environment, or else the default. -/
def countOption (a : Arguments) (env : String → Option String) (long variableName : String)
    (default : Nat) : Except UsageError Nat :=
  match a.value? long, env variableName with
  | some s, _ => (parseCount? s).elim (.error .invalid) .ok
  | none, some s => (parseCount? s).elim (.error .invalid) .ok
  | none, none => .ok default

/-- How files are loaded, by the arguments and the environment. -/
def loadOptions (a : Arguments) (env : String → Option String) : Except UsageError LoadOptions := do
  return { concurrency := ← countOption a env "concurrency" "CODEGUARD_CONCURRENCY" 5
           maxFileSize :=
             ← countOption a env "max-file-size" "CODEGUARD_MAX_FILE_SIZE" defaultMaxFileSize }

/-- Operands, of which there has to be at least one. -/
def someOperands (a : Arguments) : Except UsageError (List String) :=
  if a.operands.isEmpty then .error .invalid else .ok a.operands

/-- The fixes that the options name, divided at commas. -/
def namedFixes (a : Arguments) : List String :=
  (a.values "fix").flatMap fun s => ((Text.of s).pieces (· == ',')).map Text.str

/-- The commands by name. -/
def names : List String := ["analyze", "validate", "speed", "improve"]

/-- What a command line that starts with `help` asks for: help in general, or on one command. -/
def helpOn : List String → UsageError
  | [] => .helpWanted
  | [topic] => if topic = "help" || names.contains topic then .helpWanted else .invalid
  | _ => .invalid

/-- What a command line that starts with no command asks for. -/
def withoutCommand : List String → UsageError
  | [] => .invalid
  | word :: _ =>
    match Word.of word with
    | .long "help" none => .helpWanted
    | .long "version" none => .versionWanted
    | .short 'h' _ => .helpWanted
    | .short 'V' _ => .versionWanted
    | _ => .invalid

/-- The command that a command line gives. -/
def parse (env : String → Option String) : List String → Except UsageError Command
  | "analyze" :: words => do
    let a ← readArguments (.flag "fail-on-error" :: loadSpecs ++ outputSpecs) none words
    return .analyze (← someOperands a) (a.has "fail-on-error") (← loadOptions a env) (outputOptions a)
  | "validate" :: words => do
    let a ← readArguments (loadSpecs ++ outputSpecs) none words
    return .validate (← someOperands a) (← loadOptions a env) (outputOptions a)
  | "speed" :: words => do
    let a ← readArguments (loadSpecs ++ outputSpecs) none words
    return .speed (← someOperands a) (← loadOptions a env) (outputOptions a)
  | "improve" :: words => do
    let a ← readArguments (improveSpecs ++ outputSpecs) (some 1) words
    match a.operands with
    | [file] => return .improve ⟨file, namedFixes a, a.has "write", a.has "diff"⟩ (outputOptions a)
    | _ => .error .invalid
  | "help" :: topics => .error (helpOn topics)
  | words => .error (withoutCommand words)

end Command

end SourceAudit
