import EvmTrace.Configuration

/-!
# Command line

Options override the settings of a configuration file, and a variable of the environment stands in
for an option that is not given. The words are judged from the front. An option that takes a path
from the next word is only judged when the next option comes, or at the end.
-/
namespace EvmTrace.CommandLine

/-- Options that are on or off. -/
inductive Switch
  | enabled | syncInstrumentation | mining | blockProgress
  deriving DecidableEq, Repr

/-- Options that name a file. -/
inductive PathOption
  | genesisFile | output | config
  deriving DecidableEq, Repr

namespace Switch

def all : List Switch := [enabled, syncInstrumentation, mining, blockProgress]

def name : Switch → String
  | enabled => "firehose-enabled"
  | syncInstrumentation => "firehose-sync-instrumentation"
  | mining => "firehose-mining-enabled"
  | blockProgress => "firehose-block-progress"

def environmentName : Switch → String
  | enabled => "FIREHOSE_ENABLED"
  | syncInstrumentation => "FIREHOSE_SYNC_INSTRUMENTATION"
  | mining => "FIREHOSE_MINING_ENABLED"
  | blockProgress => "FIREHOSE_BLOCK_PROGRESS"

end Switch

namespace PathOption

def all : List PathOption := [genesisFile, output, config]

def name : PathOption → String
  | genesisFile => "firehose-genesis-file"
  | output => "firehose-output"
  | config => "firehose-config"

def environmentName : PathOption → String
  | genesisFile => "FIREHOSE_GENESIS_FILE"
  | output => "FIREHOSE_OUTPUT"
  | config => "FIREHOSE_CONFIG"

end PathOption

/-- The value of each option that was given. -/
structure Arguments where
  switch : Switch → Option Bool
  path : PathOption → Option String

def Arguments.none : Arguments := ⟨fun _ => .none, fun _ => .none⟩

/-- Why a command line is not carried out. -/
inductive Refusal
  | unknownArgument
  /-- An option is given twice. -/
  | conflict
  /-- A value is missing, empty, or none of those that the option takes. -/
  | invalidValue
  | tooManyValues
  /-- Help was asked for. -/
  | help
  deriving DecidableEq, Repr

/-- What a word is by its form. -/
inductive Word
  /-- Ends the options. -/
  | escape
  | long (name : String) (value : Option String)
  | short (letter : Char)
  | plain (text : String)
  deriving DecidableEq, Repr

def Word.classify (w : String) : Word :=
  match w.toList with
  | ['-', '-'] => .escape
  | '-' :: '-' :: rest =>
    let name := String.ofList (rest.takeWhile (· ≠ '='))
    match rest.dropWhile (· ≠ '=') with
    | [] => .long name none
    | _ :: value => .long name (some (String.ofList value))
  | '-' :: letter :: _ => .short letter
  | _ => .plain w

def parseBool (s : String) : Except Refusal Bool :=
  if s = "true" then .ok true else if s = "false" then .ok false else .error .invalidValue

namespace Arguments

/-- A switch without a value is on. -/
def giveSwitch (a : Arguments) (s : Switch) (value : Option String) :
    Except Refusal Arguments := do
  if (a.switch s).isSome then throw .conflict
  let b ← match value with
    | some v => parseBool v
    | .none => pure true
  return { a with switch := fun x => if x = s then some b else a.switch x }

def givePath (a : Arguments) (p : PathOption) (value : String) : Except Refusal Arguments := do
  if (a.path p).isSome then throw .conflict
  if value = "" then throw .invalidValue
  return { a with path := fun x => if x = p then some value else a.path x }

end Arguments

/-- What the words so far have given. -/
structure Parsing where
  given : Arguments
  /-- An option that is not judged yet, and the word that followed it. -/
  pending : Option (PathOption × Option String)
  isEscaped : Bool

namespace Parsing

def start : Parsing := ⟨.none, none, false⟩

/-- Judges the option that is pending. -/
def settle (p : Parsing) : Except Refusal Parsing :=
  match p.pending with
  | none => .ok p
  | some (_, none) => .error .invalidValue
  | some (option, some value) => do
    let given ← p.given.givePath option value
    return { p with given, pending := none }

def long (p : Parsing) (name : String) (value : Option String) : Except Refusal Parsing :=
  match Switch.all.find? (·.name == name), PathOption.all.find? (·.name == name) with
  | some s, _ => do
    let p ← p.settle
    let given ← p.given.giveSwitch s value
    return { p with given }
  | none, some option => do
    let p ← p.settle
    match value with
    | some v =>
      let given ← p.given.givePath option v
      return { p with given }
    | none => return { p with pending := some (option, none) }
  | none, none =>
    if name = "help" then
      match value with
      | some _ => .error .tooManyValues
      | none => do
        let _ ← p.settle
        throw .help
    else .error .unknownArgument

def step (p : Parsing) (w : String) : Except Refusal Parsing :=
  if p.isEscaped then .error .unknownArgument
  else match Word.classify w with
    | .escape => .ok { p with isEscaped := true }
    | .long name value => p.long name value
    | .short letter =>
      if letter = 'h' then do
        let _ ← p.settle
        throw .help
      else .error .unknownArgument
    | .plain text =>
      match p.pending with
      | some (option, none) => .ok { p with pending := some (option, some text) }
      | _ => .error .unknownArgument

end Parsing

/-- The options that the words give. -/
def parse (words : List String) : Except Refusal Arguments := do
  let p ← words.foldlM Parsing.step .start
  let p ← p.settle
  return p.given

/-- The variables of the environment. -/
abbrev Environment := List (String × String)

/-- Takes a switch that is not given from the environment. -/
def fillSwitch (env : Environment) (a : Arguments) (s : Switch) : Except Refusal Arguments :=
  match a.switch s, env.lookup s.environmentName with
  | none, some value => a.giveSwitch s (some value)
  | _, _ => .ok a

/-- Takes a path that is not given from the environment. -/
def fillPath (env : Environment) (a : Arguments) (p : PathOption) : Except Refusal Arguments :=
  match a.path p, env.lookup p.environmentName with
  | none, some value => a.givePath p value
  | _, _ => .ok a

/-- The options given by the words, and by the environment where the words are silent. -/
def arguments (words : List String) (env : Environment) : Except Refusal Arguments := do
  let a ← parse words
  let a ← Switch.all.foldlM (fillSwitch env) a
  PathOption.all.foldlM (fillPath env) a

/-- The settings with the given options in place of their own values. -/
def Arguments.override (a : Arguments) (s : Settings) : Settings :=
  { s with
    enabled := (a.switch .enabled).getD s.enabled
    syncInstrumentation := (a.switch .syncInstrumentation).getD s.syncInstrumentation
    mining := (a.switch .mining).getD s.mining
    blockProgress := (a.switch .blockProgress).getD s.blockProgress
    genesisFile := (a.path .genesisFile).or s.genesisFile
    outputPath := (a.path .output).or s.outputPath }

/-- The settings of the configuration file, overridden by the options. -/
def Arguments.settings (a : Arguments) (files : Files) : Except Settings.LoadError Settings :=
  (Settings.load files (a.path .config)).map a.override

end EvmTrace.CommandLine
