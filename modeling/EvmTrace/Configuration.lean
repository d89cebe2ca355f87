import EvmTrace.Files
import EvmTrace.Settings.Reader

/-!
# Configuration

Settings come from a file or are the defaults; the trace goes to the file that the settings name.
-/
namespace EvmTrace

/-- What lies under a configuration that could not be read. -/
inductive Cause
  | file (e : FileError)
  /-- The file holds bytes that are not UTF-8. -/
  | notText
  | json (e : Json.ReadError)
  deriving DecidableEq, Repr

namespace Settings

inductive LoadError
  | unreadable (path : String) (cause : Cause)
  | undecodable (e : Json.ReadError)
  deriving DecidableEq, Repr

def LoadError.message : LoadError → String
  | unreadable path _ => "reading Firehose settings file " ++ path
  | undecodable _ => "decoding Firehose settings"

def LoadError.cause : LoadError → Cause
  | unreadable _ cause => cause
  | undecodable e => .json e

/-- The settings that a text gives. -/
def ofText (b : Bytes) : Except LoadError Settings :=
  match read b with
  | .ok s => .ok s
  | .error e => .error (.undecodable e)

/-- The settings in a file. -/
def ofFile (files : Files) (path : String) : Except LoadError Settings :=
  match files.read path with
  | .error e => .error (.unreadable path (.file e))
  | .ok b => if (Bytes.text? b).isSome then ofText b else .error (.unreadable path .notText)

/-- The settings in a file, the default ones if there is no file. -/
def load (files : Files) : Option String → Except LoadError Settings
  | some path => ofFile files path
  | none => .ok default

/-- The file for the trace could not be made. -/
structure OutputError where
  path : String
  cause : FileError
  deriving DecidableEq, Repr

def OutputError.message (e : OutputError) : String := "creating Firehose output file " ++ e.path

/-- Where a trace goes. -/
inductive Output
  | standard
  | file (path : String)
  deriving DecidableEq, Repr

/-- Makes the file for the trace, if the settings name one. -/
def openOutput (s : Settings) (files : Files) : Except OutputError (Output × Files) :=
  match s.outputPath with
  | none => .ok (.standard, files)
  | some path =>
    match files.create path with
    | .ok files => .ok (.file path, files)
    | .error cause => .error ⟨path, cause⟩

end Settings
end EvmTrace
