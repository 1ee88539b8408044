import CollectionSchema.Log.Journal
import CollectionSchema.Run.Arguments
import CollectionSchema.Run.Generate
import CollectionSchema.Run.Inspection

/-!
# Commands

What a command does, in any monad with access to files: it ends with a text to print, or
fails. How a run ends is a value as well.
-/

namespace CollectionSchema

/-- How a run ends. -/
inductive Outcome where
  | printed (output : String)
  | failed (cause : Failure)
  | misused (cause : UsageError)
deriving Repr

/-- The number that tells how a run ended. -/
def Outcome.exitCode : Outcome → Nat
  | printed _ => 0
  | failed _ => 1
  | misused _ => 2

/-- What a run prints when all went well. -/
def Outcome.output : Outcome → String
  | printed output => output
  | _ => ""

namespace Command

def usageText : String :=
  "Usage: mongoschema <COMMAND>\n\n" ++
  "  generate <DESCRIPTOR> [--out <DIR>] [--config <FILE>] [--strict] [--log-file <FILE>]\n" ++
  "  inspect <DESCRIPTOR>\n" ++
  "  descriptor-schema\n"

def versionText : String := "mongoschema 0.1.0\n"

/-- A JSON value as it is printed: indented, on lines of its own. -/
def printed (value : Json) : String := value.pretty ++ "\n"

variable {m : Type → Type} [Monad m] [Storage m]

/-- Generates artifacts as the arguments say. -/
def runGenerate (filter : LogFilter) (arguments : GenerateArguments) :
    ExceptT Failure m String := do
  let journal ← (Journal.create arguments.logFile filter).adapt .logging
  let loaded ← (Settings.load arguments.config).adapt .settings
  let settings := loaded.override arguments.outDir arguments.strict
  let generated ← settings.generate arguments.descriptor journal.note
  return generated.summary settings.layout.outDir

/-- Does what a command says, and gives the text to print. What is seen in a descriptor is
printed with the members of objects in ascending order. -/
def run (filter : LogFilter) : Command → ExceptT Failure m String
  | generate arguments => runGenerate filter arguments
  | inspect descriptor => do return printed (← Inspection.ofFile descriptor).sorted
  | descriptorSchema => return printed Descriptor.schema
  | help => return usageText
  | version => return versionText

/-- Runs the program with the words of its command line. -/
def runWords (filter : LogFilter) (words : List String) : m Outcome :=
  match Arguments.parse words with
  | .error cause => return .misused cause
  | .ok command => do
    match ← (command.run filter).run with
    | .ok output => return .printed output
    | .error cause => return .failed cause

end Command

end CollectionSchema
