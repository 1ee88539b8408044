import CollectionSchema.Artifact.Write
import CollectionSchema.Log.Trace
import CollectionSchema.Run.Failure

/-!
# Generating artifacts

A run reads a descriptor, compiles its graph and writes the artifacts. Nothing is written
before the graph is compiled and all artifacts are made; in a strict run a record that is
put off fails the run before that, too.
-/

namespace CollectionSchema

/-- The result of a run. -/
structure Generated where
  compiled : Compiled
  written : WrittenArtifacts
deriving Repr

/-- Reads the descriptor of a file and compiles its graph. -/
def DescriptorFile.compile {m : Type → Type} [Monad m] [Storage m] (file : DescriptorFile)
    (note : Event → m Unit) : ExceptT Failure m Compiled := do
  let valid ← file.load.adapt (.provider file.path)
  valid.warnings.forM fun _ => note .descriptorWarning
  note .descriptorLoaded
  note .declarationsLoaded
  (Trace.ofCompile valid.graph).forM fun event => note event
  ExceptT.mk (pure (valid.graph.compile.mapError .compile))

namespace Settings

variable {m : Type → Type} [Monad m] [Storage m]

/-- The artifacts of a compiled graph. -/
def artifacts (s : Settings) (compiled : Compiled) : Except Failure Artifacts :=
  if s.strict ∧ compiled.deferred ≠ [] then .error (.strictDeferred compiled.deferred.length)
  else (Artifacts.emit s.documentSuffix compiled.forest).mapError .emit

/-- The events of making the artifacts. -/
def artifactEvents (s : Settings) (compiled : Compiled) : List Event :=
  if s.strict ∧ compiled.deferred ≠ [] then []
  else Trace.ofEmit s.documentSuffix compiled.forest

/-- Generates the artifacts of a descriptor. -/
def generate (s : Settings) (descriptor : Path) (note : Event → m Unit) :
    ExceptT Failure m Generated := do
  note .runStarted
  let file ← ExceptT.mk (pure ((DescriptorFile.ofPath descriptor).mapError .descriptor))
  let compiled ← file.compile note
  (s.artifactEvents compiled).forM fun event => note event
  let artifacts ← ExceptT.mk (pure (s.artifacts compiled))
  let written ← (artifacts.write s.layout note).adapt .write
  note .runFinished
  return ⟨compiled, written⟩

end Settings

namespace Generated

/-- A line with an indented text. -/
def indented (text : String) : String := "  " ++ text ++ "\n"

/-- The paths that were written. -/
def paths (g : Generated) : List Path := g.written.documents ++ g.written.aggregate.toList

/-- The lines about the records that are put off. -/
def deferredText (g : Generated) : String :=
  if g.compiled.deferred = [] then ""
  else
    "deferred " ++ String.ofList (natText g.compiled.deferred.length) ++ " record(s):\n" ++
      String.join (g.compiled.deferred.map fun d => indented (d.record ++ ": " ++ d.reason.display))

/-- What a run tells about its result. -/
def summary (g : Generated) (outDir : Path) : String :=
  "generated " ++ String.ofList (natText g.compiled.forest.length) ++ " schema(s) into " ++
    outDir.text ++ "\n" ++ String.join (g.paths.map fun path => indented path.text) ++
    g.deferredText

end Generated

end CollectionSchema
