import CollectionSchema.Proofs.DescriptorFiles
import CollectionSchema.Proofs.RootAccounting
import CollectionSchema.Proofs.WrittenArtifacts
import CollectionSchema.Run.Generate

/-!
# What generating artifacts does

A run that generates artifacts prepares them first: it reads a descriptor, compiles its graph and
makes the artifacts. Only then it writes (`exists_run_generate`). While it prepares, nothing
changes but the log.
-/

namespace CollectionSchema

open FileSystem

/-! ## Compiling a descriptor -/

namespace DescriptorFile

/-- The compiled graph of the descriptor of a file. -/
def compileFrom (file : DescriptorFile) (fs : FileSystem) : Except Failure Compiled := do
  let valid ← (file.readFrom fs).mapError (.provider file.path)
  valid.graph.compile.mapError .compile

variable {fs : FileSystem} {file : DescriptorFile}

theorem compileFrom_eq_ok_iff {compiled : Compiled} : file.compileFrom fs = .ok compiled ↔
    ∃ valid, file.readFrom fs = .ok valid ∧ valid.graph.compile = .ok compiled := by
  simp only [compileFrom, Outcome.bind_eq_ok_iff, Outcome.mapError_eq_ok_iff]

end DescriptorFile

/-! ## Runs -/

namespace Settings

/-- What a run prepares from a file system before it writes. -/
def prepare (s : Settings) (descriptor : Path) (fs : FileSystem) :
    Except Failure (Compiled × Artifacts) := do
  let file ← (DescriptorFile.ofPath descriptor).mapError .descriptor
  let compiled ← file.compileFrom fs
  let artifacts ← s.artifacts compiled
  return (compiled, artifacts)

variable {s : Settings} {journal : Journal} {descriptor : Path} {fs : FileSystem}

theorem artifacts_eq_ok_iff {compiled : Compiled} {artifacts : Artifacts} :
    s.artifacts compiled = .ok artifacts ↔ (s.strict = true → compiled.deferred = []) ∧
      Artifacts.emit s.documentSuffix compiled.forest = .ok artifacts := by
  unfold Settings.artifacts
  by_cases hstrict : s.strict = true ∧ compiled.deferred ≠ []
  · rw [if_pos hstrict]
    constructor
    · intro h
      cases h
    · intro h
      exact absurd (h.1 hstrict.1) hstrict.2
  · rw [if_neg hstrict, Outcome.mapError_eq_ok_iff]
    exact (and_iff_right fun h => not_not.mp fun hne => hstrict ⟨h, hne⟩).symm

theorem prepare_eq_ok_iff {compiled : Compiled} {artifacts : Artifacts} :
    s.prepare descriptor fs = .ok (compiled, artifacts) ↔
      ∃ valid, fs.HoldsDescriptor descriptor valid ∧ valid.graph.compile = .ok compiled ∧
        (s.strict = true → compiled.deferred = []) ∧
        Artifacts.emit s.documentSuffix compiled.forest = .ok artifacts := by
  simp only [prepare, Outcome.bind_eq_ok_iff, Outcome.mapError_eq_ok_iff, Outcome.pure_eq_ok_iff,
    DescriptorFile.ofPath_eq_ok_iff, DescriptorFile.compileFrom_eq_ok_iff,
    DescriptorFile.readFrom_eq_ok_iff, artifacts_eq_ok_iff, Prod.mk.injEq]
  constructor
  · rintro ⟨file, ⟨hformat, rfl⟩, c, ⟨valid, ⟨bytes, text, hread, htext, hvalid⟩, hcompile⟩,
      a, hmade, rfl, rfl⟩
    exact ⟨valid, ⟨file.format, bytes, text, hformat, hread, htext, hvalid⟩, hcompile, hmade⟩
  · rintro ⟨valid, ⟨format, bytes, text, hformat, hread, htext, hvalid⟩, hcompile, hmade⟩
    exact ⟨⟨descriptor, format⟩, ⟨hformat, rfl⟩, compiled,
      ⟨valid, ⟨bytes, text, hread, htext, hvalid⟩, hcompile⟩, artifacts, hmade, rfl, rfl⟩

end Settings

/-! ## Roots -/

namespace Settings

open Artifacts (gateSettings)

def gateCompiled : Compiled :=
  ⟨[⟨"Gate", "Gate", "gates", .object [] []⟩], [⟨"Dam", .pending⟩], .empty⟩

def gateArtifacts : Artifacts :=
  ⟨gateCompiled.forest.map (Artifacts.document ""),
    Artifacts.tableOf (gateCompiled.forest.map (Artifacts.document ""))⟩

end Settings

end CollectionSchema
