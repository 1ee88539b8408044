import CollectionSchema.Artifact.Emit
import CollectionSchema.Log.Event

/-!
# Traces

The events of the parts of a run that touch no files, in order. Where such a part fails, its
events end there.
-/

namespace CollectionSchema.Trace

variable {α : Type}

/-- The events of items, up to the first one that fails; the truth value tells whether none
does. -/
def upToFailure (events : α → List Event × Bool) : List α → List Event × Bool
  | [] => ([], true)
  | item :: rest =>
    match events item with
    | (noted, false) => (noted, false)
    | (noted, true) =>
      let (later, whole) := upToFailure events rest
      (noted ++ later, whole)

/-- The events of the annotations of a field, where `found` tells whether a constraint was
stated before. Annotations of unknown kinds are ignored; what the registry refuses fails. -/
def ofAnnotations (found : Bool) : List Annotation → List Event × Bool
  | [] => ([], true)
  | a :: rest =>
    if a.kind?.isNone then
      let (later, whole) := ofAnnotations found rest
      (.annotationIgnored :: later, whole)
    else if a.constraintKind?.isNone then ofAnnotations found rest
    else if found || !a.constraint.toBool then ([], false)
    else ofAnnotations true rest

/-- The events of collecting the registry of a graph. -/
def ofRegistry (g : Graph) : List Event :=
  let properties := g.records.flatMap (·.properties)
  let (noted, whole) :=
    upToFailure (fun p : Property => ofAnnotations false p.annotations) properties
  if whole then noted ++ [.registryCollected] else noted

/-- The event of settling a root. -/
def ofRoot (g : Graph) (registry : Registry) (r : Record) : List Event × Bool :=
  match g.settle registry r with
  | .ok (.deferred _) => ([.recordDeferred], true)
  | .ok (.compiled _) => ([.schemaBuilt], true)
  | .error _ => ([], false)

/-- The events of compiling a graph. -/
def ofCompile (g : Graph) : List Event :=
  match g.check, Registry.collect g with
  | .error _, _ => []
  | .ok _, .error _ => ofRegistry g
  | .ok _, .ok registry => ofRegistry g ++ (upToFailure (ofRoot g registry) g.roots).1

/-- The events of making artifacts: a document is rendered for every schema before the one
at fault. -/
def ofEmit (suffix : String) (forest : List CompiledSchema) : List Event :=
  let rendered := match Artifacts.emit suffix forest with
    | .ok _ => forest
    | .error e => forest.takeWhile (·.record != e.second)
  rendered.map fun _ => .documentRendered

end CollectionSchema.Trace
