import CollectionSchema.Nesting.Order

/-!
# Nesting reports

The size of the nesting relation, and either a build order or the records on a cycle.
-/

namespace CollectionSchema

/-- What is known about the order of the records. -/
inductive NestingOutcome where
  /-- every record after all that it embeds -/
  | ordered (order : List String)
  /-- there is no such order; the records that are in the way, ascending -/
  | cyclic (records : List String)
deriving DecidableEq, Repr

/-- The nesting of a graph: the number of record names, the number of pairs of an embedder
and an embedded record, and the order. -/
structure NestingReport where
  records : Nat
  edges : Nat
  outcome : NestingOutcome
deriving DecidableEq, Repr

namespace Nesting

/-- A build order if every record got into one, else the records left over, pruned. -/
def outcome (n : Nesting) : NestingOutcome :=
  let p := n.finished
  if p.order.length = n.names.length then .ordered p.order else .cyclic (n.prune p.waiting)

def report (n : Nesting) : NestingReport := ⟨n.names.length, n.edgeCount, n.outcome⟩

end Nesting

/-- The nesting report of a graph. -/
def Graph.nestingReport (g : Graph) : NestingReport := (Nesting.ofGraph g).report

namespace NestingReport

/-- The records in the way of a build order, if there is none. -/
def cycle? (r : NestingReport) : Option (List String) :=
  match r.outcome with
  | .ordered _ => none
  | .cyclic records => some records

/-- The build order, if there is one. -/
def buildOrder? (r : NestingReport) : Option (List String) :=
  match r.outcome with
  | .ordered order => some order
  | .cyclic _ => none

/-- The report as a JSON value. -/
def toJson (r : NestingReport) : Json :=
  let names : Option (List String) → Json
    | none => .null
    | some names => .ofStrings names
  .object [
    ("summary", .object [("records", .ofNat r.records), ("edges", .ofNat r.edges)]),
    ("build_order", names r.buildOrder?),
    ("cycle", names r.cycle?)]

end NestingReport

end CollectionSchema
