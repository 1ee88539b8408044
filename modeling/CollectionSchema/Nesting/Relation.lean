import CollectionSchema.Declaration.Graph

/-!
# The nesting relation

A record embeds another if one of its properties has it as type, looking through lists of
any depth; only declared records are embedded. The relation is on names: records that share
a name embed together.
-/

namespace CollectionSchema

namespace Graph

/-- The names of the records, ascending. -/
def recordNames (g : Graph) : List String := ascending (g.records.map (·.name))

/-- The names of the records that the properties of a record called `name` refer to. -/
def references (g : Graph) (name : String) : List String :=
  (g.records.filter (·.name == name)).flatMap fun r => r.properties.filterMap (·.type.record?)

/-- Whether a record called `embedder` embeds the declared record `embedded`. -/
def embeds (g : Graph) (embedder embedded : String) : Bool :=
  (g.record? embedded).isSome && (g.references embedder).contains embedded

end Graph

/-- The nesting relation: every record name, ascending, with the names of the records that
embed it, ascending. -/
structure Nesting where
  embedders : List (String × List String)
deriving Repr

namespace Nesting

/-- The nesting relation of a graph. -/
def ofGraph (g : Graph) : Nesting :=
  let referring := g.recordNames.map fun name => (name, g.references name)
  ⟨g.recordNames.map fun embedded =>
    (embedded, (referring.filter (·.2.contains embedded)).map (·.1))⟩

/-- The record names, ascending. -/
def names (n : Nesting) : List String := n.embedders.map (·.1)

/-- The names of the records that embed a record. -/
def embeddersOf (n : Nesting) (name : String) : List String :=
  (n.embedders.lookup name).getD []

/-- The number of pairs of a record and one that embeds it. -/
def edgeCount (n : Nesting) : Nat := (n.embedders.flatMap (·.2)).length

end Nesting

end CollectionSchema
