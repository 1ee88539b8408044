import CollectionSchema.Nesting.Relation

/-!
# Build orders

The order in which records can be built, each after all records that it embeds. Every
record has a counter of the embedded records that are still to come. The least record whose
counter is zero is next; then the counters of its embedders go down by one. If the records
with counter zero run out early, those left over lie on a cycle or embed a record on one.
-/

namespace CollectionSchema.Nesting

/-- A build order under construction. -/
structure Progress where
  /-- for every record the number of records it embeds that are not in the order yet -/
  counts : List (String × Nat)
  /-- the records whose counter is zero and that are not in the order yet, ascending -/
  ready : List String
  order : List String
deriving Repr

namespace Progress

/-- The state before the first record. -/
def start (n : Nesting) : Progress :=
  let counts := n.names.map fun name => (name, (n.embedders.countP (·.2.contains name)))
  ⟨counts, (counts.filter (·.2 == 0)).map (·.1), []⟩

/-- Lowers the counter of an embedder; at zero it is ready. -/
def release (p : Progress) (name : String) : Progress :=
  match p.counts.lookup name with
  | none => p
  | some count =>
    { p with
      counts := p.counts.map fun entry => if entry.1 = name then (name, count - 1) else entry
      ready := if count - 1 = 0 then insertAscending name p.ready else p.ready }

theorem release_of_lookup_eq_none {p : Progress} {name : String}
    (h : p.counts.lookup name = none) : p.release name = p := by
  rw [release, h]

theorem release_of_lookup_eq_some {p : Progress} {name : String} {count : Nat}
    (h : p.counts.lookup name = some count) : p.release name =
      { p with
        counts := p.counts.map fun entry => if entry.1 = name then (name, count - 1) else entry
        ready := if count - 1 = 0 then insertAscending name p.ready else p.ready } := by
  rw [release, h]

/-- Puts the least ready record into the order; nothing if none is ready. -/
def step? (n : Nesting) (p : Progress) : Option Progress :=
  match p.ready with
  | [] => none
  | name :: ready =>
    some ((n.embeddersOf name).foldl release { p with ready, order := p.order ++ [name] })

/-- At most `fuel` steps. -/
def run (n : Nesting) : Nat → Progress → Progress
  | 0, p => p
  | fuel + 1, p =>
    match p.step? n with
    | none => p
    | some next => run n fuel next

/-- The records that still wait for an embedded one. -/
def waiting (p : Progress) : List String := (p.counts.filter (0 < ·.2)).map (·.1)

end Progress

/-- The end of the construction: a step for every record is enough. -/
def finished (n : Nesting) : Progress := Progress.run n n.names.length (Progress.start n)

/-- The records of a list that some record of the list embeds. -/
def embeddedWithin (n : Nesting) (names : List String) : List String :=
  names.filter fun name => (n.embeddersOf name).any names.contains

/-- Removes the records that no record of the list embeds, until there are none. -/
def prune (n : Nesting) (names : List String) : List String :=
  if (n.embeddedWithin names).length < names.length then prune n (n.embeddedWithin names)
  else names
termination_by names.length

end CollectionSchema.Nesting
