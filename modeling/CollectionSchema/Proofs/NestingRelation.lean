import CollectionSchema.Nesting.Report
import CollectionSchema.Proofs.Declaration
import Mathlib.Data.List.Dedup
import Mathlib.Data.Set.Card
import Mathlib.Logic.Relation

/-!
# Nesting as a relation on names

A record name embeds another if some record called by it has a property of the other's type,
inside lists of any depth (`Graph.Embeds`). The nesting of a graph lists this relation: its names
are those of the records, ascending, and each has its embedders listed once
(`proper_ofGraph`, `mem_embeddersOf_ofGraph`). So the counts in a report are sizes of sets
(`length_names_ofGraph`, `edgeCount_ofGraph`).
-/

namespace CollectionSchema

/-! ## The declared relation -/

namespace Graph

def IsRecordName (g : Graph) (name : String) : Prop := ∃ r ∈ g.records, r.name = name

/-- Some record called `embedder` has a property whose type, inside lists of any depth, is the
declared record `embedded`. -/
def Embeds (g : Graph) (embedder embedded : String) : Prop :=
  g.IsRecordName embedded ∧ ∃ r ∈ g.records, r.name = embedder ∧
    ∃ p ∈ r.properties, p.type.record? = some embedded

theorem Embeds.isRecordName_embedder {g : Graph} {a b : String} (h : g.Embeds a b) :
    g.IsRecordName a := by
  obtain ⟨-, r, hr, hname, -⟩ := h
  exact ⟨r, hr, hname⟩

theorem mem_references_iff {g : Graph} {a b : String} : b ∈ g.references a ↔
    ∃ r ∈ g.records, r.name = a ∧ ∃ p ∈ r.properties, p.type.record? = some b := by
  simp only [references, List.mem_flatMap, List.mem_filter, List.mem_filterMap, beq_iff_eq,
    and_assoc]

theorem mem_recordNames_iff {g : Graph} {name : String} :
    name ∈ g.recordNames ↔ g.IsRecordName name := by
  simp [recordNames, mem_ascending, IsRecordName]

theorem pairwise_recordNames (g : Graph) : g.recordNames.Pairwise (· < ·) :=
  pairwise_ascending _

end Graph

/-! ## Proper nestings -/

namespace Nesting

variable {n : Nesting}

/-- The relation that a nesting lists: the first name embeds the second. -/
def Embeds (n : Nesting) (a b : String) : Prop := a ∈ n.embeddersOf b

/-- Every name and every embedder of a name is listed once, and embedders are names. -/
structure Proper (n : Nesting) : Prop where
  ascending : n.names.Pairwise (· < ·)
  nodup : ∀ b, (n.embeddersOf b).Nodup
  embedder : ∀ {a b}, n.Embeds a b → a ∈ n.names
  embedded : ∀ {a b}, n.Embeds a b → b ∈ n.names

theorem Proper.nodup_names (hn : n.Proper) : n.names.Nodup := hn.ascending.nodup

theorem embeddersOf_of_mem (hn : n.names.Nodup) {entry : String × List String}
    (h : entry ∈ n.embedders) : n.embeddersOf entry.1 = entry.2 := by
  rw [embeddersOf, lookup_of_mem hn h, Option.getD_some]

/-! ## The nesting of a graph -/

variable {g : Graph}

theorem names_ofGraph (g : Graph) : (ofGraph g).names = g.recordNames := by
  simp only [names, ofGraph, List.map_map]
  exact List.map_id _

theorem lookup_graph_of_not_mem {α : Type} (value : String → α) {names : List String} {b : String}
    (hb : b ∉ names) : (names.map fun name => (name, value name)).lookup b = none := by
  rw [List.lookup_eq_none_iff]
  intro entry hentry
  obtain ⟨a, ha, rfl⟩ := List.mem_map.mp hentry
  exact bne_iff_ne.mpr fun heq : b = a => hb (heq ▸ ha)

theorem embeddersOf_ofGraph (g : Graph) (b : String) : (ofGraph g).embeddersOf b =
    if b ∈ g.recordNames then g.recordNames.filter fun a => (g.references a).contains b
    else [] := by
  have hlist : ∀ b, (((g.recordNames.map fun a => (a, g.references a)).filter
      (·.2.contains b)).map (·.1)) = g.recordNames.filter fun a => (g.references a).contains b := by
    intro b
    rw [List.filter_map, List.map_map]
    exact List.map_id _
  simp only [embeddersOf, ofGraph, hlist]
  split
  · next hb => rw [List.lookup_graph _ hb, Option.getD_some]
  · next hb => rw [lookup_graph_of_not_mem _ hb, Option.getD_none]

theorem embeds_ofGraph_iff {a b : String} : (ofGraph g).Embeds a b ↔ g.Embeds a b := by
  rw [Embeds, embeddersOf_ofGraph]
  split
  · next hb =>
    rw [List.mem_filter, Graph.mem_recordNames_iff, List.contains_iff_mem,
      Graph.mem_references_iff]
    constructor
    · rintro ⟨-, h⟩
      exact ⟨Graph.mem_recordNames_iff.mp hb, h⟩
    · intro h
      exact ⟨h.isRecordName_embedder, h.2⟩
  · next hb =>
    constructor
    · intro h
      cases h
    · intro h
      exact absurd (Graph.mem_recordNames_iff.mpr h.1) hb

theorem embeds_ofGraph (g : Graph) : (ofGraph g).Embeds = g.Embeds := by
  funext a b
  exact propext embeds_ofGraph_iff

theorem proper_ofGraph (g : Graph) : (ofGraph g).Proper where
  ascending := by
    rw [names_ofGraph]
    exact g.pairwise_recordNames
  nodup b := by
    rw [embeddersOf_ofGraph]
    split
    · exact g.pairwise_recordNames.nodup.filter _
    · exact List.nodup_nil
  embedder h := by
    rw [names_ofGraph, Graph.mem_recordNames_iff]
    exact (embeds_ofGraph_iff.mp h).isRecordName_embedder
  embedded h := by
    rw [names_ofGraph, Graph.mem_recordNames_iff]
    exact (embeds_ofGraph_iff.mp h).1

/-! ## The counts of a report -/

theorem ncard_setOf_mem {α : Type} {l : List α} (h : l.Nodup) : {x | x ∈ l}.ncard = l.length := by
  classical
  rw [← List.toFinset_card_of_nodup h, ← Set.ncard_coe_finset]
  simp

/-- The number of names is that of the different record names. -/
theorem length_names_ofGraph (g : Graph) :
    (ofGraph g).names.length = {name | g.IsRecordName name}.ncard := by
  rw [← ncard_setOf_mem (proper_ofGraph g).nodup_names, names_ofGraph]
  simp only [Graph.mem_recordNames_iff]

theorem edgeCount_eq_ncard (hn : n.Proper) :
    n.edgeCount = {pair : String × String | n.Embeds pair.1 pair.2}.ncard := by
  let pairs := n.embedders.flatMap fun entry => entry.2.map fun a => (a, entry.1)
  have hmem : ∀ pair, pair ∈ pairs ↔ n.Embeds pair.1 pair.2 := by
    rintro ⟨a, b⟩
    simp only [pairs, List.mem_flatMap, List.mem_map, Prod.mk.injEq]
    constructor
    · rintro ⟨entry, hentry, a, ha, rfl, rfl⟩
      rwa [Embeds, embeddersOf_of_mem hn.nodup_names hentry]
    · intro h
      obtain ⟨entry, hentry, rfl⟩ := List.mem_map.mp (hn.embedded h)
      rw [Embeds, embeddersOf_of_mem hn.nodup_names hentry] at h
      exact ⟨entry, hentry, a, h, rfl, rfl⟩
  have hnodup : pairs.Nodup := by
    rw [List.nodup_flatMap]
    constructor
    · intro entry hentry
      have hentries := hn.nodup entry.1
      rw [embeddersOf_of_mem hn.nodup_names hentry] at hentries
      exact hentries.map fun a a' h => (Prod.mk.inj h).1
    · have hnames := List.pairwise_map.mp hn.nodup_names
      refine hnames.imp fun {first second} hne => ?_
      intro pair hfirst hsecond
      obtain ⟨a, -, rfl⟩ := List.mem_map.mp hfirst
      obtain ⟨a', -, heq⟩ := List.mem_map.mp hsecond
      exact hne (Prod.mk.inj heq).2.symm
  calc n.edgeCount
      = pairs.length := by simp [edgeCount, pairs, List.length_flatMap]
    _ = {pair | pair ∈ pairs}.ncard := (ncard_setOf_mem hnodup).symm
    _ = {pair : String × String | n.Embeds pair.1 pair.2}.ncard := by simp only [hmem]

/-- The number of edges is that of the pairs of an embedder and an embedded record. -/
theorem edgeCount_ofGraph (g : Graph) :
    (ofGraph g).edgeCount = {pair : String × String | g.Embeds pair.1 pair.2}.ncard := by
  rw [edgeCount_eq_ncard (proper_ofGraph g)]
  simp only [embeds_ofGraph_iff]

end Nesting

end CollectionSchema
