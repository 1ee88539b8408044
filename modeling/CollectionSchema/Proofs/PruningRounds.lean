import CollectionSchema.Proofs.CycleRecords
import Mathlib.Data.List.Sort

/-!
# What pruning leaves of the records left over

Pruning goes in rounds. A round drops every record of the list that no other one of it embeds, and
the first round that drops none is the last (`exists_prunedAfter`). What is left lies between
cycles and stands in the order in which it was found, which is the order of the names
(`pairwise_prune_waiting`).

A report depends on the declarations by the relation of embedding only, so it is the same for every
order of the records and of their properties (`nestingReport_of_reorders`).
`cycle?_spec` joins both for the list of a report.
-/

namespace CollectionSchema

open Relation

namespace Nesting

variable {n : Nesting}

/-! ## Rounds -/

/-- Pruning a list takes this number of rounds: each of them drops a record, the next one would
drop none, and what is left is the result. -/
structure PrunedAfter (n : Nesting) (names : List String) (rounds : Nat) : Prop where
  drops : ∀ i < rounds,
    (n.embeddedWithin^[i + 1] names).length < (n.embeddedWithin^[i] names).length
  stable : n.embeddedWithin (n.embeddedWithin^[rounds] names) = n.embeddedWithin^[rounds] names
  result : n.prune names = n.embeddedWithin^[rounds] names

/-- **Pruning ends**, after at most as many rounds as there are records. -/
theorem exists_prunedAfter (n : Nesting) (names : List String) :
    ∃ rounds ≤ names.length, n.PrunedAfter names rounds := by
  induction names using prune.induct n with
  | case1 names hshorter ih =>
    obtain ⟨rounds, hle, hpruned⟩ := ih
    refine ⟨rounds + 1, by omega, ?_, hpruned.stable, ?_⟩
    · intro i hi
      cases i with
      | zero => exact hshorter
      | succ i => exact hpruned.drops i (by omega)
    · rw [prune, if_pos hshorter]
      exact hpruned.result
  | case2 names hlength =>
    refine ⟨0, Nat.zero_le _, ?_, ?_, ?_⟩
    · intro i hi
      cases hi
    · exact List.filter_sublist.eq_of_length_le (Nat.le_of_not_lt hlength)
    · rw [prune, if_neg hlength]
      rfl

/-! ## The order of what is left -/

theorem pairwise_waiting (hn : n.Proper) {p : Progress} (hp : p.Exact n) :
    p.waiting.Pairwise (· < ·) := by
  have hkeys : (p.counts.map (·.1)).Pairwise (· < ·) := hp.keys ▸ hn.ascending
  exact hkeys.sublist (List.filter_sublist.map _)

theorem pairwise_prune_waiting (hn : n.Proper) :
    (n.prune n.finished.waiting).Pairwise (· < ·) :=
  (pairwise_waiting hn (exact_finished hn)).sublist (prune_sublist _)

end Nesting

/-! ## Declarations in another order -/

/-- The second record has the name of the first and its properties, in any order. -/
structure Record.Reorders (r s : Record) : Prop where
  name : s.name = r.name
  properties : s.properties.Perm r.properties

namespace Graph

variable {g g' : Graph}

/-- The records of the second graph are those of the first in any order, each with its properties
in any order. -/
def Reorders (g g' : Graph) : Prop :=
  ∃ records, records.Perm g.records ∧ List.Forall₂ Record.Reorders records g'.records

theorem Reorders.exists_right (h : g.Reorders g') {r : Record} (hr : r ∈ g.records) :
    ∃ s ∈ g'.records, r.Reorders s := by
  obtain ⟨records, hperm, hrecords⟩ := h
  exact Outcome.exists_result hrecords (hperm.mem_iff.mpr hr)

theorem Reorders.exists_left (h : g.Reorders g') {s : Record} (hs : s ∈ g'.records) :
    ∃ r ∈ g.records, r.Reorders s := by
  obtain ⟨records, hperm, hrecords⟩ := h
  obtain ⟨r, hr, hreorders⟩ := Outcome.exists_source hrecords hs
  exact ⟨r, hperm.mem_iff.mp hr, hreorders⟩

theorem Reorders.isRecordName_iff (h : g.Reorders g') {name : String} :
    g'.IsRecordName name ↔ g.IsRecordName name := by
  constructor
  · rintro ⟨s, hs, rfl⟩
    obtain ⟨r, hr, hreorders⟩ := h.exists_left hs
    exact ⟨r, hr, hreorders.name.symm⟩
  · rintro ⟨r, hr, rfl⟩
    obtain ⟨s, hs, hreorders⟩ := h.exists_right hr
    exact ⟨s, hs, hreorders.name⟩

theorem Reorders.mem_references_iff (h : g.Reorders g') {a b : String} :
    b ∈ g'.references a ↔ b ∈ g.references a := by
  rw [Graph.mem_references_iff, Graph.mem_references_iff]
  constructor
  · rintro ⟨s, hs, rfl, p, hp, hrecord⟩
    obtain ⟨r, hr, hreorders⟩ := h.exists_left hs
    exact ⟨r, hr, hreorders.name.symm, p, hreorders.properties.mem_iff.mp hp, hrecord⟩
  · rintro ⟨r, hr, rfl, p, hp, hrecord⟩
    obtain ⟨s, hs, hreorders⟩ := h.exists_right hr
    exact ⟨s, hs, hreorders.name, p, hreorders.properties.mem_iff.mpr hp, hrecord⟩

theorem Reorders.recordNames_eq (h : g.Reorders g') : g'.recordNames = g.recordNames := by
  refine g'.pairwise_recordNames.eq_of_mem_iff g.pairwise_recordNames fun name => ?_
  rw [mem_recordNames_iff, mem_recordNames_iff, h.isRecordName_iff]

theorem Reorders.ofGraph_eq (h : g.Reorders g') : Nesting.ofGraph g' = Nesting.ofGraph g := by
  have hcontains : ∀ a b, (g'.references a).contains b = (g.references a).contains b := by
    intro a b
    rw [Bool.eq_iff_iff, List.contains_iff_mem, List.contains_iff_mem, h.mem_references_iff]
  simp only [Nesting.ofGraph, List.filter_map, Function.comp_def, hcontains, h.recordNames_eq,
    List.map_map]

/-- **The order of records and properties does not matter to a report.** -/
theorem nestingReport_of_reorders (h : g.Reorders g') : g'.nestingReport = g.nestingReport := by
  rw [nestingReport, nestingReport, h.ofGraph_eq]

/-! ## The list of a report -/

/-- The records that no build order can take in. -/
def leftOver (g : Graph) : List String := (Nesting.ofGraph g).finished.waiting

/-- Between cycles are the records on cycles, and those that lie on a way from one to another. -/
theorem betweenCycles_iff {name : String} : g.BetweenCycles name ↔
    (∃ a, TransGen g.Embeds a a ∧ ReflTransGen g.Embeds a name) ∧
      ∃ b, TransGen g.Embeds b b ∧ ReflTransGen g.Embeds name b := by
  constructor
  · rintro ⟨⟨a, ha, habove⟩, b, hbelow, hb⟩
    exact ⟨⟨a, ha, habove.to_reflTransGen⟩, b, hb, hbelow.to_reflTransGen⟩
  · rintro ⟨⟨a, ha, habove⟩, b, hb, hbelow⟩
    exact ⟨⟨a, ha, ha.trans_left habove⟩, b, hb.trans_right hbelow, hb⟩

/-- **The list of a report on a graph with a cycle.** It holds the records between cycles,
ascending, so it is not empty and holds every record that embeds itself transitively. It is what
the last round of pruning leaves of the records left over, and it is the same for every order of
the records and of their properties. -/
theorem cycle?_spec (hcyclic : ∃ name, TransGen g.Embeds name name) :
    ∃ records, g.nestingReport.cycle? = some records ∧
      records.Pairwise (· < ·) ∧
      (∀ name, name ∈ records ↔
        (∃ a, TransGen g.Embeds a a ∧ ReflTransGen g.Embeds a name) ∧
          ∃ b, TransGen g.Embeds b b ∧ ReflTransGen g.Embeds name b) ∧
      records ≠ [] ∧
      (∀ name, TransGen g.Embeds name name → name ∈ records) ∧
      (∃ rounds ≤ g.leftOver.length, (Nesting.ofGraph g).PrunedAfter g.leftOver rounds ∧
        records = (Nesting.ofGraph g).embeddedWithin^[rounds] g.leftOver) ∧
      ∀ g' : Graph, g.Reorders g' → g'.nestingReport.cycle? = some records := by
  obtain ⟨name, hname⟩ := hcyclic
  have hmem : ∀ name, name ∈ (Nesting.ofGraph g).prune g.leftOver ↔
      (∃ a, TransGen g.Embeds a a ∧ ReflTransGen g.Embeds a name) ∧
        ∃ b, TransGen g.Embeds b b ∧ ReflTransGen g.Embeds name b := by
    intro name
    rw [leftOver, mem_prune_waiting_ofGraph_iff, betweenCycles_iff]
  have hself : ∀ name, TransGen g.Embeds name name →
      name ∈ (Nesting.ofGraph g).prune g.leftOver :=
    fun name h => (hmem name).mpr ⟨⟨name, h, .refl⟩, name, h, .refl⟩
  obtain ⟨rounds, hle, hpruned⟩ := (Nesting.ofGraph g).exists_prunedAfter g.leftOver
  have hlisted : g.nestingReport.cycle? = some ((Nesting.ofGraph g).prune g.leftOver) :=
    cycle?_of_transGen_embeds hname
  refine ⟨_, hlisted, Nesting.pairwise_prune_waiting (Nesting.proper_ofGraph g), hmem,
    List.ne_nil_of_mem (hself name hname), hself, ⟨rounds, hle, hpruned, hpruned.result⟩, ?_⟩
  intro g' hreorders
  rw [nestingReport_of_reorders hreorders, hlisted]

/-- The relays with everything declared the other way round. -/
def relaysBackwards : Graph :=
  { relays with records := relays.records.reverse.map fun r =>
      { r with properties := r.properties.reverse } }

theorem reorders_relaysBackwards : relays.Reorders relaysBackwards := by
  refine ⟨relays.records.reverse, List.reverse_perm _, ?_⟩
  rw [relaysBackwards, List.forall₂_map_right_iff, List.forall₂_same]
  intro r _
  exact ⟨rfl, List.reverse_perm _⟩

/-- The relay between the two loops is listed, wherever it is declared. -/
theorem cycle?_spec_relays : TransGen relays.Embeds "Intake" "Intake" ∧
    ∃ records, relays.nestingReport.cycle? = some records ∧ records.Pairwise (· < ·) ∧
      "Relay" ∈ records ∧ relaysBackwards.nestingReport.cycle? = some records := by
  have hintake : TransGen relays.Embeds "Intake" "Intake" :=
    .single (embeds_relays_iff.mpr (by simp))
  have hin : relays.Embeds "Intake" "Relay" := embeds_relays_iff.mpr (by simp)
  have hout : relays.Embeds "Relay" "Outlet" := embeds_relays_iff.mpr (by simp)
  have houtlet : TransGen relays.Embeds "Outlet" "Outlet" :=
    .single (embeds_relays_iff.mpr (by simp))
  obtain ⟨records, hlisted, hascending, hmem, -, -, -, hany⟩ := cycle?_spec ⟨"Intake", hintake⟩
  refine ⟨hintake, records, hlisted, hascending, ?_, hany _ reorders_relaysBackwards⟩
  exact (hmem "Relay").mpr ⟨⟨"Intake", hintake, .single hin⟩, "Outlet", houtlet, .single hout⟩

end Graph

end CollectionSchema
