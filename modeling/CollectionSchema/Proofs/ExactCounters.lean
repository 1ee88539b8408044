import CollectionSchema.Proofs.CycleRecords
import CollectionSchema.Proofs.DeclarationOrder

/-!
# The counters of a build order

Whenever the construction of a build order takes up its next record, the counter of every record is
the number of different records that it embeds and that are not in the order yet, and the ready
records are those with counter zero that are not in the order. This holds from the first record on
(`Progress.Reached`), and inside a step no counter is lowered that is zero already
(`Progress.Lowers`), so it does not matter that subtraction stops at zero.

* `tally_eq`: the counters at the start are those that counting the pairs of the relation gives.
* `Progress.exact_of_reached`: the counters are exact in all states that the construction comes to.
* `Progress.exists_lookup_eq_succ_of_lowers`: a counter that is lowered is positive.
* `eq_finished_of_reached`: the construction ends in one state only.
* `lookup_finished_pos_iff`: the counters that are positive then are those of the records on cycles
  and of the records that embed one on a cycle.

`counters_exact` joins them for a graph.
-/

namespace CollectionSchema

open Relation

namespace Nesting

variable {n : Nesting}

/-! ## Counting pairs -/

/-- Counts one up for a name. -/
def raise (counts : List (String × Nat)) (name : String) : List (String × Nat) :=
  putAscending name ((counts.lookup name).getD 0 + 1) counts

/-- The counters that one pass over the relation gives: zero for every record, and one up each time
that it is listed as an embedder. -/
def tally (n : Nesting) : List (String × Nat) :=
  (n.embedders.flatMap (·.2)).foldl raise (n.names.map fun name => (name, 0))

theorem lookup_foldl_raise (counts : List (String × Nat)) (names : List String) (a : String) :
    (names.foldl raise counts).lookup a =
      if a ∈ names then some ((counts.lookup a).getD 0 + names.count a) else counts.lookup a := by
  induction names generalizing counts with
  | nil => simp
  | cons name rest ih =>
    rw [List.foldl_cons, ih, raise, lookup_putAscending]
    by_cases ha : a = name
    · subst ha
      by_cases hrest : a ∈ rest
      · simp [hrest, Nat.add_assoc, Nat.add_comm 1]
      · simp [hrest, List.count_eq_zero_of_not_mem]
    · have hcount : (name :: rest).count a = rest.count a :=
        List.count_cons_of_ne (Ne.symm ha)
      simp [ha, hcount]

theorem pairwise_foldl_raise {counts : List (String × Nat)} (h : counts.Pairwise (·.1 < ·.1))
    (names : List String) : (names.foldl raise counts).Pairwise (·.1 < ·.1) := by
  induction names generalizing counts with
  | nil => exact h
  | cons name rest ih => exact ih (pairwise_putAscending h)

/-- How often a name is listed as an embedder is the number of records that it embeds. -/
theorem count_flatMap_eq_countP {embedders : List (String × List String)}
    (h : ∀ entry ∈ embedders, entry.2.Nodup) (a : String) :
    (embedders.flatMap (·.2)).count a = embedders.countP (·.2.contains a) := by
  induction embedders with
  | nil => rfl
  | cons entry rest ih =>
    obtain ⟨hentry, hrest⟩ := List.forall_mem_cons.mp h
    rw [List.flatMap_cons, List.count_append, ih hrest, hentry.count, List.countP_cons,
      Nat.add_comm]
    simp

/-- **The counters at the start count the pairs of the relation.** -/
theorem tally_eq (hn : n.Proper) : n.tally = (Progress.start n).counts := by
  have hascending (count : String → Nat) :
      (n.names.map fun name => (name, count name)).Pairwise (·.1 < ·.1) :=
    List.pairwise_map.mpr hn.ascending
  refine eq_of_lookup_eq (pairwise_foldl_raise (hascending _) _) (hascending _) fun a => ?_
  have hcount : (n.embedders.flatMap (·.2)).count a = n.embedders.countP (·.2.contains a) :=
    count_flatMap_eq_countP (fun entry hentry =>
      embeddersOf_of_mem hn.nodup_names hentry ▸ hn.nodup entry.1) a
  rw [tally, lookup_foldl_raise, Progress.start]
  by_cases ha : a ∈ n.names
  · rw [List.lookup_graph _ ha, List.lookup_graph _ ha, Option.getD_some, Nat.zero_add, hcount]
    split
    · rfl
    · next hlisted => rw [← hcount, List.count_eq_zero_of_not_mem hlisted]
  · have hlisted : a ∉ n.embedders.flatMap (·.2) := by
      intro hmem
      obtain ⟨entry, hentry, hembedder⟩ := List.mem_flatMap.mp hmem
      rw [← embeddersOf_of_mem hn.nodup_names hentry] at hembedder
      exact ha (hn.embedder hembedder)
    rw [if_neg hlisted, lookup_graph_of_not_mem _ ha, lookup_graph_of_not_mem _ ha]

/-! ## States of the construction -/

/-- The number of different records that a record embeds and that are not in the order. -/
theorem remaining_eq_ncard (hn : n.Proper) (order : List String) (a : String) :
    n.remaining order a = {b | n.Embeds a b ∧ b ∉ order}.ncard := by
  have hmem (b : String) :
      b ∈ n.names.filter (fun b => (n.embeddersOf b).contains a && !order.contains b) ↔
        n.Embeds a b ∧ b ∉ order := by
    simp only [List.mem_filter, Bool.and_eq_true, Bool.not_eq_true', List.contains_eq_mem,
      decide_eq_true_eq, decide_eq_false_iff_not]
    exact and_iff_right_of_imp fun h => hn.embedded h.1
  rw [remaining, List.countP_eq_length_filter, ← ncard_setOf_mem (hn.nodup_names.filter _)]
  simp only [hmem]

namespace Progress

variable {p q : Progress} {a : String}

/-- A state that the construction comes to, with a record to be taken up next or at the end. -/
def Reached (n : Nesting) (p : Progress) : Prop :=
  ReflTransGen (fun p q => p.step? n = some q) (start n) p

theorem reached_run (n : Nesting) (fuel : Nat) : Reached n (run n fuel (start n)) :=
  run_induction (fun _ _ hp h => hp.tail h) fuel .refl

/-- **The counters are exact in every state.** By induction on the steps. -/
theorem exact_of_reached (hn : n.Proper) (h : Reached n p) : p.Exact n := by
  induction h with
  | refl => exact exact_start hn
  | tail _ hstep ih => exact exact_step hn ih hstep

theorem Exact.lookup_eq_some_iff (hp : p.Exact n) {count : Nat} :
    p.counts.lookup a = some count ↔ a ∈ n.names ∧ n.remaining p.order a = count := by
  constructor
  · intro hlookup
    have ha : a ∈ n.names := by
      obtain ⟨before, after, hcounts, -⟩ := List.lookup_eq_some_iff.mp hlookup
      rw [← hp.keys, hcounts]
      simp
    rw [hp.counts a ha] at hlookup
    exact ⟨ha, Option.some.inj hlookup⟩
  · rintro ⟨ha, rfl⟩
    exact hp.counts a ha

/-- The ready records are those with counter zero that are not in the order. -/
theorem Exact.mem_ready_iff (hp : p.Exact n) :
    a ∈ p.ready ↔ p.counts.lookup a = some 0 ∧ a ∉ p.order := by
  rw [hp.ready, hp.lookup_eq_some_iff]
  constructor
  · rintro ⟨hname, hfresh, hzero⟩
    exact ⟨⟨hname, hzero⟩, hfresh⟩
  · rintro ⟨⟨hname, hzero⟩, hfresh⟩
    exact ⟨hname, hfresh, hzero⟩

/-! ## Inside a step -/

/-- In the step from the first state the counter of a record is lowered next when the construction
is in the second one: some embedders of the record taken up are released, and this one follows. -/
inductive Lowers (n : Nesting) (p : Progress) : Progress → String → Prop
  | intro {name a : String} {ready before after : List String} (hready : p.ready = name :: ready)
      (hsplit : n.embeddersOf name = before ++ a :: after) :
      Lowers n p (before.foldl release { p with ready, order := p.order ++ [name] }) a

/-- **A counter that is lowered is positive**, and its record is neither ready nor in the order. -/
theorem exists_lookup_eq_succ_of_lowers (hn : n.Proper) (hp : p.Exact n) (h : Lowers n p q a) :
    (∃ count, q.counts.lookup a = some (count + 1)) ∧ a ∉ q.ready ∧ a ∉ q.order := by
  cases h with
  | @intro name _ ready before after hready hsplit =>
    have hname : name ∈ p.ready := hready ▸ List.mem_cons_self
    obtain ⟨-, hfresh, -⟩ := (hp.ready name).mp hname
    have hembeds : n.Embeds a name := by
      rw [Embeds, hsplit]
      exact List.mem_append_right _ List.mem_cons_self
    have hnodup := hn.nodup name
    rw [hsplit] at hnodup
    obtain ⟨hbefore, -, hdisjoint⟩ := List.nodup_append.mp hnodup
    have hlater : a ∉ before := fun hmem => hdisjoint a hmem a List.mem_cons_self rfl
    -- the record taken up is one of those that `a` still waits for
    have hcount := hp.counts a (hn.embedder hembeds)
    rw [remaining_snoc_of_embeds hn hfresh hembeds] at hcount
    refine ⟨⟨n.remaining (p.order ++ [name]) a, ?_⟩, fun hmem => ?_, ?_⟩
    · rw [lookup_foldl_release _ hbefore]
      simp only [hcount, Option.map_some, if_neg hlater]
    · rcases (mem_ready_foldl_release hbefore).mp hmem with hmem | ⟨hmem, -⟩
      · have hzero := (hp.mem_ready_iff.mp (hready ▸ List.mem_cons_of_mem _ hmem)).1
        rw [hcount] at hzero
        cases hzero
      · exact hlater hmem
    · rw [order_foldl_release]
      exact hp.not_mem_of_embeds_ready hn hname hembeds

end Progress

/-! ## The end of the construction -/

theorem reached_finished (n : Nesting) : Progress.Reached n n.finished := Progress.reached_run n _

theorem step?_finished (hn : n.Proper) : n.finished.step? n = none := by
  rw [Progress.step?, ready_finished hn]

/-- The construction ends in one state only. -/
theorem eq_finished_of_reached (hn : n.Proper) {p : Progress} (h : Progress.Reached n p)
    (hend : p.step? n = none) : p = n.finished := by
  have hunique : Relator.RightUnique fun p q : Progress => p.step? n = some q :=
    fun _ _ _ h h' => Option.some.inj (h.symm.trans h')
  have hlast {p q : Progress} (hp : p.step? n = none)
      (hpq : ReflTransGen (fun p q => p.step? n = some q) p q) : p = q := by
    rcases hpq.cases_head with heq | ⟨next, hnext, -⟩
    · exact heq
    · rw [hp] at hnext
      cases hnext
  rcases h.total_of_right_unique hunique (reached_finished n) with hpath | hpath
  · exact hlast hend hpath
  · exact (hlast (step?_finished hn) hpath).symm

theorem Progress.Exact.mem_waiting_iff_lookup (hn : n.Proper) {p : Progress} (hp : p.Exact n)
    {a : String} : a ∈ p.waiting ↔ ∃ count, p.counts.lookup a = some count ∧ 0 < count := by
  rw [mem_waiting_iff hn hp]
  constructor
  · rintro ⟨ha, b, hab, hb⟩
    refine ⟨_, hp.counts a ha, Nat.pos_of_ne_zero fun hzero => ?_⟩
    exact hb ((remaining_eq_zero_iff hn).mp hzero b hab)
  · rintro ⟨count, hlookup, hpositive⟩
    obtain ⟨ha, rfl⟩ := hp.lookup_eq_some_iff.mp hlookup
    refine ⟨ha, ?_⟩
    by_contra! hnone
    exact absurd ((remaining_eq_zero_iff hn).mpr hnone) hpositive.ne'

/-- **The counters that are positive at the end** are those of the records on cycles and of the
records that embed one on a cycle. -/
theorem lookup_finished_pos_iff (hn : n.Proper) {a : String} :
    (∃ count, n.finished.counts.lookup a = some count ∧ 0 < count) ↔
      TransGen n.Embeds a a ∨ ∃ b, TransGen n.Embeds a b ∧ TransGen n.Embeds b b := by
  rw [← (exact_finished hn).mem_waiting_iff_lookup hn]
  constructor
  · intro hwaiting
    exact .inr (exists_cycle_of_mem_waiting hn hwaiting)
  · rintro (hcycle | ⟨b, hab, hcycle⟩)
    · exact mem_waiting_of_cycle hn hcycle hcycle
    · exact mem_waiting_of_cycle hn hab hcycle

end Nesting

/-! ## The counters of a graph -/

namespace Graph

open Nesting (ofGraph)
open Nesting.Progress (Reached Lowers)

variable {g : Graph}

/-- The counters of the records of a graph, the ready records and the order agree. -/
structure CountersExact (g : Graph) (p : Nesting.Progress) : Prop where
  /-- a counter is the number of records that are embedded and not in the order -/
  counter : ∀ name count, p.counts.lookup name = some count ↔
    g.IsRecordName name ∧ {b | g.Embeds name b ∧ b ∉ p.order}.ncard = count
  ready : ∀ name, name ∈ p.ready ↔ p.counts.lookup name = some 0 ∧ name ∉ p.order
  ascending : p.ready.Pairwise (· < ·)
  nodup : p.order.Nodup

theorem countersExact_of_reached {p : Nesting.Progress} (h : Reached (ofGraph g) p) :
    g.CountersExact p := by
  have hn := Nesting.proper_ofGraph g
  have hp := Nesting.Progress.exact_of_reached hn h
  refine ⟨fun name count => ?_, fun name => hp.mem_ready_iff, hp.ascending, hp.order.nodup⟩
  rw [hp.lookup_eq_some_iff, Nesting.remaining_eq_ncard hn, Nesting.names_ofGraph,
    mem_recordNames_iff, Nesting.embeds_ofGraph]

/-- **The counters of a build order are exact.** They start as the numbers of pairs of the relation.
In every state that the construction comes to, the counter of a record is the number of different
records that it embeds and that are not in the order yet, the ready records are those with counter
zero that are not in the order, and no record is in the order twice. Inside a step no counter is
lowered that is zero already, and no record that is ready or in the order is released again. The
construction ends in one state only, and the counters that are positive then are those of the
records that are on a cycle or transitively embed one that is. -/
theorem counters_exact (g : Graph) :
    (ofGraph g).tally = (Nesting.Progress.start (ofGraph g)).counts ∧
    (∀ p, Reached (ofGraph g) p → g.CountersExact p ∧ ∀ q name, Lowers (ofGraph g) p q name →
      (∃ count, q.counts.lookup name = some (count + 1)) ∧ name ∉ q.ready ∧ name ∉ q.order) ∧
    (Reached (ofGraph g) (ofGraph g).finished ∧
      (ofGraph g).finished.step? (ofGraph g) = none) ∧
    ∀ p, Reached (ofGraph g) p → p.step? (ofGraph g) = none → p = (ofGraph g).finished ∧
      ∀ name, (∃ count, p.counts.lookup name = some count ∧ 0 < count) ↔
        TransGen g.Embeds name name ∨
          ∃ b, TransGen g.Embeds name b ∧ TransGen g.Embeds b b := by
  have hn := Nesting.proper_ofGraph g
  refine ⟨Nesting.tally_eq hn, fun p hp => ⟨countersExact_of_reached hp, ?_⟩,
    ⟨Nesting.reached_finished _, Nesting.step?_finished hn⟩, fun p hp hend => ?_⟩
  · intro q name hlowers
    exact Nesting.Progress.exists_lookup_eq_succ_of_lowers hn
      (Nesting.Progress.exact_of_reached hn hp) hlowers
  · obtain rfl := Nesting.eq_finished_of_reached hn hp hend
    refine ⟨rfl, fun name => ?_⟩
    rw [Nesting.lookup_finished_pos_iff hn, Nesting.embeds_ofGraph]

/-- A pallet has crates and a lid that is one, and a ship has pallets, a crate and a sister. -/
def docks : Graph where
  records := [
    ⟨"Ship", none, [⟨"load", .list (.record "Pallet"), false, []⟩,
      ⟨"spare", .record "Crate", false, []⟩, ⟨"sister", .record "Ship", true, []⟩]⟩,
    ⟨"Pallet", none, [⟨"crates", .list (.record "Crate"), false, []⟩,
      ⟨"lid", .record "Crate", false, []⟩]⟩,
    ⟨"Crate", none, []⟩]
  enums := []
  pending := []

/-- When the crates are in the order, a ship waits for two more records. Its counter is lowered for
the pallets, and it is left over in the end because of its sister. -/
theorem counters_exact_docks : ∃ p q, Reached (ofGraph docks) p ∧ p.order = ["Crate"] ∧
    {b | docks.Embeds "Ship" b ∧ b ∉ p.order}.ncard = 2 ∧ Lowers (ofGraph docks) p q "Ship" ∧
    (∃ count, q.counts.lookup "Ship" = some (count + 1)) ∧
    (TransGen docks.Embeds "Ship" "Ship" ∨
      ∃ b, TransGen docks.Embeds "Ship" b ∧ TransGen docks.Embeds b b) := by
  obtain ⟨-, hreached, ⟨hfinished, hend⟩, hlast⟩ := counters_exact docks
  have hfirst := Nesting.Progress.reached_run (ofGraph docks) 1
  have hready : (Nesting.Progress.run (ofGraph docks) 1 (.start (ofGraph docks))).ready =
      ["Pallet"] := by decide
  have hembedders : (ofGraph docks).embeddersOf "Pallet" = [] ++ ["Ship"] := by decide
  have hlowers := Lowers.intro hready hembedders
  obtain ⟨hexact, hlowered⟩ := hreached _ hfirst
  refine ⟨_, _, hfirst, by decide, ?_, hlowers, (hlowered _ _ hlowers).1, ?_⟩
  · exact ((hexact.counter "Ship" 2).mp (by decide)).2
  · exact ((hlast _ hfinished hend).2 "Ship").mp ⟨1, by decide, by decide⟩

end Graph

end CollectionSchema
