import CollectionSchema.Proofs.BuildOrder

/-!
# The records in the way of a build order

Where there is no build order, the report lists records. The construction leaves over those that
wait for a record on a cycle, and pruning drops those that no other one embeds. Pruning works from
the side of the embedders only. So a record that is embedded from one cycle and embeds another one
stays in the list, although it is on no cycle.

* `mem_prune_iff`: pruning keeps the largest part of a list in which every name has an embedder.
* `mem_prune_waiting_iff`: what pruning keeps of the names left over lies between cycles.
* `mem_cycle?_iff`: the list of the report, and `relay_mem_cycle?` for a name on it that is on no
  cycle.
-/

namespace CollectionSchema

open Relation

namespace Nesting

variable {n : Nesting}

/-! ## Pruning -/

theorem mem_embeddedWithin_iff {names : List String} {b : String} :
    b ∈ n.embeddedWithin names ↔ b ∈ names ∧ ∃ a ∈ names, n.Embeds a b := by
  simp only [embeddedWithin, List.mem_filter, List.any_eq_true, List.contains_iff_mem, Embeds]
  refine and_congr_right fun _ => exists_congr fun a => ?_
  exact and_comm

theorem prune_sublist (names : List String) : (n.prune names).Sublist names := by
  induction names using prune.induct n with
  | case1 names hshorter ih =>
    rw [prune, if_pos hshorter]
    exact ih.trans List.filter_sublist
  | case2 names hlength =>
    rw [prune, if_neg hlength]

theorem prune_subset (names : List String) : ∀ b ∈ n.prune names, b ∈ names :=
  fun _ hb => (prune_sublist names).subset hb

/-- After pruning every name has an embedder among those that are left. -/
theorem exists_embedder_of_mem_prune (names : List String) :
    ∀ b ∈ n.prune names, ∃ a ∈ n.prune names, n.Embeds a b := by
  induction names using prune.induct n with
  | case1 names _ ih =>
    rw [prune, if_pos ‹_›]
    exact ih
  | case2 names hlength =>
    rw [prune, if_neg hlength]
    -- nothing was dropped in the last round
    have hall : n.embeddedWithin names = names :=
      List.filter_sublist.eq_of_length_le (Nat.le_of_not_lt hlength)
    intro b hb
    rw [← hall] at hb
    exact (mem_embeddedWithin_iff.mp hb).2

/-- **Pruning keeps the largest part of a list in which every name has an embedder.** -/
theorem mem_prune_iff {names : List String} {b : String} : b ∈ n.prune names ↔
    ∃ s : String → Prop, s b ∧ (∀ a, s a → a ∈ names) ∧ ∀ b, s b → ∃ a, s a ∧ n.Embeds a b := by
  constructor
  · intro hb
    exact ⟨(· ∈ n.prune names), hb, prune_subset names, exists_embedder_of_mem_prune names⟩
  · rintro ⟨s, hb, hnames, hs⟩
    exact mem_prune hs hnames b hb

/-! ## Between cycles -/

/-- In a finite set where every element leads on to another, every element leads to a cycle. -/
theorem exists_cycle_of_mem {α : Type} {r : α → α → Prop} {s : Set α} (hs : s.Finite)
    (hnext : ∀ a ∈ s, ∃ b ∈ s, r a b) {a : α} (ha : a ∈ s) :
    ∃ b, TransGen r a b ∧ TransGen r b b := by
  -- what `a` leads to within the set
  let later : Set α := {b | b ∈ s ∧ TransGen r a b}
  have hne : later.Nonempty := by
    obtain ⟨b, hb, hab⟩ := hnext a ha
    exact ⟨b, hb, .single hab⟩
  have hlater : ∀ b ∈ later, ∃ c ∈ later, r b c ∧ TransGen r a b := by
    rintro b ⟨hb, hab⟩
    obtain ⟨c, hc, hbc⟩ := hnext b hb
    exact ⟨c, ⟨hc, hab.tail hbc⟩, hbc, hab⟩
  obtain ⟨b, hb⟩ := exists_transGen_self (hs.subset fun b hb => hb.1) hne hlater
  obtain ⟨_, ⟨-, hab⟩, -⟩ := TransGen.head'_iff.mp hb
  exact ⟨b, hab, hb.lift id fun _ _ h => h.1⟩

/-- A record that still waits at the end transitively embeds one on a cycle. -/
theorem exists_cycle_of_mem_waiting (hn : n.Proper) {a : String}
    (ha : a ∈ n.finished.waiting) : ∃ b, TransGen n.Embeds a b ∧ TransGen n.Embeds b b := by
  obtain ⟨-, b, hab, hb⟩ := (mem_waiting_iff hn (exact_finished hn)).mp ha
  have hfinite : {b | b ∈ n.names ∧ b ∉ n.finished.order}.Finite :=
    (List.finite_toSet n.names).subset fun b hb => hb.1
  have hnext : ∀ b ∈ {b | b ∈ n.names ∧ b ∉ n.finished.order},
      ∃ c ∈ {b | b ∈ n.names ∧ b ∉ n.finished.order}, n.Embeds b c := by
    rintro b ⟨hname, hb⟩
    obtain ⟨c, hbc, hc⟩ := exists_embeds_of_not_mem_finished hn hname hb
    exact ⟨c, ⟨hn.embedded hbc, hc⟩, hbc⟩
  obtain ⟨c, hbc, hc⟩ := exists_cycle_of_mem hfinite hnext ⟨hn.embedded hab, hb⟩
  exact ⟨c, .head hab hbc, hc⟩

/-- A record that transitively embeds one on a cycle waits at the end. -/
theorem mem_waiting_of_cycle (hn : n.Proper) {a b : String} (hab : TransGen n.Embeds a b)
    (hb : TransGen n.Embeds b b) : a ∈ n.finished.waiting := by
  have hexact := exact_finished hn
  obtain ⟨c, hac, hcb⟩ := TransGen.head'_iff.mp hab
  refine (mem_waiting_iff hn hexact).mpr ⟨hn.embedder hac, c, hac, fun hc => ?_⟩
  -- else `b` were in the order too, together with all it embeds
  have hmem : b ∈ n.finished.order := by
    clear hac hab
    induction hcb using ReflTransGen.head_induction_on with
    | refl => exact hc
    | head hcd _ ih => exact ih (hexact.order.mem_of_embeds hc hcd)
  exact hexact.order.not_cyclic hmem hb

/-- **What pruning keeps of the records that wait** is embedded by a record on a cycle and embeds
one, both transitively. -/
theorem mem_prune_waiting_iff (hn : n.Proper) {name : String} :
    name ∈ n.prune n.finished.waiting ↔
      (∃ a, TransGen n.Embeds a a ∧ TransGen n.Embeds a name) ∧
        ∃ b, TransGen n.Embeds name b ∧ TransGen n.Embeds b b := by
  constructor
  · intro hname
    refine ⟨?_, exists_cycle_of_mem_waiting hn (prune_subset _ name hname)⟩
    have hfinite : {b | b ∈ n.prune n.finished.waiting}.Finite := List.finite_toSet _
    obtain ⟨a, hpath, hcycle⟩ := exists_cycle_of_mem (r := Function.swap n.Embeds) hfinite
      (exists_embedder_of_mem_prune _) hname
    exact ⟨a, transGen_swap.mp hcycle, transGen_swap.mp hpath⟩
  · rintro ⟨⟨a, ha, hpath⟩, b, hb, hcycle⟩
    -- all that lies between the cycles of `a` and `b`
    refine mem_prune_iff.mpr ⟨fun c => TransGen n.Embeds a c ∧ TransGen n.Embeds c b,
      ⟨hpath, hb⟩, ?_, ?_⟩
    · rintro c ⟨-, hcb⟩
      exact mem_waiting_of_cycle hn hcb hcycle
    · rintro c ⟨hac, hcb⟩
      obtain ⟨d, had, hdc⟩ := TransGen.tail'_iff.mp hac
      -- the record before `c` may be `a` itself, which its own cycle leads to
      exact ⟨d, ⟨TransGen.trans_left ha had, .head hdc hcb⟩, hdc⟩

end Nesting

/-! ## The list of a report -/

namespace Graph

variable {g : Graph}

/-- A record on a cycle embeds this one, and this one embeds a record on a cycle, both
transitively. -/
def BetweenCycles (g : Graph) (name : String) : Prop :=
  (∃ a, TransGen g.Embeds a a ∧ TransGen g.Embeds a name) ∧
    ∃ b, TransGen g.Embeds name b ∧ TransGen g.Embeds b b

theorem mem_prune_waiting_ofGraph_iff {name : String} :
    name ∈ (Nesting.ofGraph g).prune (Nesting.ofGraph g).finished.waiting ↔
      g.BetweenCycles name := by
  rw [BetweenCycles, ← Nesting.embeds_ofGraph]
  exact Nesting.mem_prune_waiting_iff (Nesting.proper_ofGraph g)

theorem exists_cycle?_of_buildOrder?_eq_none (h : g.nestingReport.buildOrder? = none) :
    ∃ records, g.nestingReport.cycle? = some records ∧
      ∀ name, name ∈ records ↔ g.BetweenCycles name := by
  refine ⟨_, ?_, fun name => mem_prune_waiting_ofGraph_iff⟩
  by_cases hlength :
      (Nesting.ofGraph g).finished.order.length = (Nesting.ofGraph g).names.length
  · rw [buildOrder?_of_length_eq hlength] at h
    cases h
  · exact cycle?_of_length_ne hlength

/-- **The report lists the records on cycles and those between two cycles.** A record that only
embeds records on a cycle, or is only embedded by some, is not listed. -/
theorem mem_cycle?_iff (h : g.nestingReport.buildOrder? = none) :
    ∃ records, g.nestingReport.cycle? = some records ∧ ∀ name,
      name ∈ records ↔ TransGen g.Embeds name name ∨
        ¬ TransGen g.Embeds name name ∧ g.BetweenCycles name := by
  obtain ⟨records, hrecords, hlist⟩ := exists_cycle?_of_buildOrder?_eq_none h
  refine ⟨records, hrecords, fun name => ?_⟩
  have hself : TransGen g.Embeds name name → g.BetweenCycles name :=
    fun hcycle => ⟨⟨name, hcycle, hcycle⟩, name, hcycle, hcycle⟩
  rw [hlist name]
  constructor
  · intro hbetween
    by_cases hcycle : TransGen g.Embeds name name
    · exact .inl hcycle
    · exact .inr ⟨hcycle, hbetween⟩
  · rintro (hcycle | ⟨-, hbetween⟩)
    · exact hself hcycle
    · exact hbetween

/-! ### A relay between two loops -/

/-- Intakes and outlets feed back into themselves, and a relay stands between them. -/
def relays : Graph where
  records := [
    ⟨"Intake", none, [⟨"back", .record "Intake", true, []⟩, ⟨"next", .record "Relay", false, []⟩]⟩,
    ⟨"Relay", none, [⟨"next", .record "Outlet", false, []⟩]⟩,
    ⟨"Outlet", none, [⟨"back", .record "Outlet", true, []⟩]⟩]
  enums := []
  pending := []

theorem buildOrder?_relays : relays.nestingReport.buildOrder? = none := by decide

theorem embeds_relays_iff {a b : String} : relays.Embeds a b ↔
    (a, b) ∈ [("Intake", "Intake"), ("Intake", "Relay"), ("Relay", "Outlet"),
      ("Outlet", "Outlet")] := by
  simp only [Embeds, IsRecordName, relays, List.mem_cons, List.not_mem_nil, or_false,
    exists_eq_or_imp, exists_eq_left, TypeRef.record?, Option.some.injEq, Prod.mk.injEq]
  grind

theorem mem_cycle?_iff_relays : relays.nestingReport.buildOrder? = none ∧
    ∃ records, relays.nestingReport.cycle? = some records ∧ "Intake" ∈ records := by
  have hintake : relays.Embeds "Intake" "Intake" := embeds_relays_iff.mpr (by simp)
  obtain ⟨records, hrecords, hlist⟩ := mem_cycle?_iff buildOrder?_relays
  exact ⟨buildOrder?_relays, records, hrecords, (hlist "Intake").mpr (.inl (.single hintake))⟩

/-- **The relay is listed and is on no cycle.** All it embeds are outlets. -/
theorem relay_mem_cycle? : relays.nestingReport.buildOrder? = none ∧
    ∃ records, relays.nestingReport.cycle? = some records ∧ "Relay" ∈ records ∧
      ¬ TransGen relays.Embeds "Relay" "Relay" := by
  have hintake : relays.Embeds "Intake" "Intake" := embeds_relays_iff.mpr (by simp)
  have hin : relays.Embeds "Intake" "Relay" := embeds_relays_iff.mpr (by simp)
  have hout : relays.Embeds "Relay" "Outlet" := embeds_relays_iff.mpr (by simp)
  have houtlet : relays.Embeds "Outlet" "Outlet" := embeds_relays_iff.mpr (by simp)
  have hbelow : ∀ b, TransGen relays.Embeds "Relay" b → b = "Outlet" := by
    intro b hb
    induction hb with
    | single h => simpa using embeds_relays_iff.mp h
    | tail _ h ih => simpa [ih] using embeds_relays_iff.mp h
  obtain ⟨records, hrecords, hlist⟩ := exists_cycle?_of_buildOrder?_eq_none buildOrder?_relays
  refine ⟨buildOrder?_relays, records, hrecords, (hlist "Relay").mpr ?_, fun hcycle => ?_⟩
  · exact ⟨⟨"Intake", .single hintake, .single hin⟩, "Outlet", .single hout, .single houtlet⟩
  · exact absurd (hbelow "Relay" hcycle) (by decide)

end Graph

end CollectionSchema
