import CollectionSchema.Proofs.NestingRelation
import Mathlib.Order.WellFounded
import Mathlib.Data.Fintype.EquivFin

/-!
# The build order

The construction of a build order keeps its counters exact (`Progress.Exact`): a counter is the
number of embedded records that are not in the order yet, and the ready records are those with
nothing left to wait for. `exact_step` is the step lemma and `exact_finished` the run lemma.

What follows from exact counters at the end:

* `acyclic_of_complete`, `exists_cycle_of_incomplete`: every record gets into the order exactly
  if none embeds itself transitively.
* `Progress.Leads`: no build order is lexicographically before the one under construction, since
  each step takes the least record that any build order can go on with.
* `mem_prune_of_cyclic`: pruning keeps every record on a cycle.

`nestingReport_spec` joins them for the report of a graph.
-/

namespace CollectionSchema

open Relation

namespace Nesting

variable {n : Nesting}

/-! ## Sequences of records -/

/-- Records without repetition, each after all records that it embeds. -/
structure Sequenced (n : Nesting) (order : List String) : Prop where
  nodup : order.Nodup
  subset : order ⊆ n.names
  after : ∀ before a rest, order = before ++ a :: rest → ∀ b, n.Embeds a b → b ∈ before

theorem sequenced_nil (n : Nesting) : n.Sequenced [] where
  nodup := List.nodup_nil
  subset := List.nil_subset _
  after before a rest h := by simp at h

theorem Sequenced.mem_of_embeds {order : List String} (h : n.Sequenced order) {a b : String}
    (ha : a ∈ order) (hab : n.Embeds a b) : b ∈ order := by
  obtain ⟨before, rest, rfl⟩ := List.mem_iff_append.mp ha
  exact List.mem_append_left _ (h.after before a rest rfl b hab)

theorem Sequenced.snoc {order : List String} (h : n.Sequenced order) {name : String}
    (hname : name ∈ n.names) (hfresh : name ∉ order) (hbelow : ∀ b, n.Embeds name b → b ∈ order) :
    n.Sequenced (order ++ [name]) where
  nodup := by
    rw [List.nodup_append]
    refine ⟨h.nodup, List.nodup_singleton name, fun a ha b hb heq => ?_⟩
    obtain rfl := List.mem_singleton.mp hb
    exact hfresh (heq ▸ ha)
  subset := List.append_subset.mpr ⟨h.subset, by simpa using hname⟩
  after before a rest hsplit := by
    rcases List.eq_nil_or_concat rest with rfl | ⟨rest, last, rfl⟩
    · obtain ⟨rfl, hlast⟩ := List.append_inj' hsplit rfl
      obtain rfl := List.singleton_inj.mp hlast
      exact hbelow
    · rw [List.concat_eq_append, ← List.cons_append, ← List.append_assoc] at hsplit
      obtain ⟨rfl, -⟩ := List.append_inj' hsplit rfl
      exact h.after before a rest rfl

/-- Whatever a record embeds transitively stands before it. -/
theorem Sequenced.mem_before {order : List String} (h : n.Sequenced order) {a b : String}
    (hab : TransGen n.Embeds a b) {before rest : List String}
    (hsplit : order = before ++ a :: rest) : b ∈ before := by
  induction hab with
  | single hab => exact h.after before a rest hsplit _ hab
  | @tail c b _ hcb ih =>
    obtain ⟨first, second, rfl⟩ := List.mem_iff_append.mp ih
    have hmem : b ∈ first := by
      refine h.after first c (second ++ a :: rest) ?_ b hcb
      rw [hsplit, List.append_assoc, List.cons_append]
    exact List.mem_append_left _ hmem

theorem Sequenced.not_cyclic {order : List String} (h : n.Sequenced order) {a : String}
    (ha : a ∈ order) : ¬ TransGen n.Embeds a a := by
  intro hcycle
  obtain ⟨before, rest, rfl⟩ := List.mem_iff_append.mp ha
  have hbefore : a ∈ before := h.mem_before hcycle rfl
  have hdisjoint := (List.nodup_append.mp h.nodup).2.2
  exact hdisjoint a hbefore a List.mem_cons_self rfl

/-! ## Counters -/

/-- The number of records that a record embeds and that are not in the order. -/
def remaining (n : Nesting) (order : List String) (a : String) : Nat :=
  n.names.countP fun b => (n.embeddersOf b).contains a && !order.contains b

theorem remaining_eq_zero_iff (hn : n.Proper) {order : List String} {a : String} :
    n.remaining order a = 0 ↔ ∀ b, n.Embeds a b → b ∈ order := by
  simp only [remaining, List.countP_eq_zero, Bool.and_eq_true, Bool.not_eq_true',
    List.contains_eq_mem, decide_eq_true_eq, decide_eq_false_iff_not, not_and, not_not]
  constructor
  · intro h b hb
    exact h b (hn.embedded hb) hb
  · intro h b _ hb
    exact h b hb

theorem countP_eq_succ {p q : String → Bool} {names : List String} (hnodup : names.Nodup)
    {x : String} (hx : x ∈ names) (hpx : p x = true) (hqx : q x = false)
    (hsame : ∀ y, y ≠ x → p y = q y) : names.countP p = names.countP q + 1 := by
  obtain ⟨before, after, rfl⟩ := List.mem_iff_append.mp hx
  obtain ⟨-, hafter, hdisjoint⟩ := List.nodup_append.mp hnodup
  have hxafter := (List.nodup_cons.mp hafter).1
  have hbefore : before.countP p = before.countP q := by
    refine List.countP_congr fun y hy => ?_
    rw [hsame y fun heq => hdisjoint y hy x List.mem_cons_self heq]
  have hrest : after.countP p = after.countP q := by
    refine List.countP_congr fun y hy => ?_
    rw [hsame y fun heq => hxafter (heq ▸ hy)]
  rw [List.countP_append, List.countP_append, List.countP_cons_of_pos hpx,
    List.countP_cons_of_neg (by simp [hqx]), hbefore, hrest]
  omega

/-- A record in the order is one less to wait for, to those that embed it. -/
theorem remaining_snoc_of_embeds (hn : n.Proper) {order : List String} {a name : String}
    (hfresh : name ∉ order) (ha : n.Embeds a name) :
    n.remaining order a = n.remaining (order ++ [name]) a + 1 := by
  refine countP_eq_succ hn.nodup_names (hn.embedded ha) ?_ ?_ fun b hb => ?_
  · have hmem : a ∈ n.embeddersOf name := ha
    simp [hmem, hfresh]
  · simp
  · simp [hb]

theorem remaining_snoc_of_not_embeds {order : List String} {a name : String}
    (ha : ¬ n.Embeds a name) : n.remaining (order ++ [name]) a = n.remaining order a := by
  refine List.countP_congr fun b _ => ?_
  by_cases hb : b = name
  · subst hb
    have hmem : a ∉ n.embeddersOf b := ha
    simp [hmem]
  · simp [hb]

namespace Progress

theorem map_fst_release (p : Progress) (name : String) :
    (p.release name).counts.map (·.1) = p.counts.map (·.1) := by
  cases hlookup : p.counts.lookup name with
  | none => rw [release_of_lookup_eq_none hlookup]
  | some count =>
    rw [release_of_lookup_eq_some hlookup, List.map_map]
    refine List.map_congr_left fun entry _ => ?_
    simp only [Function.comp_apply]
    split
    · next heq => exact heq.symm
    · rfl

theorem lookup_release (p : Progress) (name a : String) :
    (p.release name).counts.lookup a =
      (p.counts.lookup a).map fun count => if a = name then count - 1 else count := by
  cases hlookup : p.counts.lookup name with
  | none =>
    rw [release_of_lookup_eq_none hlookup]
    by_cases ha : a = name
    · rw [ha, hlookup, Option.map_none]
    · simp [ha]
  | some count =>
    rw [release_of_lookup_eq_some hlookup]
    generalize p.counts = counts at hlookup
    induction counts with
    | nil => rfl
    | cons entry rest ih =>
      obtain ⟨other, old⟩ := entry
      rw [List.lookup_cons] at hlookup
      rw [List.map_cons, List.lookup_cons]
      by_cases hother : other = name
      · subst hother
        rw [beq_self_eq_true] at hlookup
        obtain rfl : old = count := Option.some.inj hlookup
        by_cases ha : a = other
        · simp [ha]
        · -- behind the first entry of `name` only entries of other names matter
          simp only [if_pos, List.lookup_cons, beq_false_of_ne ha]
          clear ih hlookup
          induction rest with
          | nil => rfl
          | cons entry rest ih =>
            obtain ⟨later, value⟩ := entry
            by_cases hlater : later = other
            · simp [hlater, List.lookup_cons, beq_false_of_ne ha, ih]
            · by_cases heq : a = later
              · simp [heq, hlater]
              · simp [hlater, List.lookup_cons, beq_false_of_ne heq, ih]
      · rw [beq_false_of_ne (Ne.symm hother)] at hlookup
        by_cases ha : a = other
        · subst ha
          simp [hother]
        · simp only [if_neg hother, List.lookup_cons, beq_false_of_ne ha]
          exact ih hlookup

theorem mem_ready_release {p : Progress} {name a : String} : a ∈ (p.release name).ready ↔
    a ∈ p.ready ∨ a = name ∧ ∃ count, p.counts.lookup name = some count ∧ count - 1 = 0 := by
  cases hlookup : p.counts.lookup name with
  | none =>
    rw [release_of_lookup_eq_none hlookup]
    simp
  | some count =>
    simp only [release_of_lookup_eq_some hlookup, Option.some.injEq, exists_eq_left']
    split
    · next hzero =>
      rw [mem_insertAscending]
      simp [hzero, or_comm]
    · next hpos => simp [hpos]

theorem pairwise_ready_release {p : Progress} (h : p.ready.Pairwise (· < ·)) (name : String) :
    (p.release name).ready.Pairwise (· < ·) := by
  cases hlookup : p.counts.lookup name with
  | none =>
    rw [release_of_lookup_eq_none hlookup]
    exact h
  | some count =>
    rw [release_of_lookup_eq_some hlookup]
    simp only
    split
    · exact pairwise_insertAscending h
    · exact h

theorem order_release (p : Progress) (name : String) : (p.release name).order = p.order := by
  cases hlookup : p.counts.lookup name with
  | none => rw [release_of_lookup_eq_none hlookup]
  | some count => rw [release_of_lookup_eq_some hlookup]

/-! ### Releasing all embedders of a record -/

theorem map_fst_foldl_release (p : Progress) (names : List String) :
    (names.foldl release p).counts.map (·.1) = p.counts.map (·.1) := by
  induction names generalizing p with
  | nil => rfl
  | cons name rest ih => rw [List.foldl_cons, ih, map_fst_release]

theorem order_foldl_release (p : Progress) (names : List String) :
    (names.foldl release p).order = p.order := by
  induction names generalizing p with
  | nil => rfl
  | cons name rest ih => rw [List.foldl_cons, ih, order_release]

theorem pairwise_ready_foldl_release {p : Progress} (h : p.ready.Pairwise (· < ·))
    (names : List String) : (names.foldl release p).ready.Pairwise (· < ·) := by
  induction names generalizing p with
  | nil => exact h
  | cons name rest ih => exact ih (pairwise_ready_release h name)

theorem lookup_foldl_release (p : Progress) {names : List String} (hnames : names.Nodup)
    (a : String) : (names.foldl release p).counts.lookup a =
      (p.counts.lookup a).map fun count => if a ∈ names then count - 1 else count := by
  induction names generalizing p with
  | nil => simp
  | cons name rest ih =>
    obtain ⟨hname, hrest⟩ := List.nodup_cons.mp hnames
    rw [List.foldl_cons, ih _ hrest, lookup_release, Option.map_map]
    congr 1
    funext count
    by_cases ha : a = name
    · subst ha
      simp [hname]
    · simp [ha]

theorem mem_ready_foldl_release {p : Progress} {names : List String} (hnames : names.Nodup)
    {a : String} : a ∈ (names.foldl release p).ready ↔
      a ∈ p.ready ∨ a ∈ names ∧ ∃ count, p.counts.lookup a = some count ∧ count - 1 = 0 := by
  induction names generalizing p with
  | nil => simp
  | cons name rest ih =>
    obtain ⟨hname, hrest⟩ := List.nodup_cons.mp hnames
    rw [List.foldl_cons, ih hrest, mem_ready_release, lookup_release, List.mem_cons]
    by_cases ha : a = name
    · subst ha
      simp [hname]
    · simp [ha]

/-! ## Exact counters -/

/-- What holds of a build order under construction before and after every step. -/
structure Exact (n : Nesting) (p : Progress) : Prop where
  keys : p.counts.map (·.1) = n.names
  counts : ∀ a ∈ n.names, p.counts.lookup a = some (n.remaining p.order a)
  ascending : p.ready.Pairwise (· < ·)
  ready : ∀ a, a ∈ p.ready ↔ a ∈ n.names ∧ a ∉ p.order ∧ n.remaining p.order a = 0
  order : n.Sequenced p.order

theorem exact_start (hn : n.Proper) : (start n).Exact n := by
  have hcount : ∀ a, n.embedders.countP (·.2.contains a) = n.remaining [] a := by
    intro a
    rw [remaining, names, List.countP_map]
    refine List.countP_congr fun entry hentry => ?_
    simp [embeddersOf_of_mem hn.nodup_names hentry]
  have hcounts : (start n).counts = n.names.map fun a => (a, n.remaining [] a) := by
    simp only [start, hcount]
  have hready : (start n).ready = n.names.filter fun a => n.remaining [] a == 0 := by
    simp only [start, hcount, List.filter_map, List.map_map]
    exact List.map_id _
  refine ⟨?_, fun a ha => ?_, ?_, fun a => ?_, sequenced_nil n⟩
  · rw [hcounts, List.map_map]
    exact List.map_id _
  · rw [hcounts]
    exact List.lookup_graph _ ha
  · rw [hready]
    exact hn.ascending.filter _
  · rw [hready]
    simp [start]

/-- A step takes a name that is ready, the least one. -/
theorem step?_eq_some_iff {p q : Progress} : p.step? n = some q ↔ ∃ name ready,
    p.ready = name :: ready ∧
      q = (n.embeddersOf name).foldl release { p with ready, order := p.order ++ [name] } := by
  unfold step?
  cases p.ready with
  | nil => simp
  | cons name ready => simp [eq_comm]

theorem order_of_step {p q : Progress} (h : p.step? n = some q) :
    ∃ name ready, p.ready = name :: ready ∧ q.order = p.order ++ [name] := by
  obtain ⟨name, ready, hready, rfl⟩ := step?_eq_some_iff.mp h
  exact ⟨name, ready, hready, order_foldl_release _ _⟩

/-- No embedder of a ready record is in the order: it would stand before what it embeds. -/
theorem Exact.not_mem_of_embeds_ready (hn : n.Proper) {p : Progress} (hp : p.Exact n)
    {name a : String} (hname : name ∈ p.ready) (ha : n.Embeds a name) :
    a ∉ p.order ++ [name] := by
  obtain ⟨-, hfresh, hzero⟩ := (hp.ready name).mp hname
  intro hmem
  rcases List.mem_append.mp hmem with hmem | hmem
  · exact hfresh (hp.order.mem_of_embeds hmem ha)
  · obtain rfl := List.mem_singleton.mp hmem
    exact hfresh ((remaining_eq_zero_iff hn).mp hzero a ha)

/-- **A step keeps the counters exact.** -/
theorem exact_step (hn : n.Proper) {p q : Progress} (hp : p.Exact n) (h : p.step? n = some q) :
    q.Exact n := by
  obtain ⟨name, ready, hready, rfl⟩ := step?_eq_some_iff.mp h
  obtain ⟨hname, hfresh, hzero⟩ := (hp.ready name).mp (hready ▸ List.mem_cons_self)
  have hbelow := (remaining_eq_zero_iff hn).mp hzero
  have hascending := hp.ascending
  rw [hready] at hascending
  obtain ⟨hleast, hascending⟩ := List.pairwise_cons.mp hascending
  have hwaiting (a : String) (ha : n.Embeds a name) : a ∉ p.order ++ [name] :=
    hp.not_mem_of_embeds_ready hn (hready ▸ List.mem_cons_self) ha
  refine ⟨?_, fun a ha => ?_, ?_, fun a => ?_, ?_⟩
  · rw [map_fst_foldl_release]
    exact hp.keys
  · rw [lookup_foldl_release _ (hn.nodup name), order_foldl_release]
    simp only [hp.counts a ha, Option.map_some, Option.some.injEq]
    split
    · next hembeds => rw [remaining_snoc_of_embeds hn hfresh hembeds, Nat.add_sub_cancel]
    · next hnot => exact (remaining_snoc_of_not_embeds hnot).symm
  · exact pairwise_ready_foldl_release hascending _
  · rw [mem_ready_foldl_release (hn.nodup name), order_foldl_release]
    simp only
    constructor
    · rintro (ha | ⟨hembeds, count, hcount, hlast⟩)
      · obtain ⟨hmem, horder, hcount⟩ := (hp.ready a).mp (hready ▸ List.mem_cons_of_mem _ ha)
        have hne : a ≠ name := fun heq => String.lt_irrefl a (heq ▸ hleast a ha)
        have hnot : ¬ n.Embeds a name := fun hembeds =>
          hfresh ((remaining_eq_zero_iff hn).mp hcount name hembeds)
        exact ⟨hmem, by simp [horder, hne], (remaining_snoc_of_not_embeds hnot).trans hcount⟩
      · have hmem := hn.embedder hembeds
        rw [hp.counts a hmem, remaining_snoc_of_embeds hn hfresh hembeds] at hcount
        obtain rfl := Option.some.inj hcount
        exact ⟨hmem, hwaiting a hembeds, by simpa using hlast⟩
    · rintro ⟨hmem, horder, hcount⟩
      by_cases hembeds : n.Embeds a name
      · refine .inr ⟨hembeds, _, hp.counts a hmem, ?_⟩
        rw [remaining_snoc_of_embeds hn hfresh hembeds, hcount]
      · rw [remaining_snoc_of_not_embeds hembeds] at hcount
        simp only [List.mem_append, List.mem_singleton, not_or] at horder
        have ha := (hp.ready a).mpr ⟨hmem, horder.1, hcount⟩
        rw [hready] at ha
        exact .inl ((List.mem_cons.mp ha).resolve_left horder.2)
  · rw [order_foldl_release]
    exact hp.order.snoc hname hfresh hbelow

/-- What the first state has and every step keeps, the end of a run has. -/
theorem run_induction {P : Progress → Prop} (hstep : ∀ p q, P p → p.step? n = some q → P q)
    (fuel : Nat) {p : Progress} (hp : P p) : P (run n fuel p) := by
  induction fuel generalizing p with
  | zero => exact hp
  | succ fuel ih =>
    unfold run
    split
    · exact hp
    · next q hq => exact ih (hstep p q hp hq)

/-- A run goes on until nothing is ready, or puts a name into the order at each step. -/
theorem ready_run_eq_nil_or (fuel : Nat) (p : Progress) :
    (run n fuel p).ready = [] ∨ (run n fuel p).order.length = p.order.length + fuel := by
  induction fuel generalizing p with
  | zero => exact .inr rfl
  | succ fuel ih =>
    unfold run
    split
    · next hnone =>
      refine .inl ?_
      unfold step? at hnone
      split at hnone
      · next hready => exact hready
      · cases hnone
    · next q hq =>
      obtain ⟨name, ready, -, horder⟩ := order_of_step hq
      refine (ih q).imp_right fun hlength => ?_
      rw [hlength, horder, List.length_append, List.length_singleton]
      omega

end Progress

/-! ## The end of the construction -/

theorem exact_finished (hn : n.Proper) : n.finished.Exact n :=
  Progress.run_induction (fun _ _ => Progress.exact_step hn) _ (Progress.exact_start hn)

theorem Sequenced.mem_of_length {order : List String} (h : n.Sequenced order)
    (hlength : order.length = n.names.length) {a : String} (ha : a ∈ n.names) : a ∈ order :=
  (List.subperm_of_subset h.nodup h.subset).perm_of_length_le hlength.ge |>.mem_iff.mpr ha

/-- At the end nothing is ready. -/
theorem ready_finished (hn : n.Proper) : n.finished.ready = [] := by
  have hexact := exact_finished hn
  rcases Progress.ready_run_eq_nil_or n.names.length (Progress.start n) with h | h
  · exact h
  · rw [Progress.start, List.length_nil, Nat.zero_add] at h
    refine List.eq_nil_iff_forall_not_mem.mpr fun a ha => ?_
    obtain ⟨hmem, hnot, -⟩ := (hexact.ready a).mp ha
    exact hnot (hexact.order.mem_of_length h hmem)

/-- At the end a record that is not in the order embeds another such record. -/
theorem exists_embeds_of_not_mem_finished (hn : n.Proper) {a : String} (ha : a ∈ n.names)
    (hnot : a ∉ n.finished.order) : ∃ b, n.Embeds a b ∧ b ∉ n.finished.order := by
  by_contra hnone
  have hzero : n.remaining n.finished.order a = 0 := by
    refine (remaining_eq_zero_iff hn).mpr fun b hb => ?_
    by_contra hb'
    exact hnone ⟨b, hb, hb'⟩
  have hready := ((exact_finished hn).ready a).mpr ⟨ha, hnot, hzero⟩
  rw [ready_finished hn] at hready
  cases hready

theorem acyclic_of_complete (hn : n.Proper)
    (hlength : n.finished.order.length = n.names.length) (a : String) :
    ¬ TransGen n.Embeds a a := by
  intro hcycle
  have ha : a ∈ n.names := by
    obtain ⟨b, hab, -⟩ := TransGen.head'_iff.mp hcycle
    exact hn.embedder hab
  have horder := (exact_finished hn).order
  exact horder.not_cyclic (horder.mem_of_length hlength ha) hcycle

/-- In a finite set where every element leads on to another there is a cycle. -/
theorem exists_transGen_self {α : Type} {r : α → α → Prop} {s : Set α} (hs : s.Finite)
    (hne : s.Nonempty) (hnext : ∀ a ∈ s, ∃ b ∈ s, r a b) : ∃ a, TransGen r a a := by
  by_contra hacyclic
  have := hs.to_subtype
  let below : s → s → Prop := fun b a => TransGen r a b
  have htrans : IsTrans s below := ⟨fun _ _ _ hab hbc => hbc.trans hab⟩
  have hirrefl : Std.Irrefl below := ⟨fun a ha => hacyclic ⟨a, ha⟩⟩
  have hwf := Finite.wellFounded_of_trans_of_irrefl below
  obtain ⟨a₀, ha₀⟩ := hne
  obtain ⟨a, -, hleast⟩ := hwf.has_min Set.univ ⟨⟨a₀, ha₀⟩, trivial⟩
  obtain ⟨b, hb, hab⟩ := hnext a a.2
  exact hleast ⟨b, hb⟩ trivial (.single hab)

theorem exists_cycle_of_incomplete (hn : n.Proper)
    (hlength : n.finished.order.length ≠ n.names.length) : ∃ a, TransGen n.Embeds a a := by
  have horder := (exact_finished hn).order
  have hfinite : {a | a ∈ n.names ∧ a ∉ n.finished.order}.Finite :=
    (List.finite_toSet n.names).subset fun a ha => ha.1
  refine exists_transGen_self hfinite ?_ fun a ha => ?_
  · by_contra hempty
    have hsubset : n.names ⊆ n.finished.order := by
      intro a ha
      by_contra hnot
      exact hempty ⟨a, ha, hnot⟩
    refine hlength (Nat.le_antisymm ?_ ?_)
    · exact (List.subperm_of_subset horder.nodup horder.subset).length_le
    · exact (List.subperm_of_subset hn.nodup_names hsubset).length_le
  · obtain ⟨b, hab, hb⟩ := exists_embeds_of_not_mem_finished hn ha.1 ha.2
    exact ⟨b, ⟨hn.embedded hab, hb⟩, hab⟩

/-- Every record gets into the order exactly if none embeds itself transitively. -/
theorem length_finished_eq_iff (hn : n.Proper) :
    n.finished.order.length = n.names.length ↔ ∀ a, ¬ TransGen n.Embeds a a := by
  constructor
  · exact acyclic_of_complete hn
  · intro hacyclic
    by_contra hne
    obtain ⟨a, ha⟩ := exists_cycle_of_incomplete hn hne
    exact hacyclic a ha

/-! ## The least order -/

/-- A sequence of all names. -/
structure Complete (n : Nesting) (order : List String) : Prop extends n.Sequenced order where
  all : n.names ⊆ order

/-- The first list is a beginning of the second, or has a lesser element where they part. -/
def Progress.Leads (order other : List String) : Prop :=
  order <+: other ∨ ∃ common x y, x < y ∧ common ++ [x] <+: order ∧ common ++ [y] <+: other

namespace Progress

theorem Leads.eq_or_lex {order other : List String} (h : Leads order other)
    (hlength : order.length = other.length) : order = other ∨ List.Lex (· < ·) order other := by
  rcases h with h | ⟨common, x, y, hlt, ⟨rest, rfl⟩, ⟨rest', rfl⟩⟩
  · exact .inl (h.eq_of_length hlength)
  · refine .inr ?_
    rw [List.append_assoc, List.append_assoc]
    exact List.Lex.append_left _ (.rel hlt) common

/-- A step takes the least name that any complete sequence with the same beginning can have
next. -/
theorem leads_step (hn : n.Proper) {other : List String} (hother : n.Complete other)
    {p q : Progress} (hp : p.Exact n) (hleads : Leads p.order other) (h : p.step? n = some q) :
    Leads q.order other := by
  obtain ⟨name, ready, hready, horder⟩ := order_of_step h
  rw [horder]
  obtain ⟨hname, hfresh, -⟩ := (hp.ready name).mp (hready ▸ List.mem_cons_self)
  rcases hleads with ⟨rest, rfl⟩ | ⟨common, x, y, hlt, hx, hy⟩
  · cases rest with
    | nil =>
      have hall := hother.all hname
      rw [List.append_nil] at hall
      exact absurd hall hfresh
    | cons y rest =>
      have hy : y ∈ p.ready := by
        refine (hp.ready y).mpr ⟨hother.subset (by simp), fun hmem => ?_, ?_⟩
        · exact (List.nodup_append.mp hother.nodup).2.2 y hmem y List.mem_cons_self rfl
        · exact (remaining_eq_zero_iff hn).mpr (hother.after _ _ _ rfl)
      have hascending := hp.ascending
      rw [hready] at hy hascending
      rcases List.mem_cons.mp hy with rfl | hy
      · exact .inl ⟨rest, by simp⟩
      · have hlt := (List.pairwise_cons.mp hascending).1 y hy
        exact .inr ⟨p.order, name, y, hlt, List.prefix_rfl, ⟨rest, by simp⟩⟩
  · exact .inr ⟨common, x, y, hlt, hx.trans (List.prefix_append _ _), hy⟩

end Progress

theorem leads_finished (hn : n.Proper) {other : List String} (hother : n.Complete other) :
    Progress.Leads n.finished.order other := by
  have hrun : n.finished.Exact n ∧ Progress.Leads n.finished.order other := by
    refine Progress.run_induction (P := fun p => p.Exact n ∧ Progress.Leads p.order other)
      (fun p q hp h => ?_) _ ⟨Progress.exact_start hn, .inl (List.nil_prefix)⟩
    exact ⟨Progress.exact_step hn hp.1 h, Progress.leads_step hn hother hp.1 hp.2 h⟩
  exact hrun.2

/-! ## Pruning -/

/-- Pruning keeps names of which each has an embedder among them. -/
theorem mem_prune {s : String → Prop} (hs : ∀ b, s b → ∃ a, s a ∧ n.Embeds a b)
    {names : List String} (hnames : ∀ a, s a → a ∈ names) : ∀ a, s a → a ∈ n.prune names := by
  induction names using prune.induct n with
  | case1 names _ ih =>
    rw [prune, if_pos ‹_›]
    refine ih fun b hb => ?_
    obtain ⟨a, ha, hab⟩ := hs b hb
    have hmem : a ∈ n.embeddersOf b := hab
    simp only [embeddedWithin, List.mem_filter, List.any_eq_true, List.contains_iff_mem]
    exact ⟨hnames b hb, a, hmem, hnames a ha⟩
  | case2 names _ =>
    rw [prune, if_neg ‹_›]
    exact hnames

theorem mem_waiting_iff {p : Progress} (hn : n.Proper) (hp : p.Exact n) {a : String} :
    a ∈ p.waiting ↔ a ∈ n.names ∧ ∃ b, n.Embeds a b ∧ b ∉ p.order := by
  have hpositive : 0 < n.remaining p.order a ↔ ∃ b, n.Embeds a b ∧ b ∉ p.order := by
    rw [Nat.pos_iff_ne_zero, Ne, remaining_eq_zero_iff hn]
    simp
  have hcount : ∀ entry ∈ p.counts, entry.2 = n.remaining p.order entry.1 := by
    intro entry hentry
    have hname : entry.1 ∈ n.names := hp.keys ▸ List.mem_map_of_mem hentry
    have hlookup := lookup_of_mem (hp.keys ▸ hn.nodup_names) hentry
    rw [hp.counts _ hname] at hlookup
    exact (Option.some.inj hlookup).symm
  rw [← hpositive, ← hp.keys]
  simp only [Progress.waiting, List.mem_map, List.mem_filter, decide_eq_true_eq]
  constructor
  · rintro ⟨entry, ⟨hentry, hpos⟩, rfl⟩
    exact ⟨⟨entry, hentry, rfl⟩, hcount entry hentry ▸ hpos⟩
  · rintro ⟨⟨entry, hentry, rfl⟩, hpos⟩
    exact ⟨entry, ⟨hentry, (hcount entry hentry).symm ▸ hpos⟩, rfl⟩

/-- Pruning keeps every record that embeds itself transitively. -/
theorem mem_prune_of_cyclic (hn : n.Proper) {a : String} (ha : TransGen n.Embeds a a) :
    a ∈ n.prune n.finished.waiting := by
  have hexact := exact_finished hn
  refine mem_prune (s := fun a => TransGen n.Embeds a a) (fun b hb => ?_) (fun a ha => ?_) a ha
  · obtain ⟨a, hba, hab⟩ := TransGen.tail'_iff.mp hb
    exact ⟨a, TransGen.head' hab hba, hab⟩
  · obtain ⟨b, hab, hba⟩ := TransGen.head'_iff.mp ha
    refine (mem_waiting_iff hn hexact).mpr ⟨hn.embedder hab, b, hab, fun hmem => ?_⟩
    exact hexact.order.not_cyclic hmem (TransGen.tail' hba hab)

end Nesting

/-! ## The report of a graph -/

namespace Graph

/-- An order of all record names, each after all records that it embeds. -/
structure IsBuildOrder (g : Graph) (order : List String) : Prop where
  nodup : order.Nodup
  mem_iff : ∀ name, name ∈ order ↔ g.IsRecordName name
  after : ∀ before a rest, order = before ++ a :: rest → ∀ b, g.Embeds a b → b ∈ before

theorem isBuildOrder_iff {g : Graph} {order : List String} :
    g.IsBuildOrder order ↔ (Nesting.ofGraph g).Complete order := by
  have hname : ∀ name, name ∈ (Nesting.ofGraph g).names ↔ g.IsRecordName name := by
    intro name
    rw [Nesting.names_ofGraph, mem_recordNames_iff]
  constructor
  · intro h
    exact ⟨⟨h.nodup, fun a ha => (hname a).mpr ((h.mem_iff a).mp ha),
      fun before a rest hsplit b hab => h.after before a rest hsplit b
        (Nesting.embeds_ofGraph_iff.mp hab)⟩,
      fun a ha => (h.mem_iff a).mpr ((hname a).mp ha)⟩
  · intro h
    exact ⟨h.nodup, fun a => ⟨fun ha => (hname a).mp (h.subset ha),
      fun ha => h.all ((hname a).mpr ha)⟩,
      fun before a rest hsplit b hab => h.after before a rest hsplit b
        (Nesting.embeds_ofGraph_iff.mpr hab)⟩

section

-- the outcome depends on whether all names are in the order at the end of the construction

variable {g : Graph}

theorem outcome_of_length_eq
    (h : (Nesting.ofGraph g).finished.order.length = (Nesting.ofGraph g).names.length) :
    g.nestingReport.outcome = .ordered (Nesting.ofGraph g).finished.order :=
  if_pos h

theorem outcome_of_length_ne
    (h : (Nesting.ofGraph g).finished.order.length ≠ (Nesting.ofGraph g).names.length) :
    g.nestingReport.outcome =
      .cyclic ((Nesting.ofGraph g).prune (Nesting.ofGraph g).finished.waiting) :=
  if_neg h

theorem buildOrder?_of_length_eq
    (h : (Nesting.ofGraph g).finished.order.length = (Nesting.ofGraph g).names.length) :
    g.nestingReport.buildOrder? = some (Nesting.ofGraph g).finished.order := by
  rw [NestingReport.buildOrder?, outcome_of_length_eq h]

theorem cycle?_of_length_eq
    (h : (Nesting.ofGraph g).finished.order.length = (Nesting.ofGraph g).names.length) :
    g.nestingReport.cycle? = none := by
  rw [NestingReport.cycle?, outcome_of_length_eq h]

theorem buildOrder?_of_length_ne
    (h : (Nesting.ofGraph g).finished.order.length ≠ (Nesting.ofGraph g).names.length) :
    g.nestingReport.buildOrder? = none := by
  rw [NestingReport.buildOrder?, outcome_of_length_ne h]

theorem cycle?_of_length_ne
    (h : (Nesting.ofGraph g).finished.order.length ≠ (Nesting.ofGraph g).names.length) :
    g.nestingReport.cycle? =
      some ((Nesting.ofGraph g).prune (Nesting.ofGraph g).finished.waiting) := by
  rw [NestingReport.cycle?, outcome_of_length_ne h]

end

/-- There is a build order exactly if no record embeds itself transitively. -/
theorem exists_buildOrder?_iff {g : Graph} :
    (∃ order, g.nestingReport.buildOrder? = some order) ↔
      ∀ name, ¬ TransGen g.Embeds name name := by
  rw [← Nesting.embeds_ofGraph, ← Nesting.length_finished_eq_iff (Nesting.proper_ofGraph g)]
  by_cases hlength :
      (Nesting.ofGraph g).finished.order.length = (Nesting.ofGraph g).names.length
  · exact iff_of_true ⟨_, buildOrder?_of_length_eq hlength⟩ hlength
  · simp [buildOrder?_of_length_ne hlength, hlength]

/-- If a record embeds itself transitively, the report lists what pruning leaves of the records
left over. -/
theorem cycle?_of_transGen_embeds {g : Graph} {name : String} (h : TransGen g.Embeds name name) :
    g.nestingReport.cycle? =
      some ((Nesting.ofGraph g).prune (Nesting.ofGraph g).finished.waiting) := by
  rw [← Nesting.embeds_ofGraph] at h
  have hlength : (Nesting.ofGraph g).finished.order.length ≠ (Nesting.ofGraph g).names.length :=
    fun heq => (Nesting.length_finished_eq_iff (Nesting.proper_ofGraph g)).mp heq name h
  exact cycle?_of_length_ne hlength

/-- A record that embeds itself transitively is listed as in the way of a build order. -/
theorem exists_cycle?_of_transGen_embeds {g : Graph} {name : String}
    (h : TransGen g.Embeds name name) :
    ∃ records, g.nestingReport.cycle? = some records ∧ name ∈ records := by
  refine ⟨_, cycle?_of_transGen_embeds h, ?_⟩
  rw [← Nesting.embeds_ofGraph] at h
  exact Nesting.mem_prune_of_cyclic (Nesting.proper_ofGraph g) h

/-- **The nesting report counts names and edges and decides whether there is a build order.** If
no record embeds itself transitively, the report has the least build order in the lexicographic
order of lists, else a list of records that is not empty. -/
theorem nestingReport_spec (g : Graph) :
    g.nestingReport.records = {name | g.IsRecordName name}.ncard ∧
    g.nestingReport.edges = {pair : String × String | g.Embeds pair.1 pair.2}.ncard ∧
    ((∀ name, ¬ TransGen g.Embeds name name) →
      ∃ order, g.nestingReport.buildOrder? = some order ∧ g.nestingReport.cycle? = none ∧
        g.IsBuildOrder order ∧
          ∀ other, g.IsBuildOrder other → order = other ∨ List.Lex (· < ·) order other) ∧
    ((∃ name, TransGen g.Embeds name name) →
      g.nestingReport.buildOrder? = none ∧
        ∃ records, g.nestingReport.cycle? = some records ∧ records ≠ []) := by
  have hn := Nesting.proper_ofGraph g
  have hembeds : (Nesting.ofGraph g).Embeds = g.Embeds := by
    funext a b
    exact propext Nesting.embeds_ofGraph_iff
  have hexact := Nesting.exact_finished hn
  refine ⟨Nesting.length_names_ofGraph g, Nesting.edgeCount_ofGraph g, fun hacyclic => ?_,
    fun ⟨name, hcycle⟩ => ?_⟩
  · have hlength : (Nesting.ofGraph g).finished.order.length =
        (Nesting.ofGraph g).names.length := by
      by_contra hne
      obtain ⟨a, ha⟩ := Nesting.exists_cycle_of_incomplete hn hne
      exact hacyclic a (hembeds ▸ ha)
    have hcomplete : (Nesting.ofGraph g).Complete (Nesting.ofGraph g).finished.order :=
      ⟨hexact.order, fun a ha => hexact.order.mem_of_length hlength ha⟩
    refine ⟨(Nesting.ofGraph g).finished.order, buildOrder?_of_length_eq hlength,
      cycle?_of_length_eq hlength, isBuildOrder_iff.mpr hcomplete, ?_⟩
    intro other hother
    have hother := isBuildOrder_iff.mp hother
    refine (Nesting.leads_finished hn hother).eq_or_lex ?_
    refine Nat.le_antisymm ?_ ?_
    · exact (List.subperm_of_subset hexact.order.nodup
        fun a ha => hother.all (hexact.order.subset ha)).length_le
    · exact (List.subperm_of_subset hother.nodup
        fun a ha => hcomplete.all (hother.subset ha)).length_le
  · rw [← hembeds] at hcycle
    have hlength : (Nesting.ofGraph g).finished.order.length ≠
        (Nesting.ofGraph g).names.length := fun heq =>
      Nesting.acyclic_of_complete hn heq name hcycle
    exact ⟨buildOrder?_of_length_ne hlength, _, cycle?_of_length_ne hlength,
      List.ne_nil_of_mem (Nesting.mem_prune_of_cyclic hn hcycle)⟩

end Graph

end CollectionSchema
