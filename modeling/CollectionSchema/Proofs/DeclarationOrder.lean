import CollectionSchema.Proofs.Locality
import Mathlib.Data.List.Perm.Basic
import Mathlib.Data.Prod.Lex
import Mathlib.Data.String.Basic

/-!
# The order of declarations

Declarations in another order compile to the same schemas, each listed in its own order.

* `Registry.Ordered.eq_of_lookups`: the entries of a registry stand in the order of their keys, so a
  registry is determined by what it holds for each key.
* `Registry.collect_eq_of_perm`: collecting in any order gives the same registry.
* `Graph.Alike`: two graphs that look up every name alike; they settle a root alike
  (`settle_eq_of_alike`).
* `compile_perm`: the same for whole graphs.
-/

namespace CollectionSchema

/-! ## The order of keys -/

namespace FieldKey

theorem lt_iff {a b : FieldKey} :
    a < b ↔ toLex (a.record, a.field) < toLex (b.record, b.field) := by
  rw [Prod.Lex.toLex_lt_toLex]
  exact Iff.rfl

instance : Trans (α := FieldKey) (β := FieldKey) (γ := FieldKey) (· < ·) (· < ·) (· < ·) where
  trans {a b c} hab hbc := by
    rw [lt_iff] at hab hbc ⊢
    exact hab.trans hbc

instance : Std.Asymm (α := FieldKey) (· < ·) where
  asymm a b hab hba := by
    rw [lt_iff] at hab hba
    exact lt_asymm hab hba

instance : Std.Trichotomous (α := FieldKey) (· < ·) where
  trichotomous a b hab hba := by
    rw [lt_iff] at hab hba
    have heq := le_antisymm (not_lt.mp hba) (not_lt.mp hab)
    obtain ⟨hrecord, hfield⟩ := Prod.mk.inj (toLex.injective heq)
    obtain ⟨record, field⟩ := a
    obtain rfl : record = b.record := hrecord
    obtain rfl : field = b.field := hfield
    rfl

end FieldKey

/-- Ascending lists of entries are equal if every key is looked up alike in them. -/
theorem eq_of_lookup_eq {κ α : Type} [LT κ] [Std.Asymm (α := κ) (· < ·)] [BEq κ] [LawfulBEq κ]
    {entries entries' : List (κ × α)} (h : entries.Pairwise (·.1 < ·.1))
    (h' : entries'.Pairwise (·.1 < ·.1))
    (hlookup : ∀ key, entries.lookup key = entries'.lookup key) : entries = entries' := by
  have hasymm : ∀ {a b : κ}, a < b → ¬ b < a := fun hab => Std.Asymm.asymm _ _ hab
  have hkeys : ∀ {entries : List (κ × α)}, entries.Pairwise (·.1 < ·.1) →
      (entries.map (·.1)).Nodup := by
    intro entries h
    refine List.pairwise_map.mpr (h.imp ?_)
    rintro a b hlt heq
    exact hasymm hlt (heq ▸ hlt)
  have hmem : ∀ {entries : List (κ × α)}, entries.Pairwise (·.1 < ·.1) →
      ∀ entry, entry ∈ entries ↔ entries.lookup entry.1 = some entry.2 := by
    intro entries h entry
    refine ⟨lookup_of_mem (hkeys h), fun hsome => ?_⟩
    obtain ⟨before, after, rfl, -⟩ := List.lookup_eq_some_iff.mp hsome
    exact List.mem_append_right _ List.mem_cons_self
  have hperm : entries.Perm entries' := by
    rw [List.perm_ext_iff_of_nodup (hkeys h).of_map (hkeys h').of_map]
    intro entry
    rw [hmem h, hmem h', hlookup]
  refine hperm.eq_of_pairwise ?_ h h'
  intro a b _ _ hab hba
  exact absurd hba (hasymm hab)

/-! ## Registries -/

namespace Registry

variable {g g' : Graph} {registry registry' : Registry}

/-- The entries and the exemptions stand in the order of their keys. -/
structure Ordered (registry : Registry) : Prop where
  constraints : registry.constraints.Pairwise (·.1 < ·.1)
  exemptions : registry.exemptions.Pairwise (· < ·)

theorem ordered_empty : empty.Ordered := ⟨List.Pairwise.nil, List.Pairwise.nil⟩

theorem Ordered.addField {field : String × Property} (hr : registry.Ordered)
    (h : registry.addField field = .ok registry') : registry'.Ordered := by
  simp only [Registry.addField, addProperty, Outcome.bind_eq_ok_iff, Outcome.pure_eq_ok_iff] at h
  obtain ⟨stated, -, rfl⟩ := h
  constructor
  · cases stated with
    | none => exact hr.constraints
    | some keywords => exact pairwise_putAscending hr.constraints
  · dsimp only
    split
    · exact pairwise_insertAscending hr.exemptions
    · exact hr.exemptions

theorem Ordered.foldlM_addField {fields : List (String × Property)} (hr : registry.Ordered)
    (h : fields.foldlM Registry.addField registry = .ok registry') : registry'.Ordered := by
  induction fields generalizing registry with
  | nil =>
    cases h
    exact hr
  | cons field rest ih =>
    rw [List.foldlM_cons, Outcome.bind_eq_ok_iff] at h
    obtain ⟨middle, hstep, hrest⟩ := h
    exact ih (hr.addField hstep) hrest

/-- **A registry is determined by what it holds for each key.** -/
theorem Ordered.eq_of_lookups (hr : registry.Ordered) (hr' : registry'.Ordered)
    (hkeywords : ∀ key, registry.keywords? key = registry'.keywords? key)
    (hexempt : ∀ key, registry.isExempt key = registry'.isExempt key) : registry = registry' := by
  obtain ⟨constraints, exemptions⟩ := registry
  obtain ⟨constraints', exemptions'⟩ := registry'
  have hconstraints : constraints = constraints' :=
    eq_of_lookup_eq hr.constraints hr'.constraints hkeywords
  have hmem : ∀ key, key ∈ exemptions ↔ key ∈ exemptions' := by
    intro key
    have hkey := hexempt key
    simp only [isExempt] at hkey
    rw [← List.contains_iff_mem, ← List.contains_iff_mem, hkey]
  have hperm := (List.perm_ext_iff_of_nodup hr.exemptions.nodup hr'.exemptions.nodup).mpr hmem
  have hexemptions : exemptions = exemptions' := by
    refine hperm.eq_of_pairwise ?_ hr.exemptions hr'.exemptions
    intro a b _ _ hab hba
    exact absurd hba (Std.Asymm.asymm _ _ hab)
  rw [hconstraints, hexemptions]

/-! ### Collecting in any order -/

theorem exists_foldlM_addField_iff {fields : List (String × Property)} :
    (∃ registry', fields.foldlM addField registry = .ok registry') ↔
      ∀ field ∈ fields, ∃ stated, field.2.keywords? field.1 = .ok stated := by
  induction fields generalizing registry with
  | nil => simp [Outcome.pure_eq_ok_iff]
  | cons field rest ih =>
    rw [List.forall_mem_cons]
    simp only [List.foldlM_cons, Outcome.bind_eq_ok_iff]
    constructor
    · rintro ⟨registry', middle, hstep, hrest⟩
      obtain ⟨stated, hstated, -⟩ := addField_eq_ok hstep
      exact ⟨⟨stated, hstated⟩, ih.mp ⟨registry', hrest⟩⟩
    · rintro ⟨⟨stated, hstated⟩, hrest⟩
      obtain ⟨middle, hstep⟩ : ∃ middle, registry.addField field = .ok middle := by
        simp only [addField, addProperty, hstated, Outcome.ok_bind, Outcome.pure_eq_ok_iff]
        exact ⟨_, rfl⟩
      obtain ⟨registry', hrest⟩ := ih.mpr hrest
      exact ⟨registry', middle, hstep, hrest⟩

/-- The registry of a graph is that of any rearrangement of its records. -/
theorem collect_eq_of_perm (hg : g.WellFormed) (hg' : g'.WellFormed)
    (hrecords : g.records.Perm g'.records) (h : collect g = .ok registry) :
    collect g' = .ok registry := by
  have hfields : g.fields.Perm g'.fields := hrecords.flatMap_right _
  rw [collect_eq_foldlM_fields] at h ⊢
  have hstated := exists_foldlM_addField_iff.mp ⟨registry, h⟩
  obtain ⟨registry', h'⟩ : ∃ registry', g'.fields.foldlM addField empty = .ok registry' :=
    exists_foldlM_addField_iff.mpr fun field hfield => hstated field (hfields.mem_iff.mpr hfield)
  obtain ⟨hheld, hothers⟩ := foldlM_addField_eq_ok hg.nodup_keys h
  obtain ⟨hheld', hothers'⟩ := foldlM_addField_eq_ok hg'.nodup_keys h'
  have hkeys := hfields.map fun field => field.2.keyIn field.1
  have hlookups : ∀ key, registry.keywords? key = registry'.keywords? key ∧
      registry.isExempt key = registry'.isExempt key := by
    intro key
    by_cases hkey : key ∈ g.fields.map fun field => field.2.keyIn field.1
    · obtain ⟨field, hfield, rfl⟩ := List.mem_map.mp hkey
      obtain ⟨hkeywords, hexempt⟩ := hheld field hfield rfl rfl
      obtain ⟨hkeywords', hexempt'⟩ := hheld' field (hfields.mem_iff.mp hfield) rfl rfl
      rw [hkeywords] at hkeywords'
      exact ⟨Except.ok.inj hkeywords', hexempt.trans hexempt'.symm⟩
    · obtain ⟨hkeywords, hexempt⟩ := hothers key hkey
      obtain ⟨hkeywords', hexempt'⟩ := hothers' key (mt hkeys.mem_iff.mpr hkey)
      exact ⟨hkeywords.trans hkeywords'.symm, hexempt.trans hexempt'.symm⟩
  have hordered := ordered_empty.foldlM_addField h
  have hordered' := ordered_empty.foldlM_addField h'
  have heq := hordered.eq_of_lookups hordered' (fun key => (hlookups key).1) fun key =>
    (hlookups key).2
  rw [h', heq]

end Registry

namespace Graph

variable {g g' : Graph} {registry : Registry}

/-! ## Look-ups -/

/-- An element with a key of its own is found in any order. -/
theorem find?_eq_of_perm {α : Type} {key : α → String} {xs ys : List α} (h : xs.Perm ys)
    (hkeys : (xs.map key).Nodup) (k : String) :
    xs.find? (key · == k) = ys.find? (key · == k) := by
  induction h with
  | nil => rfl
  | cons x _ ih =>
    rw [List.find?_cons, List.find?_cons, ih (List.nodup_cons.mp hkeys).2]
  | swap x y rest =>
    have hne : key y ≠ key x := by
      intro heq
      exact (List.nodup_cons.mp hkeys).1 (heq ▸ List.mem_cons_self)
    by_cases hx : key x = k
    · have hy : (key y == k) = false := by simpa [← hx] using hne
      simp [List.find?_cons, hy]
    · have hx : (key x == k) = false := by simpa using hx
      simp [List.find?_cons, hx]
  | trans hxy _ ihxy ihyz =>
    exact (ihxy hkeys).trans (ihyz ((hxy.map key).nodup_iff.mp hkeys))

/-- Every name is looked up alike in two graphs, and pending in both or in none. -/
structure Alike (g g' : Graph) : Prop where
  record : ∀ name, g.record? name = g'.record? name
  enum : ∀ name, g.enum? name = g'.enum? name
  pending : ∀ name, name ∈ g.pending ↔ name ∈ g'.pending

theorem WellFormed.perm (hg : g.WellFormed) (hrecords : g.records.Perm g'.records)
    (henums : g.enums.Perm g'.enums) : g'.WellFormed where
  records := (hrecords.map _).nodup_iff.mp hg.records
  properties r hr := hg.properties r (hrecords.mem_iff.mpr hr)
  enums := (henums.map _).nodup_iff.mp hg.enums
  disjoint e he := by
    rw [← (hrecords.map (·.name)).mem_iff]
    exact hg.disjoint e (henums.mem_iff.mpr he)
  values e he := hg.values e (henums.mem_iff.mpr he)

theorem WellFormed.alike_of_perm (hg : g.WellFormed) (hrecords : g.records.Perm g'.records)
    (henums : g.enums.Perm g'.enums) (hpending : ∀ name, name ∈ g.pending ↔ name ∈ g'.pending) :
    g.Alike g' where
  record := find?_eq_of_perm hrecords hg.records
  enum := find?_eq_of_perm henums hg.enums
  pending := hpending

/-! ## Roots -/

theorem Alike.deferral?_eq (h : g.Alike g') (r : Record) : g.deferral? r = g'.deferral? r := by
  have hpending : g.isPending r.name = g'.isPending r.name := by
    rw [Bool.eq_iff_iff]
    simpa [isPending] using h.pending r.name
  have hdeclares : ∀ name, g.declares name = g'.declares name := by
    intro name
    rw [declares, declares, h.record, h.enum]
  have hunresolved : ∀ p, g.unresolvedName? p = g'.unresolvedName? p := by
    intro p
    simp only [unresolvedName?, hdeclares]
  simp only [deferral?, hpending, hunresolved]

theorem settle_eq_of_alike (h : g.Alike g') (hg : g.WellFormed) (hg' : g'.WellFormed)
    (hcollect : Registry.collect g = .ok registry) (hcollect' : Registry.collect g' = .ok registry)
    {r : Record} (hr : r ∈ g.records) (hr' : r ∈ g'.records) :
    g.settle registry r = g'.settle registry r := by
  have hagree : g.AgreeBelow g' r := fun _ _ _ _ name _ => ⟨h.record name, h.enum name⟩
  have hbuild : g.build registry r = g'.build registry r :=
    Builder.buildFrom_eq_of_agreeBelow hg hg' hcollect hcollect' hr hr' hagree
  rw [settle, settle, h.deferral?_eq, hbuild]

/-! ## Whole graphs -/

/-- The schemas and the deferred roots stand in the order of the declarations. -/
structure Follows (g : Graph) (c : Compiled) : Prop where
  forest : (c.forest.map (·.record)).Sublist (g.records.map (·.name))
  deferred : (c.deferred.map (·.record)).Sublist (g.records.map (·.name))

theorem follows_of_compile {c : Compiled} (h : g.compile = .ok c) : g.Follows c := by
  obtain ⟨hdeferred, hforest⟩ := records_of_compile h
  have hroots : g.roots.Sublist g.records := List.filter_sublist
  constructor
  · rw [hforest]
    exact (List.filter_sublist.trans hroots).map _
  · rw [hdeferred]
    exact (List.filter_sublist.trans hroots).map _

theorem exists_compile_of_perm (hrecords : g.records.Perm g'.records)
    (henums : g.enums.Perm g'.enums) (hpending : ∀ name, name ∈ g.pending ↔ name ∈ g'.pending)
    {c : Compiled} (h : g.compile = .ok c) :
    ∃ c', g'.compile = .ok c' ∧ c.registry = c'.registry ∧ c.forest.Perm c'.forest ∧
      c.deferred.Perm c'.deferred := by
  obtain ⟨hg, hcollect, settled, hsettled, hforest, hdeferred⟩ := compile_eq_ok_iff.mp h
  have hg' := hg.perm hrecords henums
  have hcollect' := Registry.collect_eq_of_perm hg hg' hrecords hcollect
  have halike := hg.alike_of_perm hrecords henums hpending
  have hsettle : g.roots.mapM (g'.settle c.registry) = .ok settled := by
    rw [← Outcome.mapM_eq_ok_iff.mpr hsettled]
    apply Outcome.mapM_congr
    intro r hroot
    have hr := (mem_roots_iff.mp hroot).1
    exact (settle_eq_of_alike halike hg hg' hcollect hcollect' hr (hrecords.mem_iff.mp hr)).symm
  have hroots : g'.roots.Perm g.roots := (hrecords.filter _).symm
  obtain ⟨settled', hsettled', hperm⟩ :=
    List.perm_comp_forall₂ hroots (Outcome.mapM_eq_ok_iff.mp hsettle)
  have hcompile : g'.compile =
      .ok ⟨settled'.filterMap (·.schema?), settled'.filterMap (·.deferred?), c.registry⟩ :=
    compile_eq_ok_iff.mpr ⟨hg', hcollect', settled', hsettled', rfl, rfl⟩
  refine ⟨_, hcompile, rfl, ?_, ?_⟩
  · rw [hforest]
    exact (hperm.filterMap _).symm
  · rw [hdeferred]
    exact (hperm.filterMap _).symm

/-- **The order of declarations does not matter.** A graph and a rearrangement of it compile or
fail together, with one registry, the same schemas and the same deferred roots, each graph listing
them in its own order. -/
theorem compile_perm {g g' : Graph} (hrecords : g.records.Perm g'.records)
    (henums : g.enums.Perm g'.enums) (hpending : ∀ name, name ∈ g.pending ↔ name ∈ g'.pending) :
    ((∃ c, g.compile = .ok c) ↔ ∃ c', g'.compile = .ok c') ∧
    ∀ c c', g.compile = .ok c → g'.compile = .ok c' →
      c.registry = c'.registry ∧ c.forest.Perm c'.forest ∧ c.deferred.Perm c'.deferred ∧
        g.Follows c ∧ g'.Follows c' := by
  constructor
  · constructor
    · rintro ⟨c, h⟩
      obtain ⟨c', h', -⟩ := exists_compile_of_perm hrecords henums hpending h
      exact ⟨c', h'⟩
    · rintro ⟨c', h'⟩
      obtain ⟨c, h, -⟩ := exists_compile_of_perm hrecords.symm henums.symm
        (fun name => (hpending name).symm) h'
      exact ⟨c, h⟩
  · intro c c' h h'
    obtain ⟨c'', h'', hregistry, hforest, hdeferred⟩ :=
      exists_compile_of_perm hrecords henums hpending h
    obtain rfl : c'' = c' := Except.ok.inj (h''.symm.trans h')
    exact ⟨hregistry, hforest, hdeferred, follows_of_compile h, follows_of_compile h'⟩

/-! ### A harbour -/

/-- A claim refers to an insurance that nobody declares. -/
def claim : Record where
  name := "Claim"
  root := some ⟨some "claims"⟩
  properties := [⟨"insurance", .record "Insurance", false, []⟩]

def harbour : Graph where
  records := [claim, depot, address, shipment]
  enums := [⟨"Size", ["SMALL", "LARGE"]⟩, ⟨"State", ["OPEN", "DONE"]⟩]
  pending := []

theorem exists_build_harbour (registry : Registry) :
    (∃ n, harbour.build registry depot = .ok n) ∧ ∃ n, harbour.build registry shipment = .ok n := by
  constructor <;>
    simp [build, Builder.buildFrom_eq, Builder.entry, Builder.property, Builder.elements,
      Builder.enter, harbour, claim, depot, shipment, address, record?, enum?, bind, Except.bind,
      pure, Except.pure]

theorem exists_compile_harbour : ∃ c, harbour.compile = .ok c := by
  have hcheck : harbour.check = .ok () := by decide
  obtain ⟨registry, hcollect⟩ : ∃ registry, Registry.collect harbour = .ok registry := ⟨_, rfl⟩
  refine exists_compile_iff.mpr ⟨hcheck, registry, hcollect, ?_⟩
  have hroots : harbour.roots = [claim, depot, shipment] := rfl
  have hclaim : harbour.Incomplete claim := by decide
  have hdepots : collection? depot = some "depots" := by decide
  have hshipments : collection? shipment = some "shipments" := by decide
  obtain ⟨hdepot, hshipment⟩ := exists_build_harbour registry
  rw [hroots]
  intro r hr hcomplete
  simp only [List.mem_cons, List.not_mem_nil, or_false] at hr
  rcases hr with rfl | rfl | rfl
  · exact absurd hclaim hcomplete
  · exact exists_schemaOf hdepots hdepot
  · exact exists_schemaOf hshipments hshipment

/-- The harbour with its declarations the other way round. -/
def harbourReversed : Graph :=
  { harbour with records := harbour.records.reverse, enums := harbour.enums.reverse }

theorem compile_perm_harbour :
    harbour.records.Perm harbourReversed.records ∧ harbour.enums.Perm harbourReversed.enums ∧
      (∀ name, name ∈ harbour.pending ↔ name ∈ harbourReversed.pending) ∧
      ∃ c c', harbour.compile = .ok c ∧ harbourReversed.compile = .ok c' ∧
        c.registry = c'.registry ∧ c.forest.Perm c'.forest ∧ c.deferred.Perm c'.deferred ∧
        c.forest.map (·.record) = ["Depot", "Shipment"] ∧
        c'.forest.map (·.record) = ["Shipment", "Depot"] ∧
        c.deferred.map (·.record) = ["Claim"] := by
  have hrecords : harbour.records.Perm harbourReversed.records := (List.reverse_perm _).symm
  have henums : harbour.enums.Perm harbourReversed.enums := (List.reverse_perm _).symm
  have hpending : ∀ name, name ∈ harbour.pending ↔ name ∈ harbourReversed.pending :=
    fun _ => Iff.rfl
  obtain ⟨hiff, hsame⟩ := compile_perm hrecords henums hpending
  obtain ⟨c, h⟩ := exists_compile_harbour
  obtain ⟨c', h'⟩ := hiff.mp ⟨c, h⟩
  obtain ⟨hregistry, hforest, hdeferred, -⟩ := hsame c c' h h'
  obtain ⟨hwaiting, hschemas⟩ := records_of_compile h
  obtain ⟨-, hschemas'⟩ := records_of_compile h'
  refine ⟨hrecords, henums, hpending, c, c', h, h', hregistry, hforest, hdeferred, ?_, ?_, ?_⟩
  · rw [hschemas]
    decide
  · rw [hschemas']
    decide
  · rw [hwaiting]
    decide

end Graph

end CollectionSchema
