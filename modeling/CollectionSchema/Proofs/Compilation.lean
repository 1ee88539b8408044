import CollectionSchema.Compile.Forest
import CollectionSchema.Proofs.Resolution

/-!
# What a compiled graph consists of

A graph that compiles is well formed and has a registry (`prepare_eq_ok_iff`), and each of its
roots is settled with that registry, in declaration order (`compile_eq_ok_iff`). A schema of the
forest is that of a root, whose node is the one that `Graph.build` gives
(`exists_root_of_mem_forest`).
-/

namespace CollectionSchema.Graph

variable {g : Graph} {registry : Registry} {c : Compiled}

theorem prepare_eq_ok_iff :
    g.prepare = .ok registry ↔ g.WellFormed ∧ Registry.collect g = .ok registry := by
  simp only [prepare, Outcome.bind_eq_ok_iff, Outcome.mapError_eq_ok_iff, ← check_eq_ok_iff]
  constructor
  · rintro ⟨⟨⟩, hcheck, hcollect⟩
    exact ⟨hcheck, hcollect⟩
  · rintro ⟨hcheck, hcollect⟩
    exact ⟨(), hcheck, hcollect⟩

/-- **A compiled graph is its registry and its settled roots.** -/
theorem compile_eq_ok_iff :
    g.compile = .ok c ↔ g.WellFormed ∧ Registry.collect g = .ok c.registry ∧ ∃ settled,
      List.Forall₂ (fun r s => g.settle c.registry r = .ok s) g.roots settled ∧
        c.forest = settled.filterMap (·.schema?) ∧
        c.deferred = settled.filterMap (·.deferred?) := by
  simp only [compile, Outcome.bind_eq_ok_iff, Outcome.pure_eq_ok_iff, Outcome.mapM_eq_ok_iff,
    prepare_eq_ok_iff]
  constructor
  · rintro ⟨registry, ⟨hg, hregistry⟩, settled, hsettled, rfl⟩
    exact ⟨hg, hregistry, settled, hsettled, rfl, rfl⟩
  · rintro ⟨hg, hregistry, settled, hsettled, hforest, hdeferred⟩
    refine ⟨c.registry, ⟨hg, hregistry⟩, settled, hsettled, ?_⟩
    rw [← hforest, ← hdeferred]

theorem mem_roots_iff {r : Record} : r ∈ g.roots ↔ r ∈ g.records ∧ r.isRoot = true :=
  List.mem_filter

/-! ## Roots with schemas -/

/-- A root has a schema if nothing puts it off, its collection is named and its node is built. -/
theorem settle_eq_compiled_iff {r : Record} {schema : CompiledSchema} :
    g.settle registry r = .ok (.compiled schema) ↔ g.deferral? r = none ∧
      ∃ collection node, collection? r = some collection ∧ g.build registry r = .ok node ∧
        schema = ⟨r.name, r.simpleName, collection, node⟩ := by
  unfold settle
  cases g.deferral? r with
  | some reason => simp
  | none =>
    cases collection? r with
    | none => simp
    | some collection => cases g.build registry r <;> simp [eq_comm]

theorem exists_settled_root (h : g.compile = .ok c) {schema : CompiledSchema}
    (hschema : schema ∈ c.forest) :
    ∃ root ∈ g.roots, g.settle c.registry root = .ok (.compiled schema) := by
  obtain ⟨-, -, settled, hsettled, hforest, -⟩ := compile_eq_ok_iff.mp h
  rw [hforest] at hschema
  obtain ⟨s, hs, hsome⟩ := List.mem_filterMap.mp hschema
  cases s with
  | deferred record => cases hsome
  | compiled schema =>
    cases hsome
    exact Outcome.exists_source hsettled hs

/-- **A schema of the forest is built for a root of its name.** -/
theorem exists_root_of_mem_forest (h : g.compile = .ok c) {schema : CompiledSchema}
    (hschema : schema ∈ c.forest) :
    ∃ root ∈ g.records, root.name = schema.record ∧
      g.build c.registry root = .ok schema.node := by
  obtain ⟨root, hroot, hsettle⟩ := exists_settled_root h hschema
  obtain ⟨-, collection, node, -, hbuild, rfl⟩ := settle_eq_compiled_iff.mp hsettle
  exact ⟨root, (mem_roots_iff.mp hroot).1, rfl, hbuild⟩

/-- A graph with one root compiles if the root is complete, names its collection and is built. -/
theorem exists_compile_of_roots_eq (hg : g.check = .ok ())
    (hcollect : Registry.collect g = .ok registry) {root : Record} (hroots : g.roots = [root])
    (hdeferral : g.deferral? root = none) {collection : String}
    (hcollection : collection? root = some collection)
    (hbuild : ∃ n, g.build registry root = .ok n) :
    ∃ c, g.compile = .ok c ∧ ∃ schema ∈ c.forest, schema.record = root.name := by
  obtain ⟨n, hn⟩ := hbuild
  have hsettle := settle_eq_compiled_iff.mpr ⟨hdeferral, collection, n, hcollection, hn, rfl⟩
  have hsettled : List.Forall₂ (fun r s => g.settle registry r = .ok s) g.roots
      [.compiled ⟨root.name, root.simpleName, collection, n⟩] := by
    rw [hroots]
    exact .cons hsettle .nil
  exact ⟨⟨_, _, registry⟩, compile_eq_ok_iff.mpr ⟨check_eq_ok_iff.mp hg, hcollect, _, hsettled,
    rfl, rfl⟩, _, List.mem_cons_self, rfl⟩

theorem exists_compile_shipments :
    ∃ c, shipments.compile = .ok c ∧ ∃ schema ∈ c.forest, schema.record = "Shipment" := by
  have hcollect : Registry.collect shipments =
      .ok ⟨[(⟨"Shipment", "parcels"⟩, { maximum := some (.integer 20) })], []⟩ := by rfl
  have hdeferral : shipments.deferral? shipment = none := by decide
  have hcollection : collection? shipment = some "shipments" := by decide
  have hbuild := exists_build_shipment
    ⟨[(⟨"Shipment", "parcels"⟩, { maximum := some (.integer 20) })], []⟩
  exact exists_compile_of_roots_eq check_shipments hcollect rfl hdeferral hcollection hbuild

end CollectionSchema.Graph
