import CollectionSchema.Proofs.DeclarationOrder

/-!
# Marking records as pending

A graph with more records marked as pending differs in nothing but what it puts off: the marked
roots are incomplete, and for that reason (`incomplete_withPending`, `putOff_withPending`). Every
other root keeps what became of it, also if it inlines a marked record (`schemaOf_withPending`).
`compile_withPending` says what this makes of the result of compiling.
-/

namespace CollectionSchema.Graph

variable {g : Graph} {names : List String} {registry : Registry} {r : Record} {c : Compiled}

/-! ## One root -/

theorem PutOff.unique {reason reason' : DeferralReason} (h : g.PutOff r reason)
    (h' : g.PutOff r reason') : reason = reason' := by
  rw [← deferral?_eq_some_iff] at h h'
  rw [h] at h'
  exact Option.some.inj h'

theorem SchemaOf.unique {schema schema' : CompiledSchema} (h : g.SchemaOf registry r schema)
    (h' : g.SchemaOf registry r schema') : schema = schema' := by
  obtain ⟨record, simpleName, collection, node⟩ := schema
  obtain ⟨record', simpleName', collection', node'⟩ := schema'
  have hcollection := h.collection.1.symm.trans h'.collection.1
  have hnode := h.node.symm.trans h'.node
  cases hcollection
  cases hnode
  obtain rfl := h.record.trans h'.record.symm
  obtain rfl := h.simpleName.trans h'.simpleName.symm
  rfl

theorem mem_pending_withPending {name : String} :
    name ∈ (g.withPending names).pending ↔ name ∈ g.pending ∨ name ∈ names := List.mem_append

theorem incomplete_withPending :
    (g.withPending names).Incomplete r ↔ r.name ∈ names ∨ g.Incomplete r := by
  unfold Incomplete
  rw [mem_pending_withPending, or_comm (a := r.name ∈ g.pending), or_assoc]
  exact Iff.rfl

theorem putOff_withPending {reason : DeferralReason} : (g.withPending names).PutOff r reason ↔
    if r.name ∈ names then reason = .pending else g.PutOff r reason := by
  split
  · next hname =>
    have hpending : (g.withPending names).PutOff r .pending :=
      .pending (mem_pending_withPending.mpr (Or.inr hname))
    constructor
    · intro h
      exact h.unique hpending
    · rintro rfl
      exact hpending
  · next hname =>
    constructor
    · intro h
      cases h with
      | pending h => exact .pending ((mem_pending_withPending.mp h).resolve_right hname)
      | unresolved hnot hsplit hbefore hp =>
        have hnot : r.name ∉ g.pending := fun h => hnot (mem_pending_withPending.mpr (Or.inl h))
        exact .unresolved hnot hsplit hbefore hp
    · intro h
      cases h with
      | pending h => exact .pending (mem_pending_withPending.mpr (Or.inl h))
      | unresolved hnot hsplit hbefore hp =>
        have hnot : r.name ∉ (g.withPending names).pending := fun h =>
          (mem_pending_withPending.mp h).elim hnot hname
        exact .unresolved hnot hsplit hbefore hp

theorem wellFormed_withPending (hg : g.WellFormed) : (g.withPending names).WellFormed :=
  ⟨hg.records, hg.properties, hg.enums, hg.disjoint, hg.values⟩

/-- A schema does not depend on which records are pending. -/
theorem schemaOf_withPending (hg : g.WellFormed) (hcollect : Registry.collect g = .ok registry)
    (hr : r ∈ g.records) {schema : CompiledSchema} :
    (g.withPending names).SchemaOf registry r schema ↔ g.SchemaOf registry r schema := by
  have hagree : (g.withPending names).AgreeBelow g r := fun _ _ _ _ _ _ => ⟨rfl, rfl⟩
  have hbuild : (g.withPending names).build registry r = g.build registry r :=
    Builder.buildFrom_eq_of_agreeBelow (wellFormed_withPending hg) hg hcollect hcollect hr hr hagree
  constructor
  · intro h
    exact ⟨h.record, h.simpleName, h.collection, hbuild ▸ h.node⟩
  · intro h
    exact ⟨h.record, h.simpleName, h.collection, hbuild.trans h.node⟩

/-! ## All roots -/

theorem exists_compile_withPending (h : g.compile = .ok c) (names : List String) :
    ∃ c', (g.withPending names).compile = .ok c' := by
  obtain ⟨hg, hcollect, -⟩ := compile_splits.mp h
  obtain ⟨hcheck, registry, hregistry, hschemas⟩ := exists_compile_iff.mp ⟨c, h⟩
  refine exists_compile_iff.mpr ⟨hcheck, registry, hregistry, ?_⟩
  intro r hr hcomplete
  rw [incomplete_withPending, not_or] at hcomplete
  obtain ⟨schema, hschema⟩ := hschemas r hr hcomplete.2
  exact ⟨schema, (schemaOf_withPending hg hregistry (mem_roots_iff.mp hr).1).mpr hschema⟩

/-- The deferred records are named by the incomplete roots. -/
theorem mem_deferred_iff (h : g.compile = .ok c) (hr : r ∈ g.roots) :
    r.name ∈ c.deferred.map (·.record) ↔ g.Incomplete r := by
  have hg := (compile_splits.mp h).1
  rw [(records_of_compile h).1, List.mem_map]
  constructor
  · rintro ⟨s, hs, hname⟩
    obtain ⟨hs, hincomplete⟩ := List.mem_filter.mp hs
    obtain rfl : s = r := List.inj_on_of_nodup_map hg.records (mem_roots_iff.mp hs).1
      (mem_roots_iff.mp hr).1 hname
    exact of_decide_eq_true hincomplete
  · intro hincomplete
    exact ⟨r, List.mem_filter.mpr ⟨hr, decide_eq_true hincomplete⟩, rfl⟩

theorem forest_withPending (h : g.compile = .ok c) {c' : Compiled}
    (h' : (g.withPending names).compile = .ok c') :
    c'.forest = c.forest.filter (·.record ∉ names) := by
  obtain ⟨hg, hcollect, -, hforest⟩ := compile_splits.mp h
  obtain ⟨-, hcollect', -, hforest'⟩ := compile_splits.mp h'
  obtain hregistry : c'.registry = c.registry := Except.ok.inj (hcollect'.symm.trans hcollect)
  -- the roots with schemas are the complete ones that are not marked
  have hroots : (g.withPending names).roots.filter (¬ (g.withPending names).Incomplete ·) =
      (g.roots.filter (¬ g.Incomplete ·)).filter (·.name ∉ names) := by
    rw [List.filter_filter]
    apply List.filter_congr
    intro r _
    simp [incomplete_withPending]
  rw [hroots, hregistry] at hforest'
  have hkept : List.Forall₂ (g.SchemaOf c.registry)
      ((g.roots.filter (¬ g.Incomplete ·)).filter (·.name ∉ names))
      (c.forest.filter (·.record ∉ names)) := by
    refine List.rel_filter ?_ hforest
    intro r schema hschema
    simp [hschema.record]
  have hbuilt : List.Forall₂ (g.SchemaOf c.registry)
      ((g.roots.filter (¬ g.Incomplete ·)).filter (·.name ∉ names)) c'.forest := by
    have hmem : ∀ r ∈ (g.roots.filter (¬ g.Incomplete ·)).filter (·.name ∉ names),
        r ∈ g.records := fun r hr =>
      (mem_roots_iff.mp (List.mem_filter.mp (List.mem_filter.mp hr).1).1).1
    refine ((List.forall₂_and_left _ _).mpr ⟨hmem, hforest'⟩).imp ?_
    rintro r schema ⟨hr, hschema⟩
    exact (schemaOf_withPending hg hcollect hr).mp hschema
  have hunique : Relator.RightUnique (g.SchemaOf c.registry) := fun _ _ _ => SchemaOf.unique
  exact List.right_unique_forall₂' hunique hbuilt hkept

theorem deferred_withPending (h : g.compile = .ok c) {c' : Compiled}
    (h' : (g.withPending names).compile = .ok c') :
    c'.deferred.map (·.record) = (g.roots.map (·.name)).filter
      (fun name => name ∈ names ∨ name ∈ c.deferred.map (·.record)) := by
  rw [(records_of_compile h').1, List.filter_map]
  congr 1
  apply List.filter_congr
  intro r hr
  rw [Function.comp_apply, decide_eq_decide, incomplete_withPending, mem_deferred_iff h hr]

theorem reason_withPending (h : g.compile = .ok c) {c' : Compiled}
    (h' : (g.withPending names).compile = .ok c') {d : DeferredRecord} (hd : d ∈ c'.deferred) :
    if d.record ∈ names then d.reason = .pending else d ∈ c.deferred := by
  obtain ⟨-, -, hdeferred, -⟩ := compile_splits.mp h
  obtain ⟨-, -, hdeferred', -⟩ := compile_splits.mp h'
  obtain ⟨r, hr, hreason, hrecord⟩ := Outcome.exists_source hdeferred' hd
  rw [putOff_withPending, ← hrecord] at hreason
  split
  · next hname => rwa [if_pos hname] at hreason
  · next hname =>
    rw [if_neg hname] at hreason
    have hroot : r ∈ g.roots.filter (g.Incomplete ·) :=
      List.mem_filter.mpr ⟨(List.mem_filter.mp hr).1,
        decide_eq_true (incomplete_iff.mpr ⟨d.reason, hreason⟩)⟩
    obtain ⟨d', hd', hreason', hrecord'⟩ := Outcome.exists_result hdeferred hroot
    obtain ⟨record, reason⟩ := d
    obtain rfl : d' = ⟨record, reason⟩ := by
      rw [DeferredRecord.mk.injEq]
      exact ⟨hrecord'.trans hrecord.symm, hreason'.unique hreason⟩
    exact hd'

/-- **Marking records as pending takes away their own schemas and nothing else.** The other schemas
and the registry stay as they are, the marked roots are deferred as pending, and the roots that
were deferred for another reason keep it. -/
theorem compile_withPending {g : Graph} {c : Compiled} (h : g.compile = .ok c)
    (names : List String) :
    ∃ c', (g.withPending names).compile = .ok c' ∧ c'.registry = c.registry ∧
      c'.forest = c.forest.filter (·.record ∉ names) ∧
      c'.deferred.map (·.record) = (g.roots.map (·.name)).filter
        (fun name => name ∈ names ∨ name ∈ c.deferred.map (·.record)) ∧
      ∀ d ∈ c'.deferred, if d.record ∈ names then d.reason = .pending else d ∈ c.deferred := by
  obtain ⟨c', h'⟩ := exists_compile_withPending h names
  obtain ⟨-, hcollect, -⟩ := compile_splits.mp h
  obtain ⟨-, hcollect', -⟩ := compile_splits.mp h'
  have hregistry : c'.registry = c.registry := Except.ok.inj (hcollect'.symm.trans hcollect)
  exact ⟨c', h', hregistry, forest_withPending h h', deferred_withPending h h',
    fun d hd => reason_withPending h h' hd⟩

/-- In the harbour with shipments pending, depots keep their schema, which inlines a shipment, and
the claim waits for its insurance as before. -/
theorem compile_withPending_harbour :
    ∃ c c', harbour.compile = .ok c ∧
      (harbour.withPending ["Shipment", "Insurance"]).compile = .ok c' ∧
      c'.registry = c.registry ∧
      c'.forest = c.forest.filter (·.record ∉ ["Shipment", "Insurance"]) ∧
      c'.forest.map (·.record) = ["Depot"] ∧ c'.deferred.map (·.record) = ["Claim", "Shipment"] ∧
      ∀ d ∈ c'.deferred, if d.record ∈ ["Shipment", "Insurance"] then d.reason = .pending
        else d ∈ c.deferred := by
  obtain ⟨c, h⟩ := exists_compile_harbour
  obtain ⟨c', h', hregistry, hforest, hdeferred, hreasons⟩ :=
    compile_withPending h ["Shipment", "Insurance"]
  obtain ⟨hwaiting, hschemas⟩ := records_of_compile h'
  refine ⟨c, c', h, h', hregistry, hforest, ?_, ?_, hreasons⟩
  · rw [hschemas]
    decide
  · rw [hwaiting]
    decide

end CollectionSchema.Graph
