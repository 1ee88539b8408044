import CollectionSchema.Proofs.Compilation

/-!
# What becomes of every root

A root is incomplete if it is pending or if one of its properties mentions a name that nobody
declares. Compiling a graph puts off the incomplete roots and gives each other root a schema.

* `settle_eq_deferred_iff`, `settle_eq_schema_iff`, `settle_eq_error_iff`: what becomes of one
  root, without the order in which its faults are looked for.
* `forall₂_settle_iff`: settling all roots splits them, in order, into the incomplete ones with
  their reasons and the other ones with their schemas.
* `compile_accounts`: when a graph compiles, to what, and the first fault when it does not.
-/

namespace CollectionSchema

/-! ## Mentioned names -/

namespace TypeRef

/-- A type mentions a name if it is that of its innermost elements. -/
inductive Mentions : TypeRef → String → Prop
  | enumeration (name : String) : Mentions (.enumeration name) name
  | record (name : String) : Mentions (.record name) name
  | list {element : TypeRef} {name : String} :
      Mentions element name → Mentions (.list element) name

theorem declaration?_eq_some_iff {type : TypeRef} {name : String} :
    type.declaration? = some name ↔ type.Mentions name := by
  constructor
  · intro h
    induction type with
    | primitive kind => cases h
    | enumeration other => cases h; exact .enumeration name
    | record other => cases h; exact .record name
    | list element ih => exact .list (ih h)
  · intro h
    induction h with
    | enumeration name => rfl
    | record name => rfl
    | list _ ih => exact ih

end TypeRef

/-- The collection of a record that is a root, whose name is not blank. -/
def Record.NamesCollection (r : Record) (collection : String) : Prop :=
  r.root = some ⟨some collection⟩ ∧ ∃ c ∈ collection.toList, Text.isBlank c = false

namespace Graph

variable {g : Graph} {registry : Registry} {r : Record}

theorem collection?_eq_some_iff {collection : String} :
    collection? r = some collection ↔ r.NamesCollection collection := by
  have hblank : Text.isAllBlank collection.toList = false ↔
      ∃ c ∈ collection.toList, Text.isBlank c = false := by
    simp [Text.isAllBlank]
  unfold Record.NamesCollection
  rw [← hblank]
  cases hroot : r.root with
  | none => simp [collection?, hroot]
  | some root =>
    obtain ⟨name⟩ := root
    cases name with
    | none => simp [collection?, hroot]
    | some name =>
      simp only [collection?, hroot, Option.bind_some, Option.filter_eq_some_iff,
        Option.some.injEq, SchemaRoot.mk.injEq, Bool.not_eq_true']

theorem collection?_eq_none_iff :
    collection? r = none ↔ ∀ collection, ¬ r.NamesCollection collection := by
  simp [Option.eq_none_iff_forall_ne_some, collection?_eq_some_iff]

/-! ## Incomplete roots -/

/-- A property mentions a name that is neither that of a record nor that of an enumeration. -/
def Unresolved (g : Graph) (p : Property) (name : String) : Prop :=
  p.type.Mentions name ∧ (∀ s ∈ g.records, s.name ≠ name) ∧ ∀ e ∈ g.enums, e.name ≠ name

/-- A record that is pending, or has a property that mentions an undeclared name. -/
def Incomplete (g : Graph) (r : Record) : Prop :=
  r.name ∈ g.pending ∨ ∃ p ∈ r.properties, ∃ name, g.Unresolved p name

/-- Why a record is put off: it is pending, or else its first property with an undeclared name
says so. -/
inductive PutOff (g : Graph) (r : Record) : DeferralReason → Prop
  | pending : r.name ∈ g.pending → g.PutOff r .pending
  | unresolved {before after : List Property} {p : Property} {name : String} :
      r.name ∉ g.pending → r.properties = before ++ p :: after →
        (∀ q ∈ before, ∀ other, ¬ g.Unresolved q other) → g.Unresolved p name →
          g.PutOff r (.unresolvedReference p.name name)

theorem declares_eq_false_iff {name : String} : g.declares name = false ↔
    (∀ s ∈ g.records, s.name ≠ name) ∧ ∀ e ∈ g.enums, e.name ≠ name := by
  simp [declares, record?, enum?]

theorem unresolvedName?_eq_some_iff {p : Property} {name : String} :
    g.unresolvedName? p = some name ↔ g.Unresolved p name := by
  simp [unresolvedName?, Unresolved, Option.filter_eq_some_iff, TypeRef.declaration?_eq_some_iff,
    declares_eq_false_iff]

theorem unresolvedName?_eq_none_iff {p : Property} :
    g.unresolvedName? p = none ↔ ∀ name, ¬ g.Unresolved p name := by
  simp [Option.eq_none_iff_forall_ne_some, unresolvedName?_eq_some_iff]

theorem deferral?_eq_some_iff {reason : DeferralReason} :
    g.deferral? r = some reason ↔ g.PutOff r reason := by
  unfold deferral?
  by_cases hpending : r.name ∈ g.pending
  · have hmark : g.isPending r.name = true := by simpa [isPending] using hpending
    rw [if_pos hmark]
    constructor
    · intro h
      cases h
      exact .pending hpending
    · intro h
      cases h with
      | pending _ => rfl
      | unresolved hnot => exact absurd hpending hnot
  · have hmark : ¬ g.isPending r.name = true := by simpa [isPending] using hpending
    rw [if_neg hmark, List.findSome?_eq_some_iff]
    constructor
    · rintro ⟨before, p, after, hsplit, hp, hbefore⟩
      obtain ⟨name, hname, rfl⟩ := Option.map_eq_some_iff.mp hp
      refine .unresolved hpending hsplit (fun q hq => ?_) (unresolvedName?_eq_some_iff.mp hname)
      exact unresolvedName?_eq_none_iff.mp (Option.map_eq_none_iff.mp (hbefore q hq))
    · intro h
      cases h with
      | pending h => exact absurd h hpending
      | @unresolved before after p name _ hsplit hbefore hp =>
        refine ⟨before, p, after, hsplit, ?_, fun q hq => ?_⟩
        · rw [unresolvedName?_eq_some_iff.mpr hp]
          rfl
        · rw [unresolvedName?_eq_none_iff.mpr (hbefore q hq)]
          rfl

theorem deferral?_eq_none_iff : g.deferral? r = none ↔ ¬ g.Incomplete r := by
  by_cases hpending : r.name ∈ g.pending
  · simp [deferral?, isPending, Incomplete, hpending]
  · simp [deferral?, isPending, Incomplete, hpending, unresolvedName?_eq_none_iff]

instance (g : Graph) : DecidablePred g.Incomplete := fun r =>
  decidable_of_iff (g.deferral? r ≠ none) (not_iff_comm.mp deferral?_eq_none_iff.symm)

theorem incomplete_iff : g.Incomplete r ↔ ∃ reason, g.PutOff r reason := by
  rw [← not_iff_not, ← deferral?_eq_none_iff, Option.eq_none_iff_forall_ne_some]
  simp [deferral?_eq_some_iff]

/-! ## One root -/

/-- The schema of a root: its own collection, and the node that is built for it. -/
structure SchemaOf (g : Graph) (registry : Registry) (r : Record) (schema : CompiledSchema) :
    Prop where
  record : schema.record = r.name
  simpleName : schema.simpleName = r.simpleName
  collection : r.NamesCollection schema.collection
  node : g.build registry r = .ok schema.node

theorem exists_schemaOf {collection : String} (hcollection : collection? r = some collection)
    (hbuild : ∃ n, g.build registry r = .ok n) : ∃ schema, g.SchemaOf registry r schema := by
  obtain ⟨n, hn⟩ := hbuild
  exact ⟨⟨r.name, r.simpleName, collection, n⟩, rfl, rfl, collection?_eq_some_iff.mp hcollection,
    hn⟩

/-- Why a root has no schema: its collection has no name, or else it is not built. -/
inductive RootFault (g : Graph) (registry : Registry) (r : Record) : CompileError → Prop
  | collection : (∀ collection, ¬ r.NamesCollection collection) →
      g.RootFault registry r (.missingCollection r.name)
  | build {collection : String} {cause : BuildError} : r.NamesCollection collection →
      g.build registry r = .error cause → g.RootFault registry r (.build cause)

theorem settle_eq_deferred_iff {d : DeferredRecord} :
    g.settle registry r = .ok (.deferred d) ↔ g.PutOff r d.reason ∧ d.record = r.name := by
  obtain ⟨record, reason⟩ := d
  rw [← deferral?_eq_some_iff]
  unfold settle
  cases g.deferral? r with
  | some found => simp [eq_comm, and_comm]
  | none =>
    cases collection? r with
    | none => simp
    | some collection => cases g.build registry r <;> simp

theorem settle_eq_schema_iff {schema : CompiledSchema} :
    g.settle registry r = .ok (.compiled schema) ↔
      ¬ g.Incomplete r ∧ g.SchemaOf registry r schema := by
  rw [settle_eq_compiled_iff, deferral?_eq_none_iff]
  refine and_congr_right fun _ => ?_
  constructor
  · rintro ⟨collection, node, hcollection, hnode, rfl⟩
    exact ⟨rfl, rfl, collection?_eq_some_iff.mp hcollection, hnode⟩
  · rintro ⟨hrecord, hsimple, hcollection, hnode⟩
    refine ⟨schema.collection, schema.node, collection?_eq_some_iff.mpr hcollection, hnode, ?_⟩
    rw [← hrecord, ← hsimple]

theorem settle_eq_error_iff {e : CompileError} :
    g.settle registry r = .error e ↔ ¬ g.Incomplete r ∧ g.RootFault registry r e := by
  rw [← deferral?_eq_none_iff]
  unfold settle
  cases g.deferral? r with
  | some reason => simp
  | none =>
    simp only [true_and]
    cases hcollection : collection? r with
    | none =>
      have hnone := collection?_eq_none_iff.mp hcollection
      constructor
      · intro h
        cases h
        exact .collection hnone
      · intro h
        cases h with
        | collection _ => rfl
        | build hsome _ => exact absurd hsome (hnone _)
    | some collection =>
      have hsome := collection?_eq_some_iff.mp hcollection
      cases hbuild : g.build registry r with
      | ok node =>
        constructor
        · intro h
          cases h
        · intro h
          cases h with
          | collection hnone => exact absurd hsome (hnone _)
          | build _ herror => rw [hbuild] at herror; cases herror
      | error cause =>
        constructor
        · intro h
          cases h
          exact .build hsome hbuild
        · intro h
          cases h with
          | collection hnone => exact absurd hsome (hnone _)
          | build _ herror => rw [hbuild] at herror; cases herror; rfl

theorem exists_settle_iff : (∃ s, g.settle registry r = .ok s) ↔
    g.Incomplete r ∨ ∃ schema, g.SchemaOf registry r schema := by
  constructor
  · rintro ⟨s, hs⟩
    cases s with
    | deferred d => exact .inl (incomplete_iff.mpr ⟨_, (settle_eq_deferred_iff.mp hs).1⟩)
    | compiled schema => exact .inr ⟨schema, (settle_eq_schema_iff.mp hs).2⟩
  · intro h
    by_cases hincomplete : g.Incomplete r
    · obtain ⟨reason, hreason⟩ := incomplete_iff.mp hincomplete
      exact ⟨.deferred ⟨r.name, reason⟩, settle_eq_deferred_iff.mpr ⟨hreason, rfl⟩⟩
    · obtain ⟨schema, hschema⟩ := h.resolve_left hincomplete
      exact ⟨.compiled schema, settle_eq_schema_iff.mpr ⟨hincomplete, hschema⟩⟩

/-! ## All roots -/

/-- A deferred root with the reason for which it is put off. -/
def DeferralOf (g : Graph) (r : Record) (d : DeferredRecord) : Prop :=
  g.PutOff r d.reason ∧ d.record = r.name

/-- **Settled roots split in order.** The incomplete ones are deferred, the other ones have
schemas. -/
theorem forall₂_settle_iff {roots : List Record} {deferred : List DeferredRecord}
    {forest : List CompiledSchema} :
    (∃ settled, List.Forall₂ (fun r s => g.settle registry r = .ok s) roots settled ∧
      forest = settled.filterMap (·.schema?) ∧ deferred = settled.filterMap (·.deferred?)) ↔
    List.Forall₂ g.DeferralOf (roots.filter (g.Incomplete ·)) deferred ∧
      List.Forall₂ (g.SchemaOf registry) (roots.filter (¬ g.Incomplete ·)) forest := by
  induction roots generalizing deferred forest with
  | nil =>
    simp only [List.forall₂_nil_left_iff, List.filter_nil, exists_eq_left, List.filterMap_nil]
    exact and_comm
  | cons r rest ih =>
    by_cases hr : g.Incomplete r
    · simp only [List.forall₂_cons_left_iff, List.filter_cons, hr, decide_true, if_true,
        not_true, decide_false, Bool.false_eq_true, if_false]
      constructor
      · rintro ⟨-, ⟨s, settled, hs, hsettled, rfl⟩, rfl, rfl⟩
        cases s with
        | compiled schema => exact absurd hr (settle_eq_schema_iff.mp hs).1
        | deferred d =>
          obtain ⟨hdeferred, hforest⟩ := ih.mp ⟨settled, hsettled, rfl, rfl⟩
          exact ⟨⟨d, _, settle_eq_deferred_iff.mp hs, hdeferred, rfl⟩, hforest⟩
      · rintro ⟨⟨d, deferred, hd, hdeferred, rfl⟩, hforest⟩
        obtain ⟨settled, hsettled, rfl, rfl⟩ := ih.mpr ⟨hdeferred, hforest⟩
        exact ⟨_, ⟨.deferred d, settled, settle_eq_deferred_iff.mpr hd, hsettled, rfl⟩, rfl, rfl⟩
    · simp only [List.forall₂_cons_left_iff, List.filter_cons, hr, decide_true, if_true,
        not_false_eq_true, decide_false, Bool.false_eq_true, if_false]
      constructor
      · rintro ⟨-, ⟨s, settled, hs, hsettled, rfl⟩, rfl, rfl⟩
        cases s with
        | deferred d => exact absurd (incomplete_iff.mpr ⟨_, (settle_eq_deferred_iff.mp hs).1⟩) hr
        | compiled schema =>
          obtain ⟨hdeferred, hforest⟩ := ih.mp ⟨settled, hsettled, rfl, rfl⟩
          exact ⟨hdeferred, ⟨schema, _, (settle_eq_schema_iff.mp hs).2, hforest, rfl⟩⟩
      · rintro ⟨hdeferred, ⟨schema, forest, hschema, hforest, rfl⟩⟩
        obtain ⟨settled, hsettled, rfl, rfl⟩ := ih.mpr ⟨hdeferred, hforest⟩
        exact ⟨_, ⟨.compiled schema, settled, settle_eq_schema_iff.mpr ⟨hr, hschema⟩, hsettled,
          rfl⟩, rfl, rfl⟩

/-- The first fault of a graph: in its declarations, in its annotations, or at the first root, in
declaration order, that is complete and has no schema. -/
inductive FirstFault (g : Graph) : CompileError → Prop
  | declarations {cause : DeclarationError} :
      g.check = .error cause → g.FirstFault (.declarations cause)
  | inconsistency {cause : AnnotationError} : g.check = .ok () →
      Registry.collect g = .error cause → g.FirstFault (.inconsistency cause)
  | root {registry : Registry} {before after : List Record} {r : Record} {e : CompileError} :
      g.check = .ok () → Registry.collect g = .ok registry → g.roots = before ++ r :: after →
        (∀ s ∈ before, g.Incomplete s ∨ ∃ schema, g.SchemaOf registry s schema) →
          ¬ g.Incomplete r → g.RootFault registry r e → g.FirstFault e

theorem prepare_eq_error_iff {e : CompileError} : g.prepare = .error e ↔
    (∃ cause, g.check = .error cause ∧ .declarations cause = e) ∨
      g.check = .ok () ∧ ∃ cause, Registry.collect g = .error cause ∧ .inconsistency cause = e := by
  simp only [prepare, Outcome.bind_eq_error_iff, Outcome.mapError_eq_error_iff,
    Outcome.mapError_eq_ok_iff]
  constructor
  · rintro (h | ⟨⟨⟩, hcheck, h⟩)
    · exact .inl h
    · exact .inr ⟨hcheck, h⟩
  · rintro (h | ⟨hcheck, h⟩)
    · exact .inl h
    · exact .inr ⟨(), hcheck, h⟩

theorem compile_eq_error_iff {e : CompileError} : g.compile = .error e ↔ g.FirstFault e := by
  have hstages : g.compile = .error e ↔ g.prepare = .error e ∨
      ∃ registry, g.prepare = .ok registry ∧ g.roots.mapM (g.settle registry) = .error e := by
    simp only [compile, Outcome.bind_eq_error_iff, Outcome.pure_eq_error_iff, and_false,
      exists_false, or_false]
  rw [hstages, prepare_eq_error_iff]
  simp only [prepare_eq_ok_iff, ← check_eq_ok_iff]
  constructor
  · rintro ((⟨cause, hcheck, rfl⟩ | ⟨hcheck, cause, hcollect, rfl⟩) |
      ⟨registry, ⟨hcheck, hcollect⟩, h⟩)
    · exact .declarations hcheck
    · exact .inconsistency hcheck hcollect
    · obtain ⟨before, r, after, hroots, hbefore, hr⟩ := Outcome.mapM_eq_error_iff.mp h
      obtain ⟨hcomplete, hfault⟩ := settle_eq_error_iff.mp hr
      exact .root hcheck hcollect hroots (fun s hs => exists_settle_iff.mp (hbefore s hs))
        hcomplete hfault
  · intro h
    cases h with
    | declarations hcheck => exact .inl (.inl ⟨_, hcheck, rfl⟩)
    | inconsistency hcheck hcollect => exact .inl (.inr ⟨hcheck, _, hcollect, rfl⟩)
    | root hcheck hcollect hroots hbefore hcomplete hfault =>
      refine .inr ⟨_, ⟨hcheck, hcollect⟩, Outcome.mapM_eq_error_iff.mpr ⟨_, _, _, hroots, ?_,
        settle_eq_error_iff.mpr ⟨hcomplete, hfault⟩⟩⟩
      exact fun s hs => exists_settle_iff.mpr (hbefore s hs)

theorem exists_compile_iff : (∃ c, g.compile = .ok c) ↔ g.check = .ok () ∧
    ∃ registry, Registry.collect g = .ok registry ∧
      ∀ r ∈ g.roots, ¬ g.Incomplete r → ∃ schema, g.SchemaOf registry r schema := by
  have hroots : ∀ registry, (∃ settled, List.Forall₂ (fun r s => g.settle registry r = .ok s)
      g.roots settled) ↔
        ∀ r ∈ g.roots, ¬ g.Incomplete r → ∃ schema, g.SchemaOf registry r schema := by
    intro registry
    simp only [← Outcome.mapM_eq_ok_iff, Outcome.exists_mapM_eq_ok_iff, exists_settle_iff,
      ← or_iff_not_imp_left]
  simp only [compile_eq_ok_iff, check_eq_ok_iff, ← hroots]
  constructor
  · rintro ⟨c, hcheck, hcollect, settled, hsettled, -⟩
    exact ⟨hcheck, c.registry, hcollect, settled, hsettled⟩
  · rintro ⟨hcheck, registry, hcollect, settled, hsettled⟩
    exact ⟨⟨_, _, registry⟩, hcheck, hcollect, settled, hsettled, rfl, rfl⟩

/-- The complete roots of a graph that compiles are resolved throughout and free of cycles. -/
theorem resolvedTree_of_compile {c : Compiled} (h : g.compile = .ok c) {r : Record}
    (hr : r ∈ g.roots) (hcomplete : ¬ g.Incomplete r) : g.ResolvedTree r := by
  have hwf := (compile_eq_ok_iff.mp h).1
  have hmem := (mem_roots_iff.mp hr).1
  obtain ⟨-, registry, -, hschemas⟩ := exists_compile_iff.mp ⟨c, h⟩
  obtain ⟨schema, hschema⟩ := hschemas r hr hcomplete
  exact resolvedTree_of_build_eq_ok hwf hmem hschema.node

theorem compile_splits {c : Compiled} : g.compile = .ok c ↔
    g.WellFormed ∧ Registry.collect g = .ok c.registry ∧
      List.Forall₂ g.DeferralOf (g.roots.filter (g.Incomplete ·)) c.deferred ∧
      List.Forall₂ (g.SchemaOf c.registry) (g.roots.filter (¬ g.Incomplete ·)) c.forest := by
  rw [compile_eq_ok_iff, forall₂_settle_iff]

/-- The deferred roots are the incomplete ones, and the other ones have schemas. -/
theorem records_of_compile {c : Compiled} (h : g.compile = .ok c) :
    c.deferred.map (·.record) = (g.roots.filter (g.Incomplete ·)).map (·.name) ∧
      c.forest.map (·.record) = (g.roots.filter (¬ g.Incomplete ·)).map (·.name) := by
  obtain ⟨-, -, hdeferred, hforest⟩ := compile_splits.mp h
  constructor
  · exact Outcome.map_eq_map (hdeferred.imp fun r d hd => hd.2)
  · exact Outcome.map_eq_map (hforest.imp fun r schema hschema => hschema.record)

/-- **Compiling accounts for every root, or stops at the first fault.** A graph compiles exactly
if its declarations and annotations are in order and every complete root has a schema. Then the
incomplete roots are deferred with their reasons and the other ones have their schemas, both in
declaration order. -/
theorem compile_accounts (g : Graph) :
    ((∃ c, g.compile = .ok c) ↔ g.check = .ok () ∧ ∃ registry, Registry.collect g = .ok registry ∧
      ∀ r ∈ g.roots, ¬ g.Incomplete r → ∃ schema, g.SchemaOf registry r schema) ∧
    (∀ e, g.compile = .error e ↔ g.FirstFault e) ∧
    ∀ c, g.compile = .ok c ↔ g.check = .ok () ∧ Registry.collect g = .ok c.registry ∧
      List.Forall₂ g.DeferralOf (g.roots.filter (g.Incomplete ·)) c.deferred ∧
      List.Forall₂ (g.SchemaOf c.registry) (g.roots.filter (¬ g.Incomplete ·)) c.forest := by
  refine ⟨exists_compile_iff, fun e => compile_eq_error_iff, fun c => ?_⟩
  rw [compile_eq_ok_iff, forall₂_settle_iff, check_eq_ok_iff]

end Graph

end CollectionSchema
