import CollectionSchema.Artifact.Emit
import CollectionSchema.Ascending
import CollectionSchema.Proofs.Declaration
import CollectionSchema.Proofs.Outcome

/-!
# What a forest emits

A forest whose schemas are pairwise apart emits a document for every schema, in order
(`emit_eq_ok_iff`). Its table finds the document of a schema under the collection of that schema
(`get?_of_emit`).

Schemas are apart if they share neither collection nor simple name (`clashFree_iff`). Otherwise the
first schema that clashes with an earlier one is at fault (`emit_eq_error_iff`, by induction on the
schemas that are left, the ones before them being free of clashes). `emit_decides` puts both
together.
-/

namespace CollectionSchema.Artifacts

variable {suffix : String} {forest : List CompiledSchema} {artifacts : Artifacts}

/-- The documents of two schemas can stand side by side. -/
def Apart (suffix : String) (a b : CompiledSchema) : Prop :=
  a.collection ≠ b.collection ∧ (document suffix a).fileName ≠ (document suffix b).fileName

/-- The documents of a forest are emitted one after another if each is apart from those before
it. -/
theorem emitFrom_eq_ok_iff {earlier : List CompiledSchema} {documents : List SchemaDocument} :
    emitFrom suffix (earlier.map (document suffix)) forest = .ok documents ↔
      documents = forest.map (document suffix) ∧
        (∀ schema ∈ forest, ∀ first ∈ earlier, Apart suffix first schema) ∧
        forest.Pairwise (Apart suffix) := by
  induction forest generalizing earlier documents with
  | nil => simp [emitFrom, eq_comm]
  | cons schema rest ih =>
    have happend : earlier.map (document suffix) ++ [document suffix schema] =
        (earlier ++ [schema]).map (document suffix) := by rw [List.map_append, List.map_singleton]
    have hapart : (∀ first ∈ earlier, Apart suffix first schema) ↔
        (earlier.map (document suffix)).find? (·.collection == schema.collection) = none ∧
          (earlier.map (document suffix)).find?
            (·.fileName == Document.fileName schema.simpleName suffix) = none := by
      simp [Apart, document, forall_and]
    rw [List.forall_mem_cons, hapart, emitFrom]
    cases (earlier.map (document suffix)).find? (·.collection == schema.collection) with
    | some first => simp
    | none =>
      cases (earlier.map (document suffix)).find?
          (·.fileName == Document.fileName schema.simpleName suffix) with
      | some first => simp
      | none =>
        simp only [happend, Outcome.bind_eq_ok_iff, Outcome.pure_eq_ok_iff, ih, true_and,
          List.map_cons, List.pairwise_cons]
        constructor
        · rintro ⟨found, ⟨rfl, hearlier, hrest⟩, rfl⟩
          refine ⟨rfl, fun s hs first hfirst => ?_, fun s hs => ?_, hrest⟩
          · exact hearlier s hs first (List.mem_append_left _ hfirst)
          · exact hearlier s hs schema (List.mem_append_right _ List.mem_cons_self)
        · rintro ⟨rfl, hearlier, hschema, hrest⟩
          refine ⟨_, ⟨rfl, fun s hs first hfirst => ?_, hrest⟩, rfl⟩
          rcases List.mem_append.mp hfirst with hfirst | hfirst
          · exact hearlier s hs first hfirst
          · rw [List.mem_singleton.mp hfirst]
            exact hschema s hs

/-- **A forest emits the documents of its schemas if they are pairwise apart.** -/
theorem emit_eq_ok_iff : emit suffix forest = .ok artifacts ↔
    artifacts = ⟨forest.map (document suffix), tableOf (forest.map (document suffix))⟩ ∧
      forest.Pairwise (Apart suffix) := by
  have hdocuments := @emitFrom_eq_ok_iff suffix forest []
  simp only [List.map_nil] at hdocuments
  simp only [emit, Outcome.bind_eq_ok_iff, Outcome.pure_eq_ok_iff, hdocuments, List.not_mem_nil,
    false_implies, implies_true, true_and]
  constructor
  · rintro ⟨documents, ⟨rfl, hapart⟩, rfl⟩
    exact ⟨rfl, hapart⟩
  · rintro ⟨rfl, hapart⟩
    exact ⟨_, ⟨rfl, hapart⟩, rfl⟩

/-- The table finds the text of a schema under its collection. -/
theorem get?_of_emit (h : emit suffix forest = .ok artifacts) {schema : CompiledSchema}
    (hschema : schema ∈ forest) :
    artifacts.table.bind (·.get? schema.collection) = some (Document.render schema.node) := by
  obtain ⟨rfl, hapart⟩ := emit_eq_ok_iff.mp h
  have hcollections : (forest.map (·.collection)).Nodup :=
    List.pairwise_map.mpr (hapart.imp And.left)
  let entries := (forest.map (document suffix)).map fun doc => (doc.collection, doc.text)
  have hkeys : (entries.map (·.1)).Nodup := by
    simp only [entries, List.map_map]
    exact hcollections
  have hentry : (schema.collection, Document.render schema.node) ∈ entries := by
    refine List.mem_map.mpr ⟨document suffix schema, ?_, rfl⟩
    exact List.mem_map_of_mem hschema
  have htable : tableOf (forest.map (document suffix)) = some ⟨entries⟩ := by
    apply if_neg
    simpa using List.ne_nil_of_mem hschema
  rw [htable]
  exact lookup_of_mem hkeys hentry

/-! ## Clashes -/

/-- No two schemas share their collection or their simple name. -/
structure ClashFree (forest : List CompiledSchema) : Prop where
  collections : (forest.map (·.collection)).Nodup
  simpleNames : (forest.map (·.simpleName)).Nodup

/-- File names differ exactly if the simple names do, as the rest of them is the same. -/
theorem apart_iff {a b : CompiledSchema} :
    Apart suffix a b ↔ a.collection ≠ b.collection ∧ a.simpleName ≠ b.simpleName := by
  simp only [Apart, document, Document.fileName, ne_eq, String.append_left_inj]

theorem clashFree_iff (suffix : String) :
    ClashFree forest ↔ forest.Pairwise (Apart suffix) := by
  constructor
  · rintro ⟨hcollections, hnames⟩
    have hboth := (List.pairwise_map.mp hcollections).and (List.pairwise_map.mp hnames)
    exact hboth.imp apart_iff.mpr
  · intro h
    exact ⟨List.pairwise_map.mpr (h.imp fun hab => (apart_iff.mp hab).1),
      List.pairwise_map.mpr (h.imp fun hab => (apart_iff.mp hab).2)⟩

/-- The error about a schema that shares its collection with an earlier one, or else its file
name. -/
inductive Clash (suffix : String) (earlier : List CompiledSchema) (schema : CompiledSchema) :
    EmitError → Prop
  | collection {first : CompiledSchema} : first ∈ earlier →
      first.collection = schema.collection →
        Clash suffix earlier schema
          (.duplicateCollection schema.collection first.record schema.record)
  | fileName {first : CompiledSchema} : first ∈ earlier →
      first.simpleName = schema.simpleName →
        (∀ other ∈ earlier, other.collection ≠ schema.collection) →
          Clash suffix earlier schema
            (.duplicateDocument (schema.simpleName ++ suffix ++ ".json") first.record
              schema.record)

/-- What the loop finds when it looks up a schema among the earlier ones. -/
def clash? (suffix : String) (earlier : List CompiledSchema) (schema : CompiledSchema) :
    Option EmitError :=
  ((earlier.find? (·.collection == schema.collection)).map fun first =>
      .duplicateCollection schema.collection first.record schema.record).or
    ((earlier.find? (·.simpleName == schema.simpleName)).map fun first =>
      .duplicateDocument (schema.simpleName ++ suffix ++ ".json") first.record schema.record)

section

variable {earlier : List CompiledSchema} {schema : CompiledSchema} {e : EmitError}

theorem clash?_eq_none_iff : clash? suffix earlier schema = none ↔
    ∀ first ∈ earlier, Apart suffix first schema := by
  simp [clash?, apart_iff, forall_and]

theorem clash?_eq_some_iff (h : ClashFree earlier) :
    clash? suffix earlier schema = some e ↔ Clash suffix earlier schema e := by
  have hnone : earlier.find? (·.collection == schema.collection) = none ↔
      ∀ other ∈ earlier, other.collection ≠ schema.collection := by simp
  simp only [clash?, Option.or_eq_some_iff, Option.map_eq_some_iff, Option.map_eq_none_iff, hnone,
    find?_eq_some_iff_of_nodup h.collections, find?_eq_some_iff_of_nodup h.simpleNames]
  constructor
  · rintro (⟨first, ⟨hfirst, hcollection⟩, rfl⟩ | ⟨hfresh, first, ⟨hfirst, hname⟩, rfl⟩)
    · exact .collection hfirst hcollection
    · exact .fileName hfirst hname hfresh
  · rintro (⟨hfirst, hcollection⟩ | ⟨hfirst, hname, hfresh⟩)
    · exact .inl ⟨_, ⟨hfirst, hcollection⟩, rfl⟩
    · exact .inr ⟨hfresh, _, ⟨hfirst, hname⟩, rfl⟩

theorem ClashFree.sublist {forest' : List CompiledSchema} (h : ClashFree forest)
    (hsub : forest'.Sublist forest) : ClashFree forest' :=
  ⟨h.collections.sublist (hsub.map _), h.simpleNames.sublist (hsub.map _)⟩

/-- The step of the loop: one more schema that is free of clashes. -/
theorem clashFree_append_singleton_iff : ClashFree (earlier ++ [schema]) ↔
    ClashFree earlier ∧ clash? suffix earlier schema = none := by
  simp only [clashFree_iff suffix, clash?_eq_none_iff, List.pairwise_append,
    List.pairwise_singleton, true_and, List.mem_singleton, forall_eq]

theorem emitFrom_cons (suffix : String) (earlier : List CompiledSchema) (schema : CompiledSchema)
    (rest : List CompiledSchema) :
    emitFrom suffix (earlier.map (document suffix)) (schema :: rest) =
      match clash? suffix earlier schema with
      | some e => .error e
      | none => do
        return document suffix schema ::
          (← emitFrom suffix ((earlier ++ [schema]).map (document suffix)) rest) := by
  have hcollection : (earlier.map (document suffix)).find?
      (·.collection == schema.collection) =
        (earlier.find? (·.collection == schema.collection)).map (document suffix) :=
    List.find?_map
  have hfileName : (earlier.map (document suffix)).find?
      (·.fileName == Document.fileName schema.simpleName suffix) =
        (earlier.find? (·.simpleName == schema.simpleName)).map (document suffix) := by
    rw [List.find?_map]
    congr 2
    funext first
    rw [Bool.eq_iff_iff]
    simp [document, Document.fileName]
  rw [emitFrom, hcollection, hfileName, List.map_append, List.map_singleton, clash?]
  cases earlier.find? (·.collection == schema.collection) with
  | some first => rfl
  | none =>
    cases earlier.find? (·.simpleName == schema.simpleName) with
    | some first => rfl
    | none => rfl

/-- The loop stops at the first schema that clashes with one before it. -/
theorem emitFrom_eq_error_iff (h : ClashFree earlier) :
    emitFrom suffix (earlier.map (document suffix)) forest = .error e ↔
      ∃ before schema after, forest = before ++ schema :: after ∧
        ClashFree (earlier ++ before) ∧ Clash suffix (earlier ++ before) schema e := by
  induction forest generalizing earlier with
  | nil => simp [emitFrom]
  | cons schema rest ih =>
    rw [emitFrom_cons]
    cases hclash : clash? suffix earlier schema with
    | some found =>
      constructor
      · intro herror
        cases herror
        refine ⟨[], schema, rest, rfl, ?_, ?_⟩
        · rwa [List.append_nil]
        · rw [List.append_nil]
          exact (clash?_eq_some_iff h).mp hclash
      · rintro ⟨before, second, after, hsplit, hfree, hsecond⟩
        cases before with
        | nil =>
          obtain ⟨rfl, rfl⟩ := List.cons.inj hsplit
          rw [List.append_nil] at hsecond
          have hsame := hclash.symm.trans ((clash?_eq_some_iff h).mpr hsecond)
          rw [Option.some.inj hsame]
        | cons first before =>
          -- then the first of the rest did not clash
          obtain ⟨rfl, rfl⟩ := List.cons.inj hsplit
          have hfirst : ClashFree (earlier ++ [schema]) := hfree.sublist (by simp)
          rw [(clashFree_append_singleton_iff.mp hfirst).2] at hclash
          cases hclash
    | none =>
      have hfree := clashFree_append_singleton_iff.mpr ⟨h, hclash⟩
      simp only [Outcome.bind_eq_error_iff, Outcome.pure_eq_error_iff, and_false, exists_false,
        or_false, ih hfree, List.append_assoc, List.singleton_append]
      constructor
      · rintro ⟨before, second, after, rfl, hbefore, hsecond⟩
        exact ⟨schema :: before, second, after, rfl, hbefore, hsecond⟩
      · rintro ⟨before, second, after, hsplit, hbefore, hsecond⟩
        cases before with
        | nil =>
          obtain ⟨rfl, rfl⟩ := List.cons.inj hsplit
          rw [List.append_nil] at hsecond
          rw [(clash?_eq_some_iff h).mpr hsecond] at hclash
          cases hclash
        | cons first before =>
          obtain ⟨rfl, rfl⟩ := List.cons.inj hsplit
          exact ⟨before, second, after, rfl, hbefore, hsecond⟩

/-- **A forest is refused because of its first clash.** -/
theorem emit_eq_error_iff : emit suffix forest = .error e ↔
    ∃ before schema after, forest = before ++ schema :: after ∧ ClashFree before ∧
      Clash suffix before schema e := by
  have hstart : ClashFree [] := ⟨List.nodup_nil, List.nodup_nil⟩
  simp only [emit, Outcome.bind_eq_error_iff, Outcome.pure_eq_error_iff, and_false, exists_false,
    or_false]
  exact emitFrom_eq_error_iff hstart

end

/-! ## The artifacts of a forest -/

/-- What the document of a schema says. -/
structure DocumentOf (suffix : String) (schema : CompiledSchema) (doc : SchemaDocument) :
    Prop where
  record : doc.record = schema.record
  collection : doc.collection = schema.collection
  fileName : doc.fileName = schema.simpleName ++ suffix ++ ".json"
  text : doc.text = Document.render schema.node

/-- The artifacts hold one document for every schema, in order, and a table unless there are none,
which gives the text of a schema under its collection and nothing under other names. -/
structure Present (suffix : String) (forest : List CompiledSchema) (artifacts : Artifacts) :
    Prop where
  documents : List.Forall₂ (DocumentOf suffix) forest artifacts.documents
  table : artifacts.table = none ↔ forest = []
  found : ∀ table, artifacts.table = some table → ∀ schema ∈ forest,
    table.get? schema.collection = some (Document.render schema.node)
  absent : ∀ table, artifacts.table = some table → ∀ name ∉ forest.map (·.collection),
    table.get? name = none

theorem present_of_emit (h : emit suffix forest = .ok artifacts) :
    artifacts.Present suffix forest := by
  have hget : ∀ schema ∈ forest, artifacts.table.bind (·.get? schema.collection) =
      some (Document.render schema.node) := fun schema => get?_of_emit h
  obtain ⟨rfl, -⟩ := emit_eq_ok_iff.mp h
  refine ⟨Outcome.forall₂_map fun schema _ => ⟨rfl, rfl, rfl, rfl⟩, ?_, ?_, ?_⟩
  · simp [tableOf]
  · intro table htable schema hschema
    have hfound := hget schema hschema
    rwa [htable] at hfound
  · intro table htable name hname
    obtain ⟨-, rfl⟩ : ¬ forest = [] ∧ _ := by simpa [tableOf] using htable
    rw [DocumentTable.get?, List.lookup_eq_none_iff]
    rintro entry hentry
    obtain ⟨schema, hschema, rfl⟩ := List.mem_map.mp (by simpa using hentry)
    rw [bne_iff_ne]
    rintro rfl
    exact hname (List.mem_map_of_mem hschema)

/-- **Exactly the forests without clashes are emitted.** Their artifacts present every schema. Any
other forest is refused because of the first schema that shares its collection, or else its file
name, with an earlier one. -/
theorem emit_decides (suffix : String) (forest : List CompiledSchema) :
    ((∃ artifacts, emit suffix forest = .ok artifacts) ↔ ClashFree forest) ∧
    (∀ artifacts, emit suffix forest = .ok artifacts → artifacts.Present suffix forest) ∧
    ∀ e, emit suffix forest = .error e ↔ ∃ before schema after,
      forest = before ++ schema :: after ∧ ClashFree before ∧ Clash suffix before schema e := by
  refine ⟨?_, fun artifacts => present_of_emit, fun e => emit_eq_error_iff⟩
  rw [clashFree_iff suffix]
  simp only [emit_eq_ok_iff, exists_eq_left]

end CollectionSchema.Artifacts
