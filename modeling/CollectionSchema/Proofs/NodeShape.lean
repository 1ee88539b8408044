import CollectionSchema.Proofs.Compilation
import CollectionSchema.Proofs.Places
import CollectionSchema.Proofs.Registration

/-!
# The shape of nodes

What every node of a compiled schema looks like (`Node.WellFormedAt`): the nodes of records have
properties in declaration order and nothing else, only lists have elements, enumerations list
every value once, and the keywords of a node are of one kind with their bounds in order. The
kinds come from the registry (`coherent_of_collect`), the names and values from the check of
declarations, and `wellFormedAt_of_compile` joins them for every node at every depth.
-/

namespace CollectionSchema

/-! ## Coherent keywords -/

namespace Keywords

/-- Keywords of one kind at most: a pattern, length bounds or numeric bounds. Bounds are in
order, and a length has an upper bound only beside a lower one. -/
structure Coherent (k : Keywords) : Prop where
  kind : k = { pattern := k.pattern } ∨
    k = { minLength := k.minLength, maxLength := k.maxLength } ∨
    k = { minimum := k.minimum, maximum := k.maximum }
  lengths : ∀ high, k.maxLength = some high → ∃ low, k.minLength = some low ∧ low ≤ high
  numbers : ∀ low high, k.minimum = some low → k.maximum = some high →
    Annotation.below high low = false

theorem coherent_empty : Coherent {} := by
  refine ⟨.inl rfl, fun high hhigh => ?_, fun low high hlow => ?_⟩
  · cases hhigh
  · cases hlow

theorem coherent_ofPattern (pattern : String) : (ofPattern pattern).Coherent := by
  refine ⟨.inl rfl, fun high hhigh => ?_, fun low high hlow => ?_⟩
  · cases hhigh
  · cases hlow

theorem coherent_ofConstraint {c : Constraint} (h : c.Ordered) : (ofConstraint c).Coherent := by
  cases c with
  | fixedLength length => exact coherent_ofPattern _
  | pattern pattern => exact coherent_ofPattern _
  | lengthBounds min max =>
    refine ⟨.inr (.inl rfl), fun high hhigh => ⟨min, rfl, h high hhigh⟩, fun low high hlow => ?_⟩
    cases hlow
  | numericBounds min max =>
    refine ⟨.inr (.inr rfl), fun high hhigh => ?_, h⟩
    cases hhigh

theorem coherent_default {property : String} {tag : TypeTag} {k : Keywords}
    (h : default? property tag = some k) : k.Coherent := by
  cases tag with
  | string =>
    simp only [default?] at h
    split at h <;> cases h <;> exact coherent_ofPattern _
  | number =>
    cases h
    refine ⟨.inr (.inr rfl), fun high hhigh => ?_, fun low high _ hhigh => ?_⟩
    · cases hhigh
    · cases hhigh
  | _ => cases h

end Keywords

namespace Builder

theorem coherent_keywords {registry : Registry} {key : FieldKey} {type : TypeRef}
    (h : ∀ k, registry.keywords? key = some k → k.Coherent) :
    (keywords registry key type).Coherent := by
  unfold keywords
  split
  · next stated hstated => exact h stated hstated
  · exact Keywords.coherent_empty
  · split
    · exact Keywords.coherent_empty
    · cases hdefault : Keywords.default? key.field _ with
      | none => exact Keywords.coherent_empty
      | some k => exact Keywords.coherent_default hdefault

end Builder

namespace Registry

/-- **Whatever is registered for a field is coherent.** -/
theorem coherent_of_collect {g : Graph} {registry : Registry} (hg : g.WellFormed)
    (h : collect g = .ok registry) {r : Record} (hr : r ∈ g.records) {p : Property}
    (hp : p ∈ r.properties) (k : Keywords) (hk : registry.keywords? ⟨r.name, p.name⟩ = some k) :
    k.Coherent := by
  have hstated := (registered_of_collect hg h hr hp).1
  rw [hk] at hstated
  rcases Property.keywords?_eq_ok hstated with ⟨hnone, -⟩ | ⟨a, -, c, hc, hsome, -⟩
  · cases hnone
  · cases hsome
    have hordered := Annotation.ordered_of_constraint_eq_ok hc
    exact Keywords.coherent_ofConstraint hordered

end Registry

/-! ## Well-formed nodes -/

namespace Node

/-- The node says of a record that its properties are those declared, in order, and which of
them must be present; it says nothing else. -/
structure Describes (n : Node) (r : Record) : Prop where
  type : n.type = ⟨.object, false⟩
  properties : ∃ properties : Properties, n.properties = some properties ∧
    properties.names = r.properties.map (·.name) ∧ properties.names.Nodup ∧
    n.required.Sublist properties.names
  required : n.required.Nodup ∧ ∀ p ∈ r.properties, p.name ∈ n.required ↔ p.nullable = false
  plain : n.enumValues = none ∧ n.items = none ∧ n.keywords = {}

/-- What a node at a place looks like. -/
structure WellFormedAt (g : Graph) (root : Record) (place : Place) (n : Node) : Prop where
  object : n.type.tag = .object → ∃ r, g.InlinedAt root place r ∧ n.Describes r
  other : n.type.tag ≠ .object → n.required = [] ∧ n.properties = none
  property : ∀ outer name, place = .property outer name →
    (n.items.isSome ↔ n.type.tag = .array)
  element : ∀ outer, place = .items outer →
    n.type.nullable = false ∧ n.enumValues = none ∧ n.keywords = {}
  values : ∀ values, n.enumValues = some values →
    n.type.tag = .string ∧ values ≠ [] ∧ values.Nodup ∧
      (none ∈ values ↔ n.type.nullable = true) ∧ (none ∈ values → values.getLast? = some none)
  keywords : n.keywords.Coherent

end Node

namespace Builder

/-- The values of an enumeration are listed once each, and null comes last if it is allowed. -/
theorem enumValues_spec {e : Enumeration} (he : e.values ≠ [] ∧ e.values.Nodup)
    (nullable : Bool) :
    enumValues e nullable ≠ [] ∧ (enumValues e nullable).Nodup ∧
      (none ∈ enumValues e nullable ↔ nullable = true) ∧
      (none ∈ enumValues e nullable → (enumValues e nullable).getLast? = some none) := by
  have hnodup : (e.values.map some).Nodup := he.2.map fun _ _ => Option.some.inj
  cases nullable with
  | false => simpa [enumValues] using ⟨he.1, hnodup⟩
  | true => simpa [enumValues, List.nodup_append] using hnodup

end Builder

namespace Graph

variable {g : Graph} {registry : Registry}

theorem describes_of_build_eq_ok {r : Record} (hr : (r.properties.map (·.name)).Nodup) {n : Node}
    (h : g.build registry r = .ok n) : n.Describes r := by
  obtain ⟨nodes, hnodes, rfl⟩ := build_eq_ok hr h
  have hnames : Properties.names nodes = r.properties.map (·.name) :=
    Properties.names_eq_map (hnodes.imp fun p e he => he.1)
  have hsub : (Builder.required r).Sublist (r.properties.map (·.name)) :=
    List.filter_sublist.map _
  refine ⟨rfl, ⟨nodes, rfl, hnames, hnames ▸ hr, hnames ▸ hsub⟩, ⟨hsub.nodup hr, ?_⟩,
    rfl, rfl, rfl⟩
  intro p hp
  constructor
  · intro hrequired
    obtain ⟨q, hq, hname⟩ := List.mem_map.mp hrequired
    obtain ⟨hq, hnullable⟩ := List.mem_filter.mp hq
    rw [List.inj_on_of_nodup_map hr hq hp hname] at hnullable
    simpa using hnullable
  · intro hnullable
    exact List.mem_map.mpr ⟨p, List.mem_filter.mpr ⟨hp, by simp [hnullable]⟩, rfl⟩

/-- The node of a property that is no record is well formed, whatever values and elements its
type adds. -/
theorem wellFormedAt_of_leaf {root s : Record} {place : Place} {p : Property}
    (hsite : g.Sites root place (.property s p)) (htag : p.type.tag ≠ .object)
    (hkeywords : (Builder.keywords registry ⟨s.name, p.name⟩ p.type).Coherent)
    {enumValues : Option (List (Option String))} {items : Option Node}
    (hvalues : ∀ values, enumValues = some values →
      p.type.tag = .string ∧ values ≠ [] ∧ values.Nodup ∧
        (none ∈ values ↔ p.nullable = true) ∧ (none ∈ values → values.getLast? = some none))
    (hitems : items.isSome ↔ p.type.tag = .array) :
    Node.WellFormedAt g root place
      { Builder.leaf registry ⟨s.name, p.name⟩ p with enumValues, items } where
  object hobject := absurd hobject htag
  other _ := ⟨rfl, rfl⟩
  property _ _ _ := hitems
  element outer hplace := by
    -- what stands at the elements of a list is no property
    subst hplace
    cases hsite
  values := hvalues
  keywords := hkeywords

theorem wellFormedAt_of_describes {root r : Record} {place : Place}
    (hplace : g.InlinedAt root place r) {n : Node} (h : n.Describes r) :
    n.WellFormedAt g root place := by
  have htype := h.type
  obtain ⟨hvalues, hitems, hkeywords⟩ := h.plain
  refine ⟨fun _ => ⟨r, hplace, h⟩, ?_, ?_, ?_, ?_, ?_⟩
  · simp [htype]
  · simp [htype, hitems]
  · simp [htype, hvalues, hkeywords]
  · simp [hvalues]
  · rw [hkeywords]
    exact Keywords.coherent_empty

/-- What fits a site of a record is well formed, if the keywords of the fields are coherent. -/
theorem wellFormedAt_of_fits (hg : g.WellFormed)
    (hkeywords : ∀ r ∈ g.records, ∀ p ∈ r.properties, ∀ k,
      registry.keywords? ⟨r.name, p.name⟩ = some k → k.Coherent)
    {root : Record} (hroot : root ∈ g.records) {place : Place} {site : Site}
    (hsite : g.Sites root place site) {n : Node} (hfits : site.Fits g registry n) :
    n.WellFormedAt g root place := by
  have hcoherent : ∀ {s p}, g.Sites root place (.property s p) →
      (Builder.keywords registry ⟨s.name, p.name⟩ p.type).Coherent := by
    intro s p hsite
    obtain ⟨hs, hp⟩ := hsite.mem_of_property hroot
    exact Builder.coherent_keywords (hkeywords s hs p hp)
  cases hfits with
  | @record _ s n hs hbuild =>
    have hproperties := hg.properties s (hsite.mem_of_record? hroot hs)
    exact wellFormedAt_of_describes ⟨site, hsite, hs⟩ (describes_of_build_eq_ok hproperties hbuild)
  | @enumeration s p name e htype he =>
    have htag : p.type.tag = .string := by rw [htype, TypeRef.tag]
    refine wellFormedAt_of_leaf hsite (by simp [htag]) (hcoherent hsite) ?_
      (by simp [Builder.leaf, htag])
    intro values hvalues
    cases hvalues
    exact ⟨htag, Builder.enumValues_spec (hg.values e (mem_of_enum? he)) p.nullable⟩
  | @list s p element c htype hc =>
    have htag : p.type.tag = .array := by rw [htype, TypeRef.tag]
    exact wellFormedAt_of_leaf hsite (by simp [htag]) (hcoherent hsite) (by simp [Builder.leaf])
      (by simp [htag])
  | @primitive s p kind htype =>
    have htag : p.type.tag ≠ .object ∧ p.type.tag ≠ .array := by
      rw [htype]
      cases kind <;> simp [TypeRef.tag, Primitive.tag]
    exact wellFormedAt_of_leaf hsite htag.1 (hcoherent hsite) (by simp) (by simp [htag.2])
  | @element type hnone htag =>
    refine ⟨fun hobject => absurd hobject htag, fun _ => ⟨rfl, rfl⟩, ?_, fun _ _ => ⟨rfl, rfl, rfl⟩,
      ?_, Keywords.coherent_empty⟩
    · intro outer name hplace
      subst hplace
      cases hsite
    · intro values hvalues
      cases hvalues

/-- **Every node of a compiled schema is well formed**, at every place and depth. -/
theorem wellFormedAt_of_compile {g : Graph} {c : Compiled} (h : g.compile = .ok c) :
    ∀ schema ∈ c.forest, ∃ root ∈ g.records, root.name = schema.record ∧
      ∀ place n, schema.node.Holds place n → n.WellFormedAt g root place := by
  intro schema hschema
  obtain ⟨hg, hregistry, -⟩ := compile_eq_ok_iff.mp h
  obtain ⟨root, hroot, hname, hbuild⟩ := exists_root_of_mem_forest h hschema
  refine ⟨root, hroot, hname, fun place n hn => ?_⟩
  obtain ⟨site, hsite, hfits⟩ := exists_site_of_holds hg hroot hbuild hn
  exact wellFormedAt_of_fits hg (fun r hr p hp => Registry.coherent_of_collect hg hregistry hr hp)
    hroot hsite hfits

/-- Shipments compile, to a schema with well-formed nodes only. -/
theorem wellFormedAt_of_compile_shipments :
    ∃ c, shipments.compile = .ok c ∧ ∃ schema ∈ c.forest, ∀ place n,
      schema.node.Holds place n → n.WellFormedAt shipments shipment place := by
  obtain ⟨c, hc, schema, hschema, hrecord⟩ := exists_compile_shipments
  obtain ⟨root, hroot, hname, hnodes⟩ := wellFormedAt_of_compile hc schema hschema
  have hshipment : root = shipment :=
    eq_shipment_of_name hroot (hname.trans hrecord)
  rw [hshipment] at hnodes
  exact ⟨c, hc, schema, hschema, hnodes⟩

end Graph

end CollectionSchema
