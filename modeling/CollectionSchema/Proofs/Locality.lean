import CollectionSchema.Proofs.Compilation
import CollectionSchema.Proofs.Registration
import CollectionSchema.Proofs.RootAccounting

/-!
# What a node depends on

The node of a record is made of the declarations that the record reaches: two graphs that look up
alike every name mentioned there build it alike, each with the registry of its own annotations.

* `Builder.buildFrom_eq_of_agreeBelow`: two runs of the builder, side by side along one path,
  enter the same records and give the same node or stop with the same error.
* `build_eq_of_agreeBelow`: the same for whole graphs.
-/

namespace CollectionSchema

open Relation

namespace TypeRef

theorem mentions_of_inlined? {type : TypeRef} {name : String} (h : type.inlined? = some name) :
    type.Mentions name := by
  rcases inlined?_eq_some_iff.mp h with rfl | rfl
  · exact .record name
  · exact .list (.record name)

theorem mentions_of_enumerated? {type : TypeRef} {name : String}
    (h : type.enumerated? = some name) : type.Mentions name := by
  rcases enumerated?_eq_some_iff.mp h with rfl | rfl
  · exact .enumeration name
  · exact .list (.enumeration name)

end TypeRef

namespace Graph

/-- Every name that a record mentions, or one that it reaches, is looked up alike in two graphs. -/
def AgreeBelow (g g' : Graph) (r : Record) : Prop :=
  ∀ s, ReflTransGen g.Inlines r s → ∀ p ∈ s.properties, ∀ name, p.type.Mentions name →
    g.record? name = g'.record? name ∧ g.enum? name = g'.enum? name

theorem AgreeBelow.of_inlines {g g' : Graph} {r s : Record} (h : g.AgreeBelow g' r)
    (hedge : g.Inlines r s) : g.AgreeBelow g' s := by
  intro t ht
  exact h t (.head hedge ht)

end Graph

namespace Registry

/-- A field that two graphs declare alike has the same keywords in both. -/
theorem keywords_eq_of_collect {g g' : Graph} (hg : g.WellFormed) (hg' : g'.WellFormed)
    {registry registry' : Registry} (hcollect : collect g = .ok registry)
    (hcollect' : collect g' = .ok registry') {r : Record} (hr : r ∈ g.records)
    (hr' : r ∈ g'.records) {p : Property} (hp : p ∈ r.properties) :
    Builder.keywords registry ⟨r.name, p.name⟩ p.type =
      Builder.keywords registry' ⟨r.name, p.name⟩ p.type := by
  obtain ⟨hstated, hexempt⟩ := registered_of_collect hg hcollect hr hp
  obtain ⟨hstated', hexempt'⟩ := registered_of_collect hg' hcollect' hr' hp
  rw [hstated] at hstated'
  have hkeywords := Except.ok.inj hstated'
  simp only [Builder.keywords, hkeywords, hexempt, hexempt']

end Registry

namespace Builder

variable {g g' : Graph} {registry registry' : Registry}

/-! ## Two runs, side by side -/

theorem elements_congr {nested nested' : String → Except BuildError Node} {key : FieldKey}
    {type : TypeRef}
    (hnested : ∀ name, type = .record name → nested name = nested' name)
    (henum : ∀ name, type = .enumeration name → g.enum? name = g'.enum? name) :
    elements g nested key type = elements g' nested' key type := by
  cases type with
  | record name => exact hnested name rfl
  | enumeration name => rw [elements, elements, henum name rfl]
  | _ => rfl

theorem property_congr {nested nested' : String → Except BuildError Node} {key : FieldKey}
    {p : Property} (hkeywords : keywords registry key p.type = keywords registry' key p.type)
    (hnested : ∀ name, p.type.inlined? = some name → nested name = nested' name)
    (henum : ∀ name, p.type.enumerated? = some name → g.enum? name = g'.enum? name) :
    property g registry nested key p = property g' registry' nested' key p := by
  unfold property
  rw [hkeywords]
  cases htype : p.type with
  | record name =>
    apply hnested
    rw [htype, TypeRef.inlined?]
  | enumeration name =>
    have hname : p.type.enumerated? = some name := by rw [htype, TypeRef.enumerated?]
    simp only [henum name hname]
  | list element =>
    have helements : elements g nested key element = elements g' nested' key element := by
      apply elements_congr
      · rintro name rfl
        exact hnested name (by rw [htype, TypeRef.inlined?])
      · rintro name rfl
        exact henum name (by rw [htype, TypeRef.enumerated?])
    simp only [helements]
  | primitive kind => rfl

theorem enter_congr {path : List String} {key : FieldKey} {name : String}
    (hrecord : g.record? name = g'.record? name)
    (hbuild : ∀ r, g.record? name = some r → name ∉ path →
      buildFrom g registry path r = buildFrom g' registry' path r) :
    enter g registry path key name = enter g' registry' path key name := by
  unfold enter
  rw [← hrecord]
  cases hr : g.record? name with
  | none => rfl
  | some r =>
    by_cases hname : name ∈ path
    · simp [hname]
    · simp [hname, hbuild r hr hname]

theorem buildFrom_congr {path : List String} {r : Record}
    (hproperty : ∀ p ∈ r.properties,
      property g registry (enter g registry (path ++ [r.name]) ⟨r.name, p.name⟩)
          ⟨r.name, p.name⟩ p =
        property g' registry' (enter g' registry' (path ++ [r.name]) ⟨r.name, p.name⟩)
          ⟨r.name, p.name⟩ p) :
    buildFrom g registry path r = buildFrom g' registry' path r := by
  rw [buildFrom_eq, buildFrom_eq]
  congr 1
  apply Outcome.mapM_congr
  intro p hp
  rw [entry, entry, hproperty p hp]

/-- **Graphs that agree below a record build it alike from every path.** -/
theorem buildFrom_eq_of_agreeBelow (hg : g.WellFormed) (hg' : g'.WellFormed)
    (hcollect : Registry.collect g = .ok registry)
    (hcollect' : Registry.collect g' = .ok registry') {path : List String} {r : Record}
    (hr : r ∈ g.records) (hr' : r ∈ g'.records) (hagree : g.AgreeBelow g' r) :
    buildFrom g registry path r = buildFrom g' registry' path r := by
  induction path, r using path_induction g with
  | step path r ih =>
    apply buildFrom_congr
    intro p hp
    have hlookup := hagree r .refl p hp
    apply property_congr
    · exact Registry.keywords_eq_of_collect hg hg' hcollect hcollect' hr hr' hp
    · intro name hname
      have hrecord := (hlookup name (TypeRef.mentions_of_inlined? hname)).1
      apply enter_congr hrecord
      intro s hs hfresh
      -- both runs enter the same record, which both graphs declare
      obtain rfl := Graph.name_of_record? hs
      have hmem := Graph.mem_of_record? hs
      have hmem' := Graph.mem_of_record? (hrecord ▸ hs)
      exact ih s.name s hs hfresh hmem hmem' (hagree.of_inlines ⟨hmem, p, hp, hname⟩)
    · intro name hname
      exact (hlookup name (TypeRef.mentions_of_enumerated? hname)).2

end Builder

namespace Graph

/-- **A node depends only on what its record reaches.** Two graphs in order that declare a record
alike, and look up alike what is mentioned below it, give it the same node or the same error, each
with its own registry. -/
theorem build_eq_of_agreeBelow {g g' : Graph} (hg : g.check = .ok ()) (hg' : g'.check = .ok ())
    {registry registry' : Registry} (hcollect : Registry.collect g = .ok registry)
    (hcollect' : Registry.collect g' = .ok registry') {r : Record} (hr : r ∈ g.records)
    (hr' : r ∈ g'.records) (hagree : g.AgreeBelow g' r) :
    g.build registry r = g'.build registry' r :=
  Builder.buildFrom_eq_of_agreeBelow (check_eq_ok_iff.mp hg) (check_eq_ok_iff.mp hg') hcollect
    hcollect' hr hr' hagree

/-! ### Depots -/

/-- A depot of shipments, with a constraint and an enumeration of its own. -/
def depot : Record where
  name := "Depot"
  root := some ⟨some "depots"⟩
  properties := [
    ⟨"incoming", .list (.record "Shipment"), false, []⟩,
    ⟨"size", .enumeration "Size", true, []⟩,
    ⟨"code", .primitive .string, false, [⟨"FixLenNum", [("len", .ofNat 4)]⟩]⟩]

/-- The shipments among other declarations, themselves marked as pending. -/
def depots : Graph where
  records := [depot, address, shipment]
  enums := [⟨"Size", ["SMALL", "LARGE"]⟩, ⟨"State", ["OPEN", "DONE"]⟩]
  pending := ["Shipment"]

theorem agreeBelow_depots : shipments.AgreeBelow depots shipment := by
  intro s hs p hp name hname
  have hmem := mem_of_reflTransGen_inlines shipment_mem hs
  rw [← TypeRef.declaration?_eq_some_iff] at hname
  have hmentioned : name = "Address" ∨ name = "State" := by
    simp only [shipments, List.mem_cons, List.not_mem_nil, or_false] at hmem
    rcases hmem with rfl | rfl
    · simp only [shipment, List.mem_cons, List.not_mem_nil, or_false] at hp
      rcases hp with rfl | rfl | rfl | rfl <;> simp_all [TypeRef.declaration?]
    · simp only [address, List.mem_cons, List.not_mem_nil, or_false] at hp
      rcases hp with rfl | rfl <;> simp [TypeRef.declaration?] at hname
  rcases hmentioned with rfl | rfl
  · exact ⟨rfl, rfl⟩
  · exact ⟨rfl, rfl⟩

/-- A shipment has the same node in a graph of its own and among the depots. -/
theorem build_eq_of_agreeBelow_depots :
    shipments.check = .ok () ∧ depots.check = .ok () ∧ ∃ registry registry',
      Registry.collect shipments = .ok registry ∧ Registry.collect depots = .ok registry' ∧
        shipment ∈ shipments.records ∧ shipment ∈ depots.records ∧
          shipments.AgreeBelow depots shipment ∧
            shipments.build registry shipment = depots.build registry' shipment := by
  have hcheck : depots.check = .ok () := by decide
  have hmem : shipment ∈ depots.records := by simp [depots]
  obtain ⟨registry, hcollect⟩ : ∃ registry, Registry.collect shipments = .ok registry := ⟨_, rfl⟩
  obtain ⟨registry', hcollect'⟩ : ∃ registry, Registry.collect depots = .ok registry := ⟨_, rfl⟩
  have hbuild := build_eq_of_agreeBelow check_shipments hcheck hcollect hcollect' shipment_mem hmem
    agreeBelow_depots
  exact ⟨check_shipments, hcheck, registry, registry', hcollect, hcollect', shipment_mem, hmem,
    agreeBelow_depots, hbuild⟩

end Graph

end CollectionSchema
