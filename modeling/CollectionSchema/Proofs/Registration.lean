import CollectionSchema.Proofs.Declaration
import CollectionSchema.Proofs.Extraction
import Mathlib.Data.List.Flatten
import Mathlib.Data.List.Nodup

/-!
# What the registry holds

The registry is collected field by field. In a well-formed graph every field has a key of its
own, so the registry holds under the key of a field exactly what the annotations of that field
state (`registered_of_collect`).
-/

namespace CollectionSchema

/-! ## Fields of a graph -/

namespace Graph

/-- The fields of a graph: every property with the name of its record, in order. -/
def fields (g : Graph) : List (String × Property) :=
  g.records.flatMap fun r => r.properties.map (r.name, ·)

end Graph

def Property.keyIn (record : String) (p : Property) : FieldKey := ⟨record, p.name⟩

namespace Graph

variable {g : Graph}

theorem mem_fields {r : Record} (hr : r ∈ g.records) {p : Property} (hp : p ∈ r.properties) :
    (r.name, p) ∈ g.fields :=
  List.mem_flatMap.mpr ⟨r, hr, List.mem_map.mpr ⟨p, hp, rfl⟩⟩

/-- Every field of a well-formed graph has a key of its own. -/
theorem WellFormed.nodup_keys (hg : g.WellFormed) :
    (g.fields.map fun field => field.2.keyIn field.1).Nodup := by
  simp only [fields, List.map_flatMap, List.map_map]
  refine List.nodup_flatMap.mpr ⟨fun r hr => ?_, ?_⟩
  · have hproperties := hg.properties r hr
    have hmap : r.properties.map ((fun field : String × Property => field.2.keyIn field.1) ∘
        (r.name, ·)) = (r.properties.map (·.name)).map (FieldKey.mk r.name) := by
      simp [Property.keyIn]
    rw [hmap]
    exact hproperties.map fun x y h => (FieldKey.mk.inj h).2
  · refine (List.pairwise_map.mp hg.records).imp fun {r s} hne => ?_
    intro key hr hs
    obtain ⟨p, -, rfl⟩ := List.mem_map.mp hr
    obtain ⟨q, -, hq⟩ := List.mem_map.mp hs
    exact hne (FieldKey.mk.inj hq).1.symm

end Graph

/-! ## Collecting -/

namespace Registry

def addField (registry : Registry) (field : String × Property) :
    Except AnnotationError Registry :=
  addProperty field.1 registry field.2

theorem collect_eq_foldlM_fields (g : Graph) : collect g = g.fields.foldlM addField empty := by
  unfold collect Graph.fields
  generalize empty = registry
  induction g.records generalizing registry with
  | nil => rfl
  | cons r rest ih =>
    rw [List.foldlM_cons, List.flatMap_cons, List.foldlM_append, List.foldlM_map]
    unfold addRecord addField at *
    congr 1
    funext registry'
    exact ih registry'

/-- What a step does: it adds the constraint and the exemption of one field. -/
theorem addField_eq_ok {registry registry' : Registry} {field : String × Property}
    (h : registry.addField field = .ok registry') :
    ∃ stated, field.2.keywords? field.1 = .ok stated ∧
      (∀ key, registry'.keywords? key =
        if key = field.2.keyIn field.1 then stated.or (registry.keywords? key)
        else registry.keywords? key) ∧
      ∀ key, registry'.isExempt key =
        if key = field.2.keyIn field.1 then field.2.isExempt || registry.isExempt key
        else registry.isExempt key := by
  obtain ⟨record, p⟩ := field
  simp only [addField, addProperty, Outcome.bind_eq_ok_iff, Outcome.pure_eq_ok_iff] at h
  obtain ⟨stated, hstated, rfl⟩ := h
  refine ⟨stated, hstated, fun key => ?_, fun key => ?_⟩
  · cases stated with
    | none => simp [keywords?]
    | some keywords =>
      by_cases hkey : key = ⟨record, p.name⟩ <;>
        simp [keywords?, lookup_putAscending, Property.keyIn, hkey]
  · by_cases hexempt : p.isExempt
    · by_cases hkey : key = ⟨record, p.name⟩ <;>
        simp [isExempt, hexempt, Property.keyIn, mem_insertAscending, hkey]
    · simp [isExempt, hexempt]

/-- What a run does: fields with keys of their own are registered each as it states, and other
keys are left alone. -/
theorem foldlM_addField_eq_ok {fields : List (String × Property)} {registry registry' : Registry}
    (hkeys : (fields.map fun field => field.2.keyIn field.1).Nodup)
    (h : fields.foldlM addField registry = .ok registry') :
    (∀ field ∈ fields, registry.keywords? (field.2.keyIn field.1) = none →
      registry.isExempt (field.2.keyIn field.1) = false →
        field.2.keywords? field.1 = .ok (registry'.keywords? (field.2.keyIn field.1)) ∧
          registry'.isExempt (field.2.keyIn field.1) = field.2.isExempt) ∧
    ∀ key ∉ fields.map fun field => field.2.keyIn field.1,
      registry'.keywords? key = registry.keywords? key ∧
        registry'.isExempt key = registry.isExempt key := by
  induction fields generalizing registry with
  | nil =>
    cases h
    simp
  | cons field rest ih =>
    rw [List.foldlM_cons, Outcome.bind_eq_ok_iff] at h
    obtain ⟨middle, hstep, hrest⟩ := h
    rw [List.map_cons, List.nodup_cons] at hkeys
    obtain ⟨hkey, hkeys⟩ := hkeys
    obtain ⟨stated, hstated, hkeywords, hexempt⟩ := addField_eq_ok hstep
    obtain ⟨hfields, hothers⟩ := ih hkeys hrest
    constructor
    · intro other hmem hnone hnot
      rcases List.mem_cons.mp hmem with rfl | hmem
      · obtain ⟨hk, he⟩ := hothers _ hkey
        rw [hk, he, hkeywords, hexempt, if_pos rfl, if_pos rfl, hnone, hnot]
        simpa using hstated
      · have hne : other.2.keyIn other.1 ≠ field.2.keyIn field.1 := by
          intro heq
          exact hkey (heq ▸ List.mem_map.mpr ⟨other, hmem, rfl⟩)
        exact hfields other hmem (by rw [hkeywords, if_neg hne, hnone])
          (by rw [hexempt, if_neg hne, hnot])
    · intro key hnot
      rw [List.map_cons, List.mem_cons, not_or] at hnot
      obtain ⟨hk, he⟩ := hothers key hnot.2
      rw [hk, he, hkeywords, hexempt, if_neg hnot.1, if_neg hnot.1]
      exact ⟨rfl, rfl⟩

/-- Without annotations there is nothing to register. -/
theorem collect_eq_empty {g : Graph}
    (h : ∀ r ∈ g.records, ∀ p ∈ r.properties, p.annotations = []) : collect g = .ok empty := by
  have hplain : ∀ field ∈ g.fields, addField empty field = .ok empty := by
    intro field hfield
    obtain ⟨r, hr, hfield⟩ := List.mem_flatMap.mp hfield
    obtain ⟨p, hp, rfl⟩ := List.mem_map.mp hfield
    have hexempt : p.isExempt = false := by rw [Property.isExempt, h r hr p hp, List.any_nil]
    have hstated : p.keywords? r.name = .ok none := by
      rw [Property.keywords?, h r hr p hp]
      rfl
    simp [addField, addProperty, hstated, hexempt]
  rw [collect_eq_foldlM_fields]
  revert hplain
  induction g.fields with
  | nil => exact fun _ => rfl
  | cons field rest ih =>
    intro hplain
    obtain ⟨hfield, hrest⟩ := List.forall_mem_cons.mp hplain
    rw [List.foldlM_cons, hfield, Outcome.ok_bind, ih hrest]

/-- **The registry holds for every field what its annotations state.** -/
theorem registered_of_collect {g : Graph} (hg : g.WellFormed) {registry : Registry}
    (h : collect g = .ok registry) {r : Record} (hr : r ∈ g.records) {p : Property}
    (hp : p ∈ r.properties) :
    p.keywords? r.name = .ok (registry.keywords? ⟨r.name, p.name⟩) ∧
      registry.isExempt ⟨r.name, p.name⟩ = p.isExempt := by
  rw [collect_eq_foldlM_fields] at h
  exact (foldlM_addField_eq_ok hg.nodup_keys h).1 (r.name, p) (Graph.mem_fields hr hp) rfl rfl

end Registry

end CollectionSchema
