import CollectionSchema.Proofs.DeclarationOrder

/-!
# Which registries are collected

The registry of a graph is described by the declarations alone. A field is sound if at most one of
its annotations states a constraint and the arguments of that one can be read
(`Property.Sound`). `Registers` says what a registry holds for every key.

* `Annotation.exists_collect_iff`, `Property.exists_keywords?_iff`: a field is accepted exactly if
  it is sound.
* `Registry.collect_eq_ok_iff`: a graph whose fields are sound has exactly one registry, the ordered
  one that registers the graph. So the order of declarations and annotations plays no part
  (`Reordered.collect_eq_ok`).
* `Registry.collect_eq_error`: otherwise the first field that is not sound is at fault.
* `Registry.collect_decides`: all of this, with the sizes of the registry.
-/

namespace CollectionSchema

/-! ## Annotations of a field -/

namespace Annotation

variable {a : Annotation} {kind : AnnotationKind}

/-- The annotation is called by the full or the short name of a kind. -/
def IsNamed (a : Annotation) (kind : AnnotationKind) : Prop :=
  a.name = kind.name ∨ a.name = kind.shortName

instance : Decidable (a.IsNamed kind) := inferInstanceAs (Decidable (_ ∨ _))

/-- The annotation is of a kind that states a constraint. -/
def Constrains (a : Annotation) : Prop := ∃ kind, kind ≠ .exemption ∧ a.IsNamed kind

/-- No two kinds have a name in common. -/
theorem IsNamed.unique {kind' : AnnotationKind} (h : a.IsNamed kind) (h' : a.IsNamed kind') :
    kind = kind' := by
  have hdistinct : kind.name ≠ kind'.name ∧ kind.name ≠ kind'.shortName ∧
      kind.shortName ≠ kind'.name ∧ kind.shortName ≠ kind'.shortName ∨ kind = kind' := by
    cases kind <;> cases kind' <;> decide
  unfold IsNamed at h h'
  grind

theorem kind?_eq_some_iff : a.kind? = some kind ↔ a.IsNamed kind := by
  have hfound : ∀ found, a.kind? = some found → a.IsNamed found := by
    intro found h
    have hnames := List.find?_some h
    simp only [Bool.or_eq_true, beq_iff_eq] at hnames
    exact hnames.imp Eq.symm Eq.symm
  refine ⟨hfound kind, fun h => ?_⟩
  obtain ⟨found, hfind⟩ : ∃ found, a.kind? = some found := by
    refine Option.isSome_iff_exists.mp (List.find?_isSome.mpr ⟨kind, ?_, ?_⟩)
    · cases kind <;> decide
    · simp only [Bool.or_eq_true, beq_iff_eq]
      exact h.imp Eq.symm Eq.symm
  rwa [(hfound found hfind).unique h] at hfind

theorem constraintKind?_eq_none_iff : a.constraintKind? = none ↔ ¬ a.Constrains := by
  have hkind : ∀ kind : AnnotationKind, kind.isConstraint = true ↔ kind ≠ .exemption := by
    intro kind
    cases kind <;> decide
  simp only [constraintKind?, Option.filter_eq_none_iff, kind?_eq_some_iff, hkind, Constrains,
    not_exists, not_and', ne_eq]

instance : DecidablePred Constrains := fun a =>
  decidable_of_iff (¬ a.constraintKind? = none) (by rw [constraintKind?_eq_none_iff, not_not])

theorem States.constrains {k : Keywords} (h : a.States k) : a.Constrains :=
  Decidable.of_not_not fun hnot => h.constraintKind?_ne_none (constraintKind?_eq_none_iff.mpr hnot)

variable {key : FieldKey} {annotations : List Annotation}

theorem exists_collect_some_iff {found : AnnotationKind × Keywords} :
    (∃ result, collect key (some found) annotations = .ok result) ↔
      ∀ a ∈ annotations, ¬ a.Constrains := by
  induction annotations with
  | nil => simp [collect]
  | cons a rest ih =>
    rw [List.forall_mem_cons, ← constraintKind?_eq_none_iff]
    cases hkind : a.constraintKind? with
    | none => simpa [collect, hkind] using ih
    | some kind => simp [collect, hkind]

/-- **Annotations are accepted** if one of them at most states a constraint, and it does. -/
theorem exists_collect_iff : (∃ result, collect key none annotations = .ok result) ↔
    (annotations.Pairwise fun a b => ¬ (a.Constrains ∧ b.Constrains)) ∧
      ∀ a ∈ annotations, a.Constrains → ∃ c, a.constraint = .ok c := by
  induction annotations with
  | nil => simp [collect]
  | cons a rest ih =>
    rw [List.forall_mem_cons, List.pairwise_cons]
    cases hkind : a.constraintKind? with
    | none =>
      have hfree := constraintKind?_eq_none_iff.mp hkind
      simpa [collect, hkind, hfree] using ih
    | some kind =>
      have hconstrains : a.Constrains :=
        Decidable.of_not_not fun h => by simp [constraintKind?_eq_none_iff.mpr h] at hkind
      cases hc : a.constraint with
      | error cause => simp [collect, hkind, hc, hconstrains]
      | ok c =>
        simp only [collect, hkind, hc, exists_collect_some_iff, hconstrains, true_and]
        constructor
        · intro hrest
          refine ⟨⟨hrest, ?_⟩, fun _ => ⟨c, rfl⟩, fun b hb hconstrains => ?_⟩
          · exact List.pairwise_of_forall_mem_list fun b hb d _ hboth => hrest b hb hboth.1
          · exact absurd hconstrains (hrest b hb)
        · exact fun h => h.1.1

/-- The error is about the field. -/
theorem key_of_collect_eq_error {previous : Option (AnnotationKind × Keywords)}
    {e : AnnotationError} (h : collect key previous annotations = .error e) : e.key = key := by
  induction annotations generalizing previous with
  | nil => cases h
  | cons a rest ih =>
    unfold collect at h
    split at h
    · exact ih h
    · cases h
      rfl
    · split at h
      · cases h
        rfl
      · exact ih h

end Annotation

namespace Property

variable {p : Property} {record : String}

/-- One annotation at most states a constraint, and its arguments can be read. -/
structure Sound (p : Property) : Prop where
  single : p.annotations.Pairwise fun a b => ¬ (a.Constrains ∧ b.Constrains)
  extracts : ∀ a ∈ p.annotations, a.Constrains → ∃ c, a.constraint = .ok c

def Constrained (p : Property) : Prop := ∃ a ∈ p.annotations, a.Constrains

/-- The property carries the mark of exemption. -/
def Marked (p : Property) : Prop := ∃ a ∈ p.annotations, a.IsNamed .exemption

instance : DecidablePred Constrained := fun p =>
  inferInstanceAs (Decidable (∃ a ∈ p.annotations, a.Constrains))

instance : DecidablePred Marked := fun p =>
  inferInstanceAs (Decidable (∃ a ∈ p.annotations, a.IsNamed .exemption))

theorem isExempt_iff_marked : p.isExempt = true ↔ p.Marked := by
  simp [isExempt, Marked, Annotation.isExemption, Annotation.kind?_eq_some_iff]

theorem exists_keywords?_iff : (∃ stated, p.keywords? record = .ok stated) ↔ p.Sound := by
  have hcollect : (∃ result, Annotation.collect ⟨record, p.name⟩ none p.annotations = .ok result) ↔
      _ := Annotation.exists_collect_iff
  simp only [keywords?, Outcome.bind_eq_ok_iff, Outcome.pure_eq_ok_iff]
  constructor
  · rintro ⟨_, result, hresult, -⟩
    obtain ⟨hsingle, hextracts⟩ := hcollect.mp ⟨result, hresult⟩
    exact ⟨hsingle, hextracts⟩
  · rintro ⟨hsingle, hextracts⟩
    obtain ⟨result, hresult⟩ := hcollect.mpr ⟨hsingle, hextracts⟩
    exact ⟨_, result, hresult, rfl⟩

theorem key_of_keywords?_eq_error {e : AnnotationError} (h : p.keywords? record = .error e) :
    e.key = p.keyIn record := by
  simp only [keywords?, Outcome.bind_eq_error_iff, Outcome.pure_eq_error_iff, and_false,
    exists_false, or_false] at h
  exact Annotation.key_of_collect_eq_error h

/-- What an accepted field states is what one of its annotations spells out. -/
theorem stated_eq_some_iff {stated : Option Keywords} (h : p.keywords? record = .ok stated)
    {k : Keywords} : stated = some k ↔ ∃ a ∈ p.annotations, a.States k := by
  rcases keywords?_eq_ok h with ⟨rfl, hnone⟩ | ⟨a, ha, c, hc, rfl, honly⟩
  · simp only [reduceCtorEq, false_iff, not_exists, not_and]
    exact fun a ha hk => hk.constraintKind?_ne_none (hnone a ha)
  · have hstates := Annotation.states_of_constraint_eq_ok hc
    constructor
    · intro hk
      cases hk
      exact ⟨a, ha, hstates⟩
    · rintro ⟨b, hb, hk⟩
      obtain rfl := honly b hb hk.constraintKind?_ne_none
      rw [hk.unique hstates]

end Property

/-! ## What a registry holds -/

namespace Registry

variable {g : Graph} {registry registry' : Registry} {fields : List (String × Property)}
  {e : AnnotationError}

/-- The registry holds for every key what the fields with that key declare. -/
structure Registers (registry : Registry) (g : Graph) : Prop where
  keywords : ∀ key k, registry.keywords? key = some k ↔
    ∃ field ∈ g.fields, field.2.keyIn field.1 = key ∧ ∃ a ∈ field.2.annotations, a.States k
  exempt : ∀ key, registry.isExempt key = true ↔
    ∃ field ∈ g.fields, field.2.keyIn field.1 = key ∧ field.2.Marked

theorem Registers.eq_of_ordered (h : registry.Registers g) (h' : registry'.Registers g)
    (hordered : registry.Ordered) (hordered' : registry'.Ordered) : registry = registry' := by
  refine hordered.eq_of_lookups hordered' (fun key => ?_) fun key => ?_
  · exact Option.ext fun k => (h.keywords key k).trans (h'.keywords key k).symm
  · rw [Bool.eq_iff_iff]
    exact (h.exempt key).trans (h'.exempt key).symm

/-- In a graph whose fields have keys of their own, no field gets in the way of another. -/
theorem registers_of_collect (hkeys : (g.fields.map fun field => field.2.keyIn field.1).Nodup)
    (h : collect g = .ok registry) : registry.Registers g := by
  rw [collect_eq_foldlM_fields] at h
  obtain ⟨hheld, hothers⟩ := foldlM_addField_eq_ok hkeys h
  constructor
  · intro key k
    constructor
    · intro hk
      have hkey : key ∈ g.fields.map fun field => field.2.keyIn field.1 := by
        by_contra hnot
        rw [(hothers key hnot).1] at hk
        cases hk
      obtain ⟨field, hfield, rfl⟩ := List.mem_map.mp hkey
      have hstated := (hheld field hfield rfl rfl).1
      exact ⟨field, hfield, rfl, (Property.stated_eq_some_iff hstated).mp hk⟩
    · rintro ⟨field, hfield, rfl, hk⟩
      have hstated := (hheld field hfield rfl rfl).1
      exact (Property.stated_eq_some_iff hstated).mpr hk
  · intro key
    constructor
    · intro hexempt
      have hkey : key ∈ g.fields.map fun field => field.2.keyIn field.1 := by
        by_contra hnot
        rw [(hothers key hnot).2] at hexempt
        cases hexempt
      obtain ⟨field, hfield, rfl⟩ := List.mem_map.mp hkey
      rw [(hheld field hfield rfl rfl).2] at hexempt
      exact ⟨field, hfield, rfl, Property.isExempt_iff_marked.mp hexempt⟩
    · rintro ⟨field, hfield, rfl, hmarked⟩
      rw [(hheld field hfield rfl rfl).2]
      exact Property.isExempt_iff_marked.mpr hmarked

theorem exists_collect_iff_sound :
    (∃ registry, collect g = .ok registry) ↔ ∀ field ∈ g.fields, field.2.Sound := by
  rw [collect_eq_foldlM_fields, exists_foldlM_addField_iff]
  exact forall₂_congr fun field _ => Property.exists_keywords?_iff

/-- **A graph whose fields are sound has one registry**: the ordered one that registers it. -/
theorem collect_eq_ok_iff (hkeys : (g.fields.map fun field => field.2.keyIn field.1).Nodup) :
    collect g = .ok registry ↔
      (∀ field ∈ g.fields, field.2.Sound) ∧ registry.Ordered ∧ registry.Registers g := by
  have hordered : ∀ registry, collect g = .ok registry → registry.Ordered := by
    intro registry h
    rw [collect_eq_foldlM_fields] at h
    exact ordered_empty.foldlM_addField h
  constructor
  · intro h
    exact ⟨exists_collect_iff_sound.mp ⟨registry, h⟩, hordered registry h,
      registers_of_collect hkeys h⟩
  · rintro ⟨hsound, hown, hregisters⟩
    obtain ⟨registry', h'⟩ := exists_collect_iff_sound.mpr hsound
    have hsame := (registers_of_collect hkeys h').eq_of_ordered hregisters (hordered _ h') hown
    rw [h', hsame]

/-! ## Sizes -/

theorem isSome_keywords?_iff {key : FieldKey} :
    (registry.keywords? key).isSome = true ↔ key ∈ registry.constraints.map (·.1) := by
  rw [keywords?, List.lookup_isSome_iff, List.mem_map]
  exact exists_congr fun entry => and_congr_right fun _ => by rw [beq_iff_eq, eq_comm]

/-- Keys without repetition are as many as the fields of a kind, if they are the keys of those. -/
theorem length_eq_countP (hkeys : (g.fields.map fun field => field.2.keyIn field.1).Nodup)
    {keys : List FieldKey} (hnodup : keys.Nodup) {kind : Property → Prop} [DecidablePred kind]
    (hmem : ∀ key, key ∈ keys ↔
      ∃ field ∈ g.fields, field.2.keyIn field.1 = key ∧ kind field.2) :
    keys.length = g.fields.countP fun field => kind field.2 := by
  have hfields : ((g.fields.filter fun field => kind field.2).map fun field =>
      field.2.keyIn field.1).Nodup := hkeys.sublist (List.filter_sublist.map _)
  have hperm := (List.perm_ext_iff_of_nodup hnodup hfields).mpr fun key => by
    rw [hmem]
    simp only [List.mem_map, List.mem_filter, decide_eq_true_eq]
    exact exists_congr fun field => by tauto
  rw [hperm.length_eq, List.length_map, List.countP_eq_length_filter]

/-- What the registry of a graph holds, field by field and on the whole. -/
structure Holds (registry : Registry) (g : Graph) : Prop extends registry.Registers g where
  constrained : ∀ key, (registry.keywords? key).isSome = true ↔
    ∃ field ∈ g.fields, field.2.keyIn field.1 = key ∧ field.2.Constrained
  constraintCount : registry.constraints.length = g.fields.countP fun field => field.2.Constrained
  exemptionCount : registry.exemptions.length = g.fields.countP fun field => field.2.Marked

theorem holds_of_collect (hg : g.WellFormed) (h : collect g = .ok registry) :
    registry.Holds g := by
  obtain ⟨hsound, hordered, hregisters⟩ := (collect_eq_ok_iff hg.nodup_keys).mp h
  have hconstrained : ∀ key, (registry.keywords? key).isSome = true ↔
      ∃ field ∈ g.fields, field.2.keyIn field.1 = key ∧ field.2.Constrained := by
    intro key
    simp only [Option.isSome_iff_exists, hregisters.keywords]
    constructor
    · rintro ⟨k, field, hfield, hkey, a, ha, hk⟩
      exact ⟨field, hfield, hkey, a, ha, hk.constrains⟩
    · rintro ⟨field, hfield, hkey, a, ha, hconstrains⟩
      obtain ⟨c, hc⟩ := (hsound field hfield).extracts a ha hconstrains
      exact ⟨_, field, hfield, hkey, a, ha, Annotation.states_of_constraint_eq_ok hc⟩
  have hconstraints : (registry.constraints.map (·.1)).Nodup := by
    refine List.pairwise_map.mpr (hordered.constraints.imp ?_)
    rintro a b hlt heq
    exact Std.Asymm.asymm _ _ hlt (heq ▸ hlt)
  refine ⟨hregisters, hconstrained, ?_, ?_⟩
  · rw [← List.length_map (·.1)]
    exact length_eq_countP hg.nodup_keys hconstraints fun key =>
      isSome_keywords?_iff.symm.trans (hconstrained key)
  · refine length_eq_countP hg.nodup_keys hordered.exemptions.nodup fun key => ?_
    rw [← hregisters.exempt, isExempt, List.contains_iff_mem]

/-! ## The first field at fault -/

theorem addField_eq_error_iff {field : String × Property} :
    registry.addField field = .error e ↔ field.2.keywords? field.1 = .error e := by
  simp only [addField, addProperty, Outcome.bind_eq_error_iff, Outcome.pure_eq_error_iff,
    and_false, exists_false, or_false]

theorem foldlM_addField_eq_error (h : fields.foldlM addField registry = .error e) :
    ∃ before field after, fields = before ++ field :: after ∧ (∀ other ∈ before, other.2.Sound) ∧
      field.2.keywords? field.1 = .error e := by
  induction fields generalizing registry with
  | nil => cases h
  | cons field rest ih =>
    rw [List.foldlM_cons, Outcome.bind_eq_error_iff] at h
    rcases h with hfield | ⟨middle, hfield, hrest⟩
    · exact ⟨[], field, rest, rfl, by simp, addField_eq_error_iff.mp hfield⟩
    · obtain ⟨before, found, after, rfl, hbefore, hfound⟩ := ih hrest
      obtain ⟨stated, hstated, -⟩ := addField_eq_ok hfield
      have hsound := Property.exists_keywords?_iff.mp ⟨stated, hstated⟩
      exact ⟨field :: before, found, after, rfl, List.forall_mem_cons.mpr ⟨hsound, hbefore⟩, hfound⟩

theorem collect_eq_error (h : collect g = .error e) :
    ∃ before field after, g.fields = before ++ field :: after ∧
      (∀ other ∈ before, other.2.Sound) ∧ ¬ field.2.Sound ∧ e.key = field.2.keyIn field.1 := by
  rw [collect_eq_foldlM_fields] at h
  obtain ⟨before, field, after, hfields, hbefore, hfield⟩ := foldlM_addField_eq_error h
  refine ⟨before, field, after, hfields, hbefore, fun hsound => ?_,
    Property.key_of_keywords?_eq_error hfield⟩
  obtain ⟨stated, hstated⟩ : ∃ stated, field.2.keywords? field.1 = .ok stated :=
    Property.exists_keywords?_iff.mpr hsound
  rw [hstated] at hfield
  cases hfield

end Registry

/-! ## Declarations in another order -/

/-- The property with its annotations in another order. -/
def Property.Reordered (p q : Property) : Prop :=
  ∃ annotations, p.annotations.Perm annotations ∧ q = { p with annotations }

/-- The record with its properties, and the annotations of each, in another order. -/
def Record.Reordered (r s : Record) : Prop :=
  ∃ middle properties, r.properties.Perm middle ∧
    List.Forall₂ Property.Reordered middle properties ∧ s = { r with properties }

/-- The graph with its records, and the properties and annotations of each, in another order. -/
def Graph.Reordered (g g' : Graph) : Prop :=
  ∃ middle records, g.records.Perm middle ∧ List.Forall₂ Record.Reordered middle records ∧
    g' = { g with records }

namespace Property.Reordered

variable {p q : Property}

theorem keyIn_eq (h : p.Reordered q) (record : String) : q.keyIn record = p.keyIn record := by
  obtain ⟨annotations, -, rfl⟩ := h
  rfl

theorem exists_mem_iff (h : p.Reordered q) {P : Annotation → Prop} :
    (∃ a ∈ p.annotations, P a) ↔ ∃ a ∈ q.annotations, P a := by
  obtain ⟨annotations, hperm, rfl⟩ := h
  exact exists_congr fun a => and_congr_left fun _ => hperm.mem_iff

theorem sound (h : p.Reordered q) (hp : p.Sound) : q.Sound := by
  obtain ⟨annotations, hperm, rfl⟩ := h
  constructor
  · exact hp.single.perm hperm fun hab hba => hab hba.symm
  · intro a ha
    exact hp.extracts a (hperm.mem_iff.mpr ha)

end Property.Reordered

namespace Graph.Reordered

variable {g g' : Graph} {registry : Registry}

/-- The fields of both graphs, side by side. -/
theorem fields (h : g.Reordered g') : ∃ middle, g.fields.Perm middle ∧
    List.Forall₂ (fun field field' => field'.1 = field.1 ∧ field.2.Reordered field'.2) middle
      g'.fields := by
  obtain ⟨middle, records, hperm, hrecords, rfl⟩ := h
  have hfields : g.fields.Perm (middle.flatMap fun r => r.properties.map (r.name, ·)) :=
    hperm.flatMap_right _
  suffices hsuffices : ∃ fields,
      (middle.flatMap fun r => r.properties.map (r.name, ·)).Perm fields ∧
      List.Forall₂ (fun field field' => field'.1 = field.1 ∧ field.2.Reordered field'.2) fields
        (records.flatMap fun r => r.properties.map (r.name, ·)) by
    obtain ⟨fields, hmiddle, hforall⟩ := hsuffices
    exact ⟨fields, hfields.trans hmiddle, hforall⟩
  clear hperm hfields
  induction hrecords with
  | nil => exact ⟨[], .refl _, .nil⟩
  | @cons r s rest rest' hr _ ih =>
    obtain ⟨middle, properties, hproperties, hforall, rfl⟩ := hr
    obtain ⟨fields, hrest, hrest'⟩ := ih
    refine ⟨middle.map (r.name, ·) ++ fields, (hproperties.map _).append hrest, ?_⟩
    rw [List.flatMap_cons]
    refine List.rel_append ?_ hrest'
    rw [List.forall₂_map_left_iff, List.forall₂_map_right_iff]
    exact hforall.imp fun p q hpq => ⟨rfl, hpq⟩

theorem perm_keys (h : g.Reordered g') : (g.fields.map fun field => field.2.keyIn field.1).Perm
    (g'.fields.map fun field => field.2.keyIn field.1) := by
  obtain ⟨middle, hperm, hforall⟩ := h.fields
  refine (hperm.map _).trans (.of_eq (Outcome.map_eq_map (hforall.imp ?_)).symm)
  rintro ⟨record, p⟩ ⟨record', q⟩ ⟨rfl, hpq⟩
  exact hpq.keyIn_eq _

/-- Both graphs have the same fields, as far as the order of annotations does not matter. -/
theorem exists_field_iff (h : g.Reordered g') {P : Property → Prop}
    (hP : ∀ p q, p.Reordered q → (P p ↔ P q)) {key : FieldKey} :
    (∃ field ∈ g.fields, field.2.keyIn field.1 = key ∧ P field.2) ↔
      ∃ field ∈ g'.fields, field.2.keyIn field.1 = key ∧ P field.2 := by
  obtain ⟨middle, hperm, hforall⟩ := h.fields
  have hfield : ∀ {field field' : String × Property},
      field'.1 = field.1 ∧ field.2.Reordered field'.2 →
        (field.2.keyIn field.1 = key ∧ P field.2 ↔ field'.2.keyIn field'.1 = key ∧ P field'.2) := by
    rintro ⟨record, p⟩ ⟨record', q⟩ ⟨rfl, hpq⟩
    rw [hpq.keyIn_eq, hP p q hpq]
  constructor
  · rintro ⟨field, hmem, hkey⟩
    obtain ⟨field', hmem', hrel⟩ := Outcome.exists_result hforall (hperm.mem_iff.mp hmem)
    exact ⟨field', hmem', (hfield hrel).mp hkey⟩
  · rintro ⟨field', hmem', hkey⟩
    obtain ⟨field, hmem, hrel⟩ := Outcome.exists_source hforall hmem'
    exact ⟨field, hperm.mem_iff.mpr hmem, (hfield hrel).mpr hkey⟩

/-- **Declarations in another order have the same registry.** -/
theorem collect_eq_ok (h : g.Reordered g') (hg : g.WellFormed)
    (hcollect : Registry.collect g = .ok registry) : Registry.collect g' = .ok registry := by
  obtain ⟨hsound, hordered, hregisters⟩ := (Registry.collect_eq_ok_iff hg.nodup_keys).mp hcollect
  refine (Registry.collect_eq_ok_iff (h.perm_keys.nodup_iff.mp hg.nodup_keys)).mpr
    ⟨?_, hordered, ?_, ?_⟩
  · obtain ⟨middle, hperm, hforall⟩ := h.fields
    intro field' hfield'
    obtain ⟨field, hfield, -, hrel⟩ := Outcome.exists_source hforall hfield'
    exact hrel.sound (hsound field (hperm.mem_iff.mpr hfield))
  · intro key k
    rw [hregisters.keywords]
    exact h.exists_field_iff (P := fun p => ∃ a ∈ p.annotations, a.States k)
      fun p q hpq => hpq.exists_mem_iff
  · intro key
    rw [hregisters.exempt]
    exact h.exists_field_iff (P := Property.Marked) fun p q hpq => hpq.exists_mem_iff

end Graph.Reordered

namespace Registry

/-- **The registry holds exactly what the fields declare.** A well-formed graph has a registry if
and only if every field is sound. It holds under the key of a field what the annotations of that
field spell out, it marks the fields that carry the mark of exemption, it has no other entries, and
it is the same for any order of the declarations. Where there is no registry, the error is about
the first field that is not sound. -/
theorem collect_decides {g : Graph} (hg : g.check = .ok ()) :
    ((∃ registry, collect g = .ok registry) ↔ ∀ field ∈ g.fields, field.2.Sound) ∧
    (∀ registry, collect g = .ok registry → registry.Holds g ∧
      ∀ g', g.Reordered g' → collect g' = .ok registry) ∧
    ∀ e, collect g = .error e → ∃ before field after, g.fields = before ++ field :: after ∧
      (∀ other ∈ before, other.2.Sound) ∧ ¬ field.2.Sound ∧ e.key = field.2.keyIn field.1 := by
  have hwf := Graph.check_eq_ok_iff.mp hg
  refine ⟨exists_collect_iff_sound, fun registry h => ⟨holds_of_collect hwf h, ?_⟩,
    fun e => collect_eq_error⟩
  exact fun g' hg' => hg'.collect_eq_ok hwf h

end Registry

/-! ### A ferry line -/

def pier : Record where
  name := "Pier"
  root := none
  properties := [⟨"depth", .primitive .double, false, [⟨"NumericBounds", [("min", .ofNat 2)]⟩]⟩]

/-- Kinds are named in full and in short, and one annotation is of no known kind. -/
def ferry : Record where
  name := "Ferry"
  root := none
  properties := [
    ⟨"sign", .primitive .string, false,
      [⟨"Indexed", []⟩, ⟨"Regex", [("pattern", .string "^[A-Z]+$")]⟩]⟩,
    ⟨"cargo", .primitive .int, true, [⟨"NoDef", []⟩, ⟨"NumLimit", []⟩]⟩,
    ⟨"remarks", .primitive .string, true, [⟨"NoDefaultConstraint", []⟩]⟩]

def ferryLine : Graph where
  records := [ferry, pier]
  enums := []
  pending := []

/-- The same declarations, the other way round throughout. -/
def ferryLineReversed : Graph where
  records := [pier, {
    name := "Ferry"
    root := none
    properties := [
      ⟨"remarks", .primitive .string, true, [⟨"NoDefaultConstraint", []⟩]⟩,
      ⟨"cargo", .primitive .int, true, [⟨"NumLimit", []⟩, ⟨"NoDef", []⟩]⟩,
      ⟨"sign", .primitive .string, false,
        [⟨"Regex", [("pattern", .string "^[A-Z]+$")]⟩, ⟨"Indexed", []⟩]⟩] }]
  enums := []
  pending := []

/-- A bridge states two patterns for one field. -/
def bridge : Record where
  name := "Bridge"
  root := none
  properties := [⟨"name", .primitive .string, false,
    [⟨"Pattern", [("pattern", .string "^a")]⟩, ⟨"Regex", [("pattern", .string "^a")]⟩]⟩]

def bridgedLine : Graph := { ferryLine with records := [ferry, bridge, pier] }

theorem reordered_ferryLine : ferryLine.Reordered ferryLineReversed := by
  have hreverse : ∀ p : Property,
      p.Reordered { p with annotations := p.annotations.reverse } :=
    fun p => ⟨_, (List.reverse_perm _).symm, rfl⟩
  refine ⟨[pier, ferry], _, .swap .., .cons ?_ (.cons ?_ .nil), rfl⟩
  · exact ⟨_, _, .refl _, .cons (hreverse _) .nil, rfl⟩
  · exact ⟨_, _, (List.reverse_perm _).symm,
      .cons (hreverse _) (.cons (hreverse _) (.cons (hreverse _) .nil)), rfl⟩

theorem collect_decides_ferryLine :
    (ferryLine.check = .ok () ∧ ∃ registry, Registry.collect ferryLine = .ok registry ∧
      registry.constraints.length = 3 ∧ registry.exemptions.length = 2 ∧
      Registry.collect ferryLineReversed = .ok registry) ∧
    bridgedLine.check = .ok () ∧ ∃ e, Registry.collect bridgedLine = .error e ∧
      ∃ before field after, bridgedLine.fields = before ++ field :: after ∧
        (∀ other ∈ before, other.2.Sound) ∧ ¬ field.2.Sound ∧ e.key = field.2.keyIn field.1 := by
  have hcheck : ferryLine.check = .ok () := by decide
  have hbridged : bridgedLine.check = .ok () := by decide
  obtain ⟨registry, hcollect⟩ : ∃ registry, Registry.collect ferryLine = .ok registry := ⟨_, rfl⟩
  obtain ⟨e, herror⟩ : ∃ e, Registry.collect bridgedLine = .error e := ⟨_, rfl⟩
  obtain ⟨hholds, hreordered⟩ := (Registry.collect_decides hcheck).2.1 registry hcollect
  refine ⟨⟨hcheck, registry, hcollect, ?_, ?_, hreordered _ reordered_ferryLine⟩, hbridged, e,
    herror, (Registry.collect_decides hbridged).2.2 e herror⟩
  · rw [hholds.constraintCount]
    decide
  · rw [hholds.exemptionCount]
    decide

end CollectionSchema
