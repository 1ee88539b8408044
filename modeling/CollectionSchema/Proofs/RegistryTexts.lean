import CollectionSchema.Proofs.RegistryContents
import CollectionSchema.Proofs.SortedValues
import CollectionSchema.Run.Inspection

/-!
# The text of a registry

The constraints of a registry are written under the texts of their fields, `record#field`. A name
may hold a `#` itself, so that two fields can have one text: the first record is called like the
second with more behind a `#`, and with that more and another `#` starts the name of the second
field (`FieldKey.Shadows`, `FieldKey.display_eq_iff`).

* `Json.perm_ascendingByKey_iff`: sorting the members of an object keeps all of them exactly if
  their names are different.
* `Registry.constraints_apart_iff`: the text of a registry names every field once, and an inspection
  shows every constraint, exactly if no constrained field shadows another. Names of records without
  a `#` are enough for that.
* `Inspection.constraint_lost`: otherwise an inspection shows a constraint less.
-/

namespace CollectionSchema

namespace FieldKey

variable {k k' : FieldKey}

theorem toList_display (k : FieldKey) :
    k.display.toList = k.record.toList ++ '#' :: k.field.toList := by
  simp [display]

/-- A different field has the same text: behind the second record's name, the name of the first
record goes on as the name of the second field starts. -/
def Shadows (k k' : FieldKey) : Prop :=
  ∃ middle, k.record = k'.record ++ "#" ++ middle ∧ k'.field = middle ++ "#" ++ k.field

theorem Shadows.display_eq (h : k.Shadows k') : k.display = k'.display := by
  obtain ⟨middle, hrecord, hfield⟩ := h
  rw [← String.toList_inj, toList_display, toList_display, hrecord, hfield]
  simp

theorem shadows_of_append {a : List Char} (hrecord : k.record.toList = k'.record.toList ++ a)
    (hfield : '#' :: k'.field.toList = a ++ '#' :: k.field.toList) : k = k' ∨ k.Shadows k' := by
  cases a with
  | nil =>
    have hsame : k.record = k'.record := String.toList_inj.mp (hrecord.trans (List.append_nil _))
    have hsame' : k'.field = k.field := String.toList_inj.mp (List.cons.inj hfield).2
    cases k
    cases k'
    cases hsame
    cases hsame'
    exact .inl rfl
  | cons c middle =>
    rw [List.cons_append, List.cons.injEq] at hfield
    obtain ⟨rfl, hfield⟩ := hfield
    refine .inr ⟨String.ofList middle, ?_, ?_⟩
    · simp [← String.toList_inj, hrecord]
    · simp [← String.toList_inj, hfield]

/-- **Two keys have the same text exactly if they are equal or one shadows the other.** -/
theorem display_eq_iff : k.display = k'.display ↔ k = k' ∨ k.Shadows k' ∨ k'.Shadows k := by
  constructor
  · intro h
    have hlist : k.record.toList ++ '#' :: k.field.toList =
        k'.record.toList ++ '#' :: k'.field.toList := by
      rw [← toList_display, ← toList_display, h]
    rcases List.append_eq_append_iff.mp hlist with ⟨a, hrecord, hfield⟩ | ⟨a, hrecord, hfield⟩
    · rcases shadows_of_append hrecord hfield with heq | hshadows
      · exact .inl heq.symm
      · exact .inr (.inr hshadows)
    · exact (shadows_of_append hrecord hfield).imp_right .inl
  · rintro (rfl | h | h)
    · rfl
    · exact h.display_eq
    · exact h.display_eq.symm

theorem Shadows.mem_record (h : k.Shadows k') : '#' ∈ k.record.toList := by
  obtain ⟨middle, hrecord, -⟩ := h
  simp [hrecord]

/-- The key with the longer record shadows the one that has its text. -/
theorem shadows_iff : k.Shadows k' ↔
    k.display = k'.display ∧ k'.record.length < k.record.length := by
  constructor
  · intro h
    refine ⟨h.display_eq, ?_⟩
    obtain ⟨middle, hrecord, -⟩ := h
    have hseparator : "#".length = 1 := rfl
    rw [hrecord, String.length_append, String.length_append]
    omega
  · rintro ⟨hdisplay, hlength⟩
    rcases display_eq_iff.mp hdisplay with rfl | hshadows | ⟨middle, hrecord, -⟩
    · omega
    · exact hshadows
    · rw [hrecord, String.length_append, String.length_append] at hlength
      omega

theorem not_shadows_self (k : FieldKey) : ¬ k.Shadows k := fun h =>
  Nat.lt_irrefl _ (shadows_iff.mp h).2

instance (k k' : FieldKey) : Decidable (k.Shadows k') := decidable_of_iff _ shadows_iff.symm

/-- Different keys have different texts exactly if none of them shadows another. -/
theorem nodup_display_iff {keys : List FieldKey} (hkeys : keys.Nodup) :
    (keys.map display).Nodup ↔ ∀ k ∈ keys, ∀ k' ∈ keys, ¬ k.Shadows k' := by
  rw [List.nodup_map_iff_inj_on hkeys]
  constructor
  · intro hinjective k hk k' hk' hshadows
    obtain rfl := hinjective k hk k' hk' hshadows.display_eq
    exact not_shadows_self k hshadows
  · intro hapart k hk k' hk' hdisplay
    rcases display_eq_iff.mp hdisplay with heq | hshadows | hshadows
    · exact heq
    · exact absurd hshadows (hapart k hk k' hk')
    · exact absurd hshadows (hapart k' hk' k hk)

end FieldKey

/-! ## Sorted members -/

namespace Json

/-- Members in the order of their names are all there exactly if their names are different. -/
theorem perm_ascendingByKey_iff {members : List (String × Json)} :
    (ascendingByKey members).Perm members ↔ (members.map (·.1)).Nodup := by
  constructor
  · intro hperm
    refine (hperm.map (·.1)).nodup_iff.mp ?_
    exact List.pairwise_map.mpr ((pairwise_ascendingByKey members).imp String.ne_of_lt)
  · exact perm_ascendingByKey

/-- A member of an object with different names is found in the sorted object. -/
theorem member?_sorted {members : List (String × Json)} (hkeys : (members.map (·.1)).Nodup)
    {name : String} {value : Json} (h : (name, value) ∈ members) :
    (object members).sorted.member? name = some value.sorted := by
  obtain ⟨found, hfound, hperm⟩ := exists_perm_sorted rfl hkeys
  rw [hfound, member?]
  have hmem : (name, value.sorted) ∈ found :=
    hperm.mem_iff.mpr (List.mem_map.mpr ⟨(name, value), h, rfl⟩)
  have hnodup : (found.map (·.1)).Nodup := by
    rw [(hperm.map (·.1)).nodup_iff, List.map_map]
    exact hkeys
  exact lookup_of_mem hnodup hmem

end Json

/-! ## Fields of a graph -/

namespace Graph

variable {g : Graph} {kind : Property → Prop}

/-- No two fields of a kind have the same text. -/
def TextsApart (g : Graph) (kind : Property → Prop) : Prop :=
  ∀ field ∈ g.fields, kind field.2 → ∀ other ∈ g.fields, kind other.2 →
    ¬ (field.2.keyIn field.1).Shadows (other.2.keyIn other.1)

instance (g : Graph) (kind : Property → Prop) [DecidablePred kind] :
    Decidable (g.TextsApart kind) :=
  inferInstanceAs (Decidable (∀ field ∈ g.fields, kind field.2 → ∀ other ∈ g.fields,
    kind other.2 → ¬ (field.2.keyIn field.1).Shadows (other.2.keyIn other.1)))

theorem textsApart_of_records (h : ∀ r ∈ g.records, '#' ∉ r.name.toList) (kind : Property → Prop) :
    g.TextsApart kind := by
  intro field hfield _ other _ _ hshadows
  obtain ⟨r, hr, hp⟩ := List.mem_flatMap.mp hfield
  obtain ⟨p, -, rfl⟩ := List.mem_map.mp hp
  exact h r hr hshadows.mem_record

end Graph

namespace Registry

variable {g : Graph} {registry : Registry}

/-- The constraints as they are written. -/
def constraintMembers (registry : Registry) : List (String × Json) :=
  registry.constraints.map fun entry => (entry.1.display, entry.2.toJson)

/-- The exempt fields as they are written. -/
def exemptionTexts (registry : Registry) : List String := registry.exemptions.map (·.display)

theorem toJson_eq (registry : Registry) : registry.toJson = .object [
    ("constraints", .object registry.constraintMembers),
    ("exemptions", .ofStrings registry.exemptionTexts)] := rfl

theorem names_constraintMembers (registry : Registry) :
    registry.constraintMembers.map (·.1) = (registry.constraints.map (·.1)).map (·.display) := by
  simp [constraintMembers]

theorem Ordered.nodup_constraints (h : registry.Ordered) :
    (registry.constraints.map (·.1)).Nodup := by
  refine List.pairwise_map.mpr (h.constraints.imp ?_)
  rintro a b hlt heq
  exact Std.Asymm.asymm _ _ hlt (heq ▸ hlt)

/-- The keys of the fields of a kind have different texts exactly if those fields do. -/
theorem nodup_texts_iff {keys : List FieldKey} (hkeys : keys.Nodup) {kind : Property → Prop}
    (hmem : ∀ key, key ∈ keys ↔ ∃ field ∈ g.fields, field.2.keyIn field.1 = key ∧ kind field.2) :
    (keys.map (·.display)).Nodup ↔ g.TextsApart kind := by
  rw [FieldKey.nodup_display_iff hkeys]
  constructor
  · intro hapart field hfield hkind other hother hkind'
    exact hapart _ ((hmem _).mpr ⟨field, hfield, rfl, hkind⟩) _
      ((hmem _).mpr ⟨other, hother, rfl, hkind'⟩)
  · intro hapart key hkey key' hkey'
    obtain ⟨field, hfield, rfl, hkind⟩ := (hmem key).mp hkey
    obtain ⟨other, hother, rfl, hkind'⟩ := (hmem key').mp hkey'
    exact hapart field hfield hkind other hother hkind'

end Registry

/-! ## Inspections -/

namespace Inspection

variable {g : Graph} {registry : Registry}

/-- The constraints that an inspection shows. Its members are in the order of their names. -/
def constraints? (report : Json) : Option Json :=
  (report.sorted.member? "registry").bind (·.member? "constraints")

/-- An inspection of a graph has a registry among its members, whose names are different. -/
theorem exists_ofGraph_eq_ok (hg : g.check = .ok ()) (h : Registry.collect g = .ok registry)
    (source : Path) : ∃ members, ofGraph g source = .ok (.object members) ∧
      (members.map (·.1)).Nodup ∧ ("registry", registry.toJson) ∈ members := by
  refine ⟨[("source", .string source.text), ("schema_roots", .array (g.roots.map (rootJson g))),
    ("nesting", g.nestingReport.toJson), ("registry", registry.toJson)], ?_, by simp, by simp⟩
  rw [ofGraph, hg, h]
  rfl

/-- An inspection shows the constraints in the order of their texts, and of several with one text
the last. -/
theorem constraints?_of_collect (hg : g.check = .ok ()) (h : Registry.collect g = .ok registry)
    (source : Path) : ∃ report, ofGraph g source = .ok report ∧ constraints? report =
      some (.object (ascendingByKey
        (registry.constraintMembers.map fun member => (member.1, member.2.sorted)))) := by
  obtain ⟨members, hreport, hnames, hmem⟩ := exists_ofGraph_eq_ok hg h source
  have hconstraints : registry.toJson.sorted.member? "constraints" =
      some (Json.object registry.constraintMembers).sorted := by
    rw [Registry.toJson_eq]
    exact Json.member?_sorted (by simp) (by simp)
  refine ⟨_, hreport, ?_⟩
  rw [constraints?, Json.member?_sorted hnames hmem, Option.bind_some, hconstraints,
    Json.sorted_object]

end Inspection

namespace Registry

/-- **The text of a registry names every field once exactly if no field shadows another.** There is
a member for every constrained field and a text for every exempt one, and an inspection shows all
constraints, if and only if no constrained field has the text of another. That is so if no name
of a record has a `#` in it. -/
theorem constraints_apart_iff {g : Graph} (hg : g.check = .ok ()) {registry : Registry}
    (h : collect g = .ok registry) :
    registry.constraintMembers.length = (g.fields.countP fun field => field.2.Constrained) ∧
    registry.exemptionTexts.length = (g.fields.countP fun field => field.2.Marked) ∧
    ((registry.constraintMembers.map (·.1)).Nodup ↔ g.TextsApart Property.Constrained) ∧
    (registry.exemptionTexts.Nodup ↔ g.TextsApart Property.Marked) ∧
    (∀ source, ∃ report found, Inspection.ofGraph g source = .ok report ∧
      Inspection.constraints? report = some (.object found) ∧
      (found.Perm (registry.constraintMembers.map fun member => (member.1, member.2.sorted)) ↔
        g.TextsApart Property.Constrained)) ∧
    ((∀ r ∈ g.records, '#' ∉ r.name.toList) → ∀ kind, g.TextsApart kind) := by
  have hwf := Graph.check_eq_ok_iff.mp hg
  have hholds := holds_of_collect hwf h
  obtain ⟨-, hordered, -⟩ := (collect_eq_ok_iff hwf.nodup_keys).mp h
  have hconstraints : (registry.constraintMembers.map (·.1)).Nodup ↔
      g.TextsApart Property.Constrained := by
    rw [names_constraintMembers]
    exact nodup_texts_iff hordered.nodup_constraints fun key =>
      isSome_keywords?_iff.symm.trans (hholds.constrained key)
  have hexemptions : registry.exemptionTexts.Nodup ↔ g.TextsApart Property.Marked := by
    refine nodup_texts_iff hordered.exemptions.nodup fun key => ?_
    rw [← hholds.exempt, isExempt, List.contains_iff_mem]
  refine ⟨?_, ?_, hconstraints, hexemptions, fun source => ?_, Graph.textsApart_of_records⟩
  · rw [constraintMembers, List.length_map]
    exact hholds.constraintCount
  · rw [exemptionTexts, List.length_map]
    exact hholds.exemptionCount
  · obtain ⟨report, hreport, hfound⟩ := Inspection.constraints?_of_collect hg h source
    refine ⟨report, _, hreport, hfound, ?_⟩
    rw [Json.perm_ascendingByKey_iff, List.map_map]
    exact hconstraints

end Registry

/-! ### Orders -/

/-- An order has a code for its item. -/
def order : Record where
  name := "Order"
  root := none
  properties := [
    ⟨"item#code", .primitive .string, false, [⟨"Pattern", [("pattern", .string "^[A-Z]+$")]⟩]⟩,
    ⟨"note", .primitive .string, true, [⟨"NoDef", []⟩]⟩]

/-- An item of an order has a code too. -/
def orderItem : Record where
  name := "Order#item"
  root := none
  properties := [⟨"code", .primitive .string, false, [⟨"Len", [("min", .ofNat 3)]⟩]⟩]

/-- An item has a number, and there is no text in common. -/
def orderLine : Record where
  name := "Order#line"
  root := none
  properties := [⟨"number", .primitive .int, false, [⟨"NumLimit", [("min", .ofNat 1)]⟩]⟩]

def orders : Graph := ⟨[order, orderItem], [], []⟩

def orderLines : Graph := ⟨[order, orderLine], [], []⟩

theorem constraints_apart_iff_orderLines :
    orderLines.check = .ok () ∧ ∃ registry, Registry.collect orderLines = .ok registry ∧
      registry.constraintMembers.length = 2 ∧ registry.exemptionTexts.length = 1 ∧
      (registry.constraintMembers.map (·.1)).Nodup ∧ registry.exemptionTexts.Nodup := by
  have hcheck : orderLines.check = .ok () := by decide
  obtain ⟨registry, hcollect⟩ : ∃ registry, Registry.collect orderLines = .ok registry := ⟨_, rfl⟩
  obtain ⟨hconstraints, hexemptions, hnames, hmarks, -⟩ :=
    Registry.constraints_apart_iff hcheck hcollect
  refine ⟨hcheck, registry, hcollect, ?_, ?_, ?_, ?_⟩
  · rw [hconstraints]
    decide
  · rw [hexemptions]
    decide
  · exact hnames.mpr (by decide)
  · exact hmarks.mpr (by decide)

/-- Two fields of the orders have one text, and an inspection shows the constraint of the second of
them only. -/
theorem Inspection.constraint_lost :
    orders.check = .ok () ∧ ∃ registry, Registry.collect orders = .ok registry ∧
      registry.constraintMembers.map (·.1) = ["Order#item#code", "Order#item#code"] ∧
      ∃ report, Inspection.ofGraph orders ⟨"orders.json"⟩ = .ok report ∧
        Inspection.constraints? report =
          some (.object [("Order#item#code", .object [("minLength", .ofNat 3)])]) := by
  have hcheck : orders.check = .ok () := by decide
  obtain ⟨registry, hcollect, hmembers⟩ : ∃ registry, Registry.collect orders = .ok registry ∧
    registry.constraintMembers =
      [("Order#item#code", .object [("pattern", .string "^[A-Z]+$")]),
        ("Order#item#code", .object [("minLength", .ofNat 3)])] := ⟨_, rfl, rfl⟩
  obtain ⟨report, hreport, hfound⟩ :=
    Inspection.constraints?_of_collect hcheck hcollect ⟨"orders.json"⟩
  refine ⟨hcheck, registry, hcollect, by rw [hmembers]; rfl, report, hreport, ?_⟩
  rw [hfound, hmembers]
  rfl

end CollectionSchema
