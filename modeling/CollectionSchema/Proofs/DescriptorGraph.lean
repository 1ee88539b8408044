import CollectionSchema.Proofs.DescriptorShape
import CollectionSchema.Proofs.Outcome

/-!
# What the check makes of a descriptor

The check reads the types of all properties in two nested loops and counts the places as it goes.
Here the places of a descriptor are listed first (`Descriptor.places`); the errors are then those of
one place after another, and a place has at most one. The same holds of the pending names and the
warnings. What the check reports can so be said without the loops (`OneForEach`): which places are
at fault, in which order, and what is said about each.

* `Descriptor.complains_typeErrors`, `Descriptor.warns_warnings`: what is reported.
* `Descriptor.declares_graph`: the graph of a descriptor all of whose types can be read.
* `Descriptor.validate_spec`: the check of a value that has the shape of descriptors.
-/

namespace CollectionSchema

/-! ## One issue for each fault -/

/-- The issues are those of the places at fault, one for each, in the order of the places. -/
def OneForEach {α : Type} (fault : α → Prop) (before : α → α → Prop)
    (describes : α → Issue → Prop) (issues : List Issue) : Prop :=
  ∃ places, (∀ a, a ∈ places ↔ fault a) ∧ places.Pairwise before ∧
    List.Forall₂ describes places issues

section

variable {α : Type} {before : α → α → Prop} {f : α → List Issue} {xs : List α}

theorem oneForEach_flatMap (hbefore : xs.Pairwise before)
    (hf : ∀ x, f x = [] ∨ ∃ issue, f x = [issue]) :
    OneForEach (fun x => x ∈ xs ∧ f x ≠ []) before (fun x issue => f x = [issue])
      (xs.flatMap f) := by
  refine ⟨xs.filter fun x => !(f x).isEmpty, fun x => by simp, hbefore.filter _, ?_⟩
  clear hbefore
  induction xs with
  | nil => exact .nil
  | cons x rest ih =>
    rw [List.flatMap_cons]
    rcases hf x with hnone | ⟨issue, hone⟩
    · rw [hnone, List.nil_append, List.filter_cons_of_neg (by simp [hnone])]
      exact ih
    · rw [hone, List.singleton_append, List.filter_cons_of_pos (by simp [hone])]
      exact .cons hone ih

theorem OneForEach.imp {fault fault' : α → Prop} {describes describes' : α → Issue → Prop}
    {issues : List Issue} (h : OneForEach fault before describes issues)
    (hfault : ∀ a, fault a ↔ fault' a) (hdescribes : ∀ a issue, describes a issue →
      describes' a issue) : OneForEach fault' before describes' issues := by
  obtain ⟨places, hmem, hbefore, hissues⟩ := h
  exact ⟨places, fun a => (hmem a).trans (hfault a), hbefore, hissues.imp hdescribes⟩

theorem pairwise_zipIdx {β : Type} (xs : List β) (k : Nat) :
    (xs.zipIdx k).Pairwise (·.2 < ·.2) := by
  have hpositions : ((xs.zipIdx k).map (·.2)).Pairwise (· < ·) := by
    rw [List.zipIdx_map_snd]
    exact List.pairwise_lt_range'
  exact List.pairwise_map.mp hpositions

end

/-! ## The properties of a descriptor -/

/-- Property `j` of record `i`. -/
structure PropertyPlace where
  i : Nat
  j : Nat
  record : RecordEntry
  property : PropertyEntry

/-- Document order. -/
def PropertyPlace.Before (a b : PropertyPlace) : Prop := a.i < b.i ∨ a.i = b.i ∧ a.j < b.j

namespace Descriptor

variable {d : Descriptor} {enums : List String}

/-- The descriptor has the property at its place. -/
structure HasProperty (d : Descriptor) (place : PropertyPlace) : Prop where
  record : d.records[place.i]? = some place.record
  property : place.record.properties[place.j]? = some place.property

/-- All properties, in document order. -/
def places (d : Descriptor) : List PropertyPlace :=
  d.records.zipIdx.flatMap fun r => r.1.properties.zipIdx.map fun p => ⟨r.2, p.2, r.1, p.1⟩

theorem mem_places_iff {place : PropertyPlace} : place ∈ d.places ↔ d.HasProperty place := by
  simp only [places, List.mem_flatMap, List.mem_map, List.mem_zipIdx_iff_getElem?]
  constructor
  · rintro ⟨r, hr, p, hp, rfl⟩
    exact ⟨hr, hp⟩
  · rintro ⟨hr, hp⟩
    exact ⟨(place.record, place.i), hr, (place.property, place.j), hp, rfl⟩

theorem pairwise_places (d : Descriptor) : d.places.Pairwise PropertyPlace.Before := by
  rw [places, List.pairwise_flatMap]
  constructor
  · intro r _
    refine List.pairwise_map.mpr ((pairwise_zipIdx _ _).imp ?_)
    exact fun hlt => .inr ⟨rfl, hlt⟩
  · refine (pairwise_zipIdx _ _).imp ?_
    intro r s hlt a ha b hb
    obtain ⟨p, -, rfl⟩ := List.mem_map.mp ha
    obtain ⟨q, -, rfl⟩ := List.mem_map.mp hb
    exact .inl hlt

/-! ### Types that cannot be read -/

/-- The issues with the type of one property. -/
def typeIssues (enums : List String) (place : PropertyPlace) : List Issue :=
  match TypeRef.parse enums place.property.typeName with
  | .ok _ => []
  | .error cause => [typeError place.i place.j place.record.name place.property.name cause]

theorem typeIssues_eq_nil_iff {place : PropertyPlace} : typeIssues enums place = [] ↔
    ∃ type, TypeRef.parse enums place.property.typeName = .ok type := by
  unfold typeIssues
  cases TypeRef.parse enums place.property.typeName <;> simp

theorem typeIssues_eq_singleton_iff {place : PropertyPlace} {issue : Issue} :
    typeIssues enums place = [issue] ↔
      ∃ cause, TypeRef.parse enums place.property.typeName = .error cause ∧
        typeError place.i place.j place.record.name place.property.name cause = issue := by
  unfold typeIssues
  cases TypeRef.parse enums place.property.typeName <;> simp

theorem propertyErrors_eq (enums : List String) (i j : Nat) (r : RecordEntry)
    (properties : List PropertyEntry) : propertyErrors enums i r.name j properties =
      (properties.zipIdx j).flatMap fun p => typeIssues enums ⟨i, p.2, r, p.1⟩ := by
  induction properties generalizing j with
  | nil => rfl
  | cons p rest ih =>
    rw [propertyErrors, ih, List.zipIdx_cons, List.flatMap_cons]
    rfl

theorem recordErrors_eq (enums : List String) (i : Nat) (records : List RecordEntry) :
    recordErrors enums i records = (records.zipIdx i).flatMap fun r =>
      r.1.properties.zipIdx.flatMap fun p => typeIssues enums ⟨r.2, p.2, r.1, p.1⟩ := by
  induction records generalizing i with
  | nil => rfl
  | cons r rest ih =>
    rw [recordErrors, ih, List.zipIdx_cons, List.flatMap_cons, propertyErrors_eq]

theorem typeErrors_eq (d : Descriptor) :
    d.typeErrors = d.places.flatMap (typeIssues d.enumNames) := by
  rw [typeErrors, recordErrors_eq, places, List.flatMap_assoc]
  simp only [List.flatMap_map]

theorem typePointer_eq (i j : Nat) : typePointer i j =
    "/records/" ++ toString i ++ "/properties/" ++ toString j ++ "/type" := by
  apply String.toList_injective
  simp [typePointer, Violation.pointer, String.join, natText, Nat.repr]

/-- The issue says why the type at a place cannot be read. -/
structure TypeErrorAt (enums : List String) (place : PropertyPlace) (issue : Issue) : Prop where
  severity : issue.severity = .error
  code : issue.kind.code = "invalid_type_name"
  path : issue.path =
    "/records/" ++ toString place.i ++ "/properties/" ++ toString place.j ++ "/type"
  message : ∃ cause, TypeRef.parse enums place.property.typeName = .error cause ∧
    issue.message = place.record.name ++ "#" ++ place.property.name ++ ": " ++ cause.message
  hint : issue.hint = some "use a primitive name, List<T>, an enum or a record name"

/-- The errors are those of the properties whose types cannot be read, in document order. -/
def Complains (d : Descriptor) (errors : List Issue) : Prop :=
  OneForEach
    (fun place => d.HasProperty place ∧
      ¬ ∃ type, TypeRef.parse d.enumNames place.property.typeName = .ok type)
    PropertyPlace.Before (TypeErrorAt d.enumNames) errors

theorem typeErrorAt_of_typeIssues {place : PropertyPlace} {issue : Issue}
    (h : typeIssues enums place = [issue]) : TypeErrorAt enums place issue := by
  obtain ⟨cause, hcause, rfl⟩ := typeIssues_eq_singleton_iff.mp h
  exact ⟨rfl, rfl, typePointer_eq _ _, ⟨cause, hcause, rfl⟩, rfl⟩

/-- The errors that the check collects are what there is to complain about. -/
theorem complains_typeErrors (d : Descriptor) : d.Complains d.typeErrors := by
  have hone : ∀ place, typeIssues d.enumNames place = [] ∨
      ∃ issue, typeIssues d.enumNames place = [issue] := by
    intro place
    cases hparse : TypeRef.parse d.enumNames place.property.typeName with
    | ok type => exact .inl (typeIssues_eq_nil_iff.mpr ⟨type, hparse⟩)
    | error cause => exact .inr ⟨_, typeIssues_eq_singleton_iff.mpr ⟨cause, hparse, rfl⟩⟩
  rw [typeErrors_eq]
  refine (oneForEach_flatMap d.pairwise_places hone).imp ?_ fun _ _ => typeErrorAt_of_typeIssues
  intro place
  rw [mem_places_iff, ne_eq, typeIssues_eq_nil_iff]

/-- All types can be read. -/
def IsReadable (d : Descriptor) : Prop :=
  ∀ r ∈ d.records, ∀ p ∈ r.properties, ∃ type, TypeRef.parse d.enumNames p.typeName = .ok type

theorem typeErrors_eq_nil_iff : d.typeErrors = [] ↔ d.IsReadable := by
  simp only [typeErrors_eq, List.flatMap_eq_nil_iff, typeIssues_eq_nil_iff, mem_places_iff]
  constructor
  · intro h r hr p hp
    obtain ⟨i, hi⟩ := List.mem_iff_getElem?.mp hr
    obtain ⟨j, hj⟩ := List.mem_iff_getElem?.mp hp
    exact h ⟨i, j, r, p⟩ ⟨hi, hj⟩
  · intro h place hplace
    exact h _ (List.mem_of_getElem? hplace.record) _ (List.mem_of_getElem? hplace.property)

/-! ### Pending names that no record has -/

/-- The issue says that the name at a position is not that of a record. -/
structure WarningAt (entry : String × Nat) (issue : Issue) : Prop where
  severity : issue.severity = .warning
  code : issue.kind.code = "pending_unknown_record"
  path : issue.path = "/pending/" ++ toString entry.2
  message : issue.message = "pending record '" ++ entry.1 ++ "' is not declared"
  hint : issue.hint = some "remove it from pending or declare the record"

/-- The warnings are those of the pending names that no record entry has, in order. -/
def Warns (d : Descriptor) (warnings : List Issue) : Prop :=
  OneForEach
    (fun entry : String × Nat => d.pending[entry.2]? = some entry.1 ∧
      ¬ ∃ r ∈ d.records, r.name = entry.1)
    (·.2 < ·.2) WarningAt warnings

/-- The issues with one pending name. -/
def pendingIssues (declared : List String) (entry : String × Nat) : List Issue :=
  pendingWarnings declared entry.2 [entry.1]

/-- A pending name is declared and has no issue, or it is not and has the one that says so. -/
theorem pendingIssues_cases (declared : List String) (entry : String × Nat) :
    (entry.1 ∈ declared ∧ pendingIssues declared entry = []) ∨
      entry.1 ∉ declared ∧
        ∃ issue, pendingIssues declared entry = [issue] ∧ WarningAt entry issue := by
  rw [pendingIssues, pendingWarnings]
  by_cases hmem : entry.1 ∈ declared
  · rw [if_pos hmem]
    exact .inl ⟨hmem, rfl⟩
  · rw [if_neg hmem]
    exact .inr ⟨hmem, _, rfl, rfl, rfl, rfl, rfl, rfl⟩

theorem pendingIssues_eq_nil_iff {declared : List String} {entry : String × Nat} :
    pendingIssues declared entry = [] ↔ entry.1 ∈ declared := by
  rcases pendingIssues_cases declared entry with ⟨hmem, hnone⟩ | ⟨hnot, issue, hone, -⟩
  · exact iff_of_true hnone hmem
  · rw [hone]
    exact iff_of_false (List.cons_ne_nil _ _) hnot

theorem pendingWarnings_eq (declared : List String) (k : Nat) (names : List String) :
    pendingWarnings declared k names = (names.zipIdx k).flatMap (pendingIssues declared) := by
  induction names generalizing k with
  | nil => rfl
  | cons name rest ih =>
    rw [pendingWarnings, ih, List.zipIdx_cons, List.flatMap_cons, pendingIssues, pendingWarnings,
      pendingWarnings, List.append_nil]

theorem warningAt_of_pendingIssues {declared : List String} {entry : String × Nat} {issue : Issue}
    (h : pendingIssues declared entry = [issue]) : WarningAt entry issue := by
  rcases pendingIssues_cases declared entry with ⟨-, hnone⟩ | ⟨-, found, hone, hwarning⟩
  · rw [hnone] at h
    cases h
  · rw [hone] at h
    exact List.singleton_inj.mp h ▸ hwarning

/-- The warnings that the check collects are what there is to warn about. -/
theorem warns_warnings (d : Descriptor) : d.Warns d.warnings := by
  have hone : ∀ entry, pendingIssues (d.records.map (·.name)) entry = [] ∨
      ∃ issue, pendingIssues (d.records.map (·.name)) entry = [issue] := by
    intro entry
    exact (pendingIssues_cases _ entry).imp (·.2) fun ⟨_, issue, hone, _⟩ => ⟨issue, hone⟩
  rw [warnings, pendingWarnings_eq]
  refine (oneForEach_flatMap (pairwise_zipIdx _ _) hone).imp ?_ fun _ _ => warningAt_of_pendingIssues
  intro entry
  rw [List.mem_zipIdx_iff_getElem?, ne_eq, pendingIssues_eq_nil_iff, List.mem_map]

end Descriptor

/-! ## The graph of a descriptor -/

/-- The property is that of the entry: its type is the one that the entry names. -/
structure PropertyEntry.Declares (enums : List String) (entry : PropertyEntry) (p : Property) :
    Prop where
  name : p.name = entry.name
  type : TypeRef.parse enums entry.typeName = .ok p.type
  nullable : p.nullable = entry.nullable
  annotations : List.Forall₂ (fun written read => read.name = written.name ∧
    read.args = written.args) entry.annotations p.annotations

/-- The record is that of the entry: it has a property for each property entry, in order. -/
structure RecordEntry.Declares (enums : List String) (entry : RecordEntry) (r : Record) : Prop where
  name : r.name = entry.name
  root : Option.Rel (fun written read => read.collection = written.collection) entry.root r.root
  properties : List.Forall₂ (PropertyEntry.Declares enums) entry.properties r.properties

/-- The enumeration is that of the entry. -/
structure EnumEntry.Declares (entry : EnumEntry) (e : Enumeration) : Prop where
  name : e.name = entry.name
  values : e.values = entry.values

/-- The graph is that of the descriptor: it has a declaration for each entry, in order. -/
structure Descriptor.Declares (d : Descriptor) (g : Graph) : Prop where
  records : List.Forall₂ (RecordEntry.Declares d.enumNames) d.records g.records
  enums : List.Forall₂ EnumEntry.Declares d.enums g.enums
  pending : ∀ name, g.isPending name ↔ name ∈ d.pending

namespace Descriptor

variable {d : Descriptor} {enums : List String}

theorem exists_property?_declares {entry : PropertyEntry} {type : TypeRef}
    (h : TypeRef.parse enums entry.typeName = .ok type) :
    ∃ p, property? enums entry = some p ∧ entry.Declares enums p := by
  refine ⟨⟨entry.name, type, entry.nullable, _⟩, by rw [property?, h], rfl, h, rfl, ?_⟩
  exact Outcome.forall₂_map fun _ _ => ⟨rfl, rfl⟩

theorem declares_record {entry : RecordEntry}
    (h : ∀ p ∈ entry.properties, ∃ type, TypeRef.parse enums p.typeName = .ok type) :
    entry.Declares enums (record enums entry) := by
  refine ⟨rfl, ?_, Outcome.forall₂_filterMap fun p hp => ?_⟩
  · rw [record]
    cases entry.root with
    | none => exact .none
    | some root => exact .some rfl
  · obtain ⟨type, htype⟩ := h p hp
    exact exists_property?_declares htype

/-- No declaration is left out if all types can be read. -/
theorem declares_graph (h : d.IsReadable) : d.Declares d.graph where
  records := Outcome.forall₂_map fun r hr => declares_record (h r hr)
  enums := Outcome.forall₂_map fun _ _ => ⟨rfl, rfl⟩
  pending := fun _ => List.contains_iff_mem

/-! ## The check -/

/-- **The check loses nothing.** A value with the shape of descriptors is a descriptor, and it
passes exactly if all types can be read. Its graph then has every declaration and every property;
otherwise each property whose type cannot be read has an error of its own, at its place. Either way
each pending name that no record has is warned about. -/
theorem validate_spec {value : Json} (h : structuralErrors value = []) :
    ∃ d, ofJson? value = some d ∧
      ((∃ valid, validate value = .ok valid) ↔ d.IsReadable) ∧
      (∀ valid, validate value = .ok valid →
        valid.descriptor = d ∧ d.Declares valid.graph ∧ d.Warns valid.warnings) ∧
      ∀ report, validate value = .error report →
        d.Complains report.errors ∧ d.Warns report.warnings := by
  obtain ⟨d, hread⟩ := readBy_shape [] value (structuralErrors_eq_nil_iff.mp h)
  refine ⟨d, hread, ?_⟩
  rw [validate_of_ofJson? h hread]
  by_cases hreadable : d.IsReadable
  · rw [typeErrors_eq_nil_iff.mpr hreadable]
    refine ⟨⟨fun _ => hreadable, fun _ => ⟨_, rfl⟩⟩, ?_, ?_⟩
    · rintro valid ⟨⟩
      exact ⟨rfl, declares_graph hreadable, warns_warnings d⟩
    · rintro report ⟨⟩
  · have hsome : d.typeErrors.isEmpty = false := by
      rw [List.isEmpty_eq_false_iff]
      exact mt typeErrors_eq_nil_iff.mp hreadable
    rw [hsome]
    refine ⟨⟨?_, fun hall => absurd hall hreadable⟩, ?_, ?_⟩
    · rintro ⟨valid, ⟨⟩⟩
    · rintro valid ⟨⟩
    · rintro report ⟨⟩
      exact ⟨complains_typeErrors d, warns_warnings d⟩

/-- A descriptor of one record. The second and the fourth of its types cannot be read, and the
second of the pending names is not declared. -/
def jetty : Descriptor where
  records := [
    ⟨"Jetty", some ⟨some "jetties"⟩, [⟨"length", "Double", false, []⟩,
      ⟨"spans", "List<Span", false, []⟩, ⟨"use", "List<Use>", true, []⟩, ⟨"owner", "", false, []⟩]⟩]
  enums := [⟨"Use", ["fishing", "mooring"]⟩]
  pending := ["Jetty", "Buoy"]

/-- The errors and the warning are at the positions in the descriptor, not in its graph, where the
third property is the second. -/
theorem validate_spec_jetty : structuralErrors jetty.toJson = [] ∧
    ∃ report, validate jetty.toJson = .error report ∧
      jetty.Complains report.errors ∧ jetty.Warns report.warnings ∧
      report.errors.map (·.path) =
        ["/records/0/properties/1/type", "/records/0/properties/3/type"] ∧
      report.warnings.map (·.path) = ["/pending/1"] := by
  have hshape : structuralErrors jetty.toJson = [] := structuralErrors_eq_nil_iff.mpr rfl
  obtain ⟨d, hread, -, -, herror⟩ := validate_spec hshape
  have hjetty : ofJson? jetty.toJson = some jetty := rfl
  obtain rfl : jetty = d := Option.some.inj (hjetty.symm.trans hread)
  have hpaths : jetty.typeErrors.map (·.path) =
      ["/records/0/properties/1/type", "/records/0/properties/3/type"] := by decide +kernel
  have hreport : validate jetty.toJson = .error ⟨jetty.typeErrors, jetty.warnings⟩ := by
    rw [validate_of_ofJson? hshape hjetty, if_neg]
    intro hnone
    rw [List.isEmpty_iff.mp hnone] at hpaths
    cases hpaths
  obtain ⟨hcomplains, hwarns⟩ := herror _ hreport
  exact ⟨hshape, _, hreport, hcomplains, hwarns, hpaths, by decide +kernel⟩

end Descriptor

end CollectionSchema
