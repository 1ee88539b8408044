import CollectionSchema.Descriptor.Check

/-!
# Values with the shape of descriptors

A shape and a reader describe one kind of values twice. A reader reads a shape if it reads
every value that does not violate it; here every reader of an entry reads the shape of that
entry, from the strings up to whole descriptors.

* `Shape.objectViolations_eq_nil_iff`: which objects have no violations.
* `ObjectShape.ReadBy.list`, `ObjectShape.ReadBy.optional`: from a kind of objects to the
  members that hold such objects.
* `Descriptor.exists_ofJson?_of_structuralErrors_eq_nil`: a value without structural errors is
  a descriptor, so the check never fails for the reason that it is not one.
-/

namespace CollectionSchema

variable {α : Type} {read? : Json → Option α}

namespace Shape

/-- Every value that does not violate the shape is read. -/
def ReadBy (shape : Shape) (read? : Json → Option α) : Prop :=
  ∀ path value, violations path value shape = [] → ∃ a, read? value = some a

end Shape

namespace ObjectShape

def ReadBy (kind : ObjectShape) (read? : Json → Option α) : Prop :=
  ∀ path value, Shape.objectViolations path value kind = [] → ∃ a, read? value = some a

end ObjectShape

/-! ## Values that are not objects of a kind -/

namespace Shape

theorem readBy_text : text.ReadBy Json.string? := by
  intro path value h
  cases value with
  | string s => exact ⟨s, rfl⟩
  | _ => cases h

theorem readBy_flag : flag.ReadBy Json.bool? := by
  intro path value h
  cases value with
  | bool b => exact ⟨b, rfl⟩
  | _ => cases h

theorem readBy_map : map.ReadBy Json.object? := by
  intro path value h
  cases value with
  | object members => exact ⟨members, rfl⟩
  | _ => cases h

theorem readBy_optionalText : optionalText.ReadBy (Json.optional? Json.string?) := by
  intro path value h
  cases value with
  | null => exact ⟨none, rfl⟩
  | string s => exact ⟨some s, rfl⟩
  | _ => cases h

theorem exists_mapM_of_itemViolations {check : List String → Json → List Violation}
    (hread : ∀ path value, check path value = [] → ∃ a, read? value = some a)
    {path : List String} {items : List Json} {i : Nat}
    (h : itemViolations check path i items = []) : ∃ as, items.mapM read? = some as := by
  induction items generalizing i with
  | nil => exact ⟨[], rfl⟩
  | cons item rest ih =>
    obtain ⟨hitem, hrest⟩ := List.append_eq_nil_iff.mp h
    obtain ⟨a, ha⟩ := hread _ _ hitem
    obtain ⟨as, has⟩ := ih hrest
    exact ⟨a :: as, by simp [ha, has]⟩

theorem ReadBy.list {item : Shape} (hread : item.ReadBy read?) :
    (list item).ReadBy (Json.list? read?) := by
  intro path value h
  cases value with
  | array items =>
    rw [violations_array] at h
    exact exists_mapM_of_itemViolations hread h
  | _ => cases h

end Shape

/-! ## Members -/

namespace MemberShape

/-- The members `found` of an object have what the shape of one member asks for. -/
def Fits (path : List String) (found : List (String × Json)) : MemberShape → Prop
  | mk name _ required _ shape =>
    match found.lookup name with
    | some value => Shape.violations (path ++ [name]) value shape = []
    | none => required = false

variable {path : List String} {found : List (String × Json)} {name : String}
  {description : Option String} {default : Option Json} {shape : Shape} {required : Bool}

/-- A required member that fits is there and is read. -/
theorem Fits.exists_required? (hread : shape.ReadBy read?)
    (h : (mk name description true default shape).Fits path found) :
    ∃ a, Json.required? found name read? = some a := by
  rw [Fits] at h
  cases hfound : found.lookup name with
  | none =>
    rw [hfound] at h
    cases h
  | some value =>
    rw [hfound] at h
    obtain ⟨a, ha⟩ := hread _ _ h
    exact ⟨a, by rw [Json.required?, hfound, Option.bind_some, ha]⟩

/-- A member that fits is read, or it is absent and its default stands for it. -/
theorem Fits.exists_defaulted? (hread : shape.ReadBy read?)
    (h : (mk name description required default shape).Fits path found) (a : α) :
    ∃ b, Json.defaulted? found name a read? = some b := by
  rw [Fits] at h
  rw [Json.defaulted?]
  cases hfound : found.lookup name with
  | none => exact ⟨a, rfl⟩
  | some value =>
    rw [hfound] at h
    exact hread _ _ h

end MemberShape

/-! ## Objects of a kind -/

namespace Shape

variable {path : List String} {found : List (String × Json)}

theorem memberViolations_eq_nil_iff {members : List MemberShape} :
    memberViolations path found members = [] ↔ ∀ member ∈ members, member.Fits path found := by
  induction members with
  | nil => exact iff_of_true rfl (List.forall_mem_nil _)
  | cons member rest ih =>
    obtain ⟨name, description, required, default, shape⟩ := member
    rw [memberViolations_cons, List.append_eq_nil_iff, ih, List.forall_mem_cons]
    refine and_congr_left fun _ => ?_
    rw [MemberShape.Fits]
    cases found.lookup name with
    | none => cases required <;> simp
    | some value => rfl

/-- An object has no violations if all members that its kind lists fit and it has no others. -/
theorem objectViolations_eq_nil_iff {value : Json} {kind : ObjectShape} :
    objectViolations path value kind = [] ↔ ∃ found, value = .object found ∧
      (∀ member ∈ kind.members, member.Fits path found) ∧
      ∀ entry ∈ found, entry.1 ∈ kind.members.map (·.name) := by
  obtain ⟨name, description, members⟩ := kind
  cases value with
  | object found =>
    simp only [objectViolations, List.append_eq_nil_iff, memberViolations_eq_nil_iff,
      ObjectShape.members_mk, Json.object.injEq, exists_eq_left']
    refine and_congr_right fun _ => ?_
    simp [List.filter_eq_nil_iff]
  | _ => simp [objectViolations]

end Shape

namespace ObjectShape

variable {kind : ObjectShape}

theorem ReadBy.object (hread : kind.ReadBy read?) : (Shape.object kind).ReadBy read? := by
  intro path value h
  rw [Shape.violations_object] at h
  exact hread path value h

theorem ReadBy.list (hread : kind.ReadBy read?) :
    (Shape.list (.object kind)).ReadBy (Json.list? read?) :=
  hread.object.list

theorem ReadBy.optional (hread : kind.ReadBy read?) :
    (Shape.optionalObject kind).ReadBy (Json.optional? read?) := by
  intro path value h
  have hcases : value = .null ∨ ∃ a, read? value = some a := by
    rw [Shape.violations_optionalObject] at h
    cases value with
    | null => exact .inl rfl
    | _ =>
      right
      apply hread path
      simpa [Json.isNull] using h
  rcases hcases with rfl | ⟨a, ha⟩
  · exact ⟨none, rfl⟩
  · cases value with
    | null => exact ⟨none, rfl⟩
    | _ => exact ⟨some a, by simp [Json.optional?, ha]⟩

/-- The reader of an object that has only the members of its kind, and reads them if they
fit, reads the kind. -/
theorem readBy_of_fits {names : List String} {ofMembers? : List (String × Json) → Option α}
    (hnames : kind.members.map (·.name) = names)
    (hread : ∀ path found, (∀ member ∈ kind.members, member.Fits path found) →
      ∃ a, ofMembers? found = some a) :
    kind.ReadBy fun value => value.membersWithin? names >>= ofMembers? := by
  subst hnames
  intro path value h
  obtain ⟨found, rfl, hfits, hwithin⟩ := Shape.objectViolations_eq_nil_iff.mp h
  obtain ⟨a, ha⟩ := hread path found hfits
  have hall : (found.all fun entry => (kind.members.map (·.name)).contains entry.1) = true := by
    simpa [List.all_eq_true] using hwithin
  have hmembers : (Json.object found).membersWithin? (kind.members.map (·.name)) = some found :=
    if_pos hall
  exact ⟨a, by simp only [hmembers, Option.bind_eq_bind, Option.bind_some, ha]⟩

end ObjectShape

/-! ## Entries -/

theorem AnnotationEntry.readBy_shape : shape.ReadBy ofJson? := by
  refine ObjectShape.readBy_of_fits rfl ?_
  intro path found hfits
  simp only [shape, ObjectShape.members_mk, List.forall_mem_cons] at hfits
  obtain ⟨hname, hargs, -⟩ := hfits
  obtain ⟨name, hname⟩ := hname.exists_required? Shape.readBy_text
  obtain ⟨args, hargs⟩ := hargs.exists_defaulted? Shape.readBy_map []
  refine ⟨⟨name, args⟩, ?_⟩
  simp [hname, hargs]

theorem PropertyEntry.readBy_shape : shape.ReadBy ofJson? := by
  refine ObjectShape.readBy_of_fits rfl ?_
  intro path found hfits
  simp only [shape, ObjectShape.members_mk, List.forall_mem_cons] at hfits
  obtain ⟨hname, htype, hnullable, hannotations, -⟩ := hfits
  obtain ⟨name, hname⟩ := hname.exists_required? Shape.readBy_text
  obtain ⟨typeName, htype⟩ := htype.exists_required? Shape.readBy_text
  obtain ⟨nullable, hnullable⟩ := hnullable.exists_defaulted? Shape.readBy_flag false
  obtain ⟨annotations, hannotations⟩ :=
    hannotations.exists_defaulted? AnnotationEntry.readBy_shape.list []
  refine ⟨⟨name, typeName, nullable, annotations⟩, ?_⟩
  simp [hname, htype, hnullable, hannotations]

theorem RootEntry.readBy_shape : shape.ReadBy ofJson? := by
  refine ObjectShape.readBy_of_fits rfl ?_
  intro path found hfits
  simp only [shape, ObjectShape.members_mk, List.forall_mem_cons] at hfits
  obtain ⟨hcollection, -⟩ := hfits
  obtain ⟨collection, hcollection⟩ :=
    hcollection.exists_defaulted? Shape.readBy_optionalText none
  refine ⟨⟨collection⟩, ?_⟩
  simp [hcollection]

theorem RecordEntry.readBy_shape : shape.ReadBy ofJson? := by
  refine ObjectShape.readBy_of_fits rfl ?_
  intro path found hfits
  simp only [shape, ObjectShape.members_mk, List.forall_mem_cons] at hfits
  obtain ⟨hname, hroot, hproperties, -⟩ := hfits
  obtain ⟨name, hname⟩ := hname.exists_required? Shape.readBy_text
  obtain ⟨root, hroot⟩ := hroot.exists_defaulted? RootEntry.readBy_shape.optional none
  obtain ⟨properties, hproperties⟩ :=
    hproperties.exists_defaulted? PropertyEntry.readBy_shape.list []
  refine ⟨⟨name, root, properties⟩, ?_⟩
  simp [hname, hroot, hproperties]

theorem EnumEntry.readBy_shape : shape.ReadBy ofJson? := by
  refine ObjectShape.readBy_of_fits rfl ?_
  intro path found hfits
  simp only [shape, ObjectShape.members_mk, List.forall_mem_cons] at hfits
  obtain ⟨hname, hvalues, -⟩ := hfits
  obtain ⟨name, hname⟩ := hname.exists_required? Shape.readBy_text
  obtain ⟨values, hvalues⟩ := hvalues.exists_required? Shape.readBy_text.list
  refine ⟨⟨name, values⟩, ?_⟩
  simp [hname, hvalues]

namespace Descriptor

theorem readBy_shape : shape.ReadBy ofJson? := by
  refine ObjectShape.readBy_of_fits rfl ?_
  intro path found hfits
  simp only [shape, ObjectShape.members_mk, List.forall_mem_cons] at hfits
  obtain ⟨hrecords, henums, hpending, -⟩ := hfits
  obtain ⟨records, hrecords⟩ := hrecords.exists_defaulted? RecordEntry.readBy_shape.list []
  obtain ⟨enums, henums⟩ := henums.exists_defaulted? EnumEntry.readBy_shape.list []
  obtain ⟨pending, hpending⟩ := hpending.exists_defaulted? Shape.readBy_text.list []
  refine ⟨⟨records, enums, pending⟩, ?_⟩
  simp [hrecords, henums, hpending]

theorem structuralErrors_eq_nil_iff {value : Json} :
    structuralErrors value = [] ↔ Shape.objectViolations [] value shape = [] := by
  have hsort := List.mergeSort_perm (Shape.objectViolations [] value shape) Violation.le
  rw [structuralErrors, violations, List.map_eq_nil_iff]
  exact ⟨fun h => List.nil_perm.mp (h ▸ hsort), fun h => List.perm_nil.mp (h ▸ hsort)⟩

/-- The check of a value that has the shape of descriptors and is read. -/
theorem validate_of_ofJson? {value : Json} {d : Descriptor} (hshape : structuralErrors value = [])
    (hread : ofJson? value = some d) : validate value =
      if d.typeErrors.isEmpty then .ok ⟨d, d.graph, d.warnings⟩
      else .error ⟨d.typeErrors, d.warnings⟩ := by
  simp [validate, hshape, hread]

/-! ## Kinds of issues -/

theorem kind_of_mem_structuralErrors {value : Json} {issue : Issue}
    (h : issue ∈ structuralErrors value) : issue.kind = .schemaViolation := by
  obtain ⟨violation, -, rfl⟩ := List.mem_map.mp h
  rfl

theorem kind_of_mem_propertyErrors {enums : List String} {i j : Nat} {record : String}
    {properties : List PropertyEntry} {issue : Issue}
    (h : issue ∈ propertyErrors enums i record j properties) :
    issue.kind = .invalidTypeName := by
  induction properties generalizing j with
  | nil => cases h
  | cons p rest ih =>
    rcases List.mem_append.mp h with hp | hrest
    · cases hparse : TypeRef.parse enums p.typeName with
      | ok type =>
        rw [hparse] at hp
        cases hp
      | error cause =>
        rw [hparse] at hp
        rw [List.mem_singleton.mp hp]
        rfl
    · exact ih hrest

theorem kind_of_mem_recordErrors {enums : List String} {i : Nat} {records : List RecordEntry}
    {issue : Issue} (h : issue ∈ recordErrors enums i records) :
    issue.kind = .invalidTypeName := by
  induction records generalizing i with
  | nil => cases h
  | cons r rest ih =>
    rcases List.mem_append.mp h with hr | hrest
    · exact kind_of_mem_propertyErrors hr
    · exact ih hrest

theorem kind_of_mem_pendingWarnings {declared : List String} {k : Nat} {pending : List String}
    {issue : Issue} (h : issue ∈ pendingWarnings declared k pending) :
    issue.kind = .pendingUnknownRecord := by
  induction pending generalizing k with
  | nil => cases h
  | cons name rest ih =>
    rcases List.mem_append.mp h with hname | hrest
    · split at hname
      · cases hname
      · rw [List.mem_singleton.mp hname]
    · exact ih hrest

/-! ## The check -/

/-- A value without structural errors is a descriptor. So whatever the check reports is an
error of the shape, a type that cannot be read or a pending name without a record. -/
theorem exists_ofJson?_of_structuralErrors_eq_nil (value : Json) :
    (structuralErrors value = [] → ∃ d, ofJson? value = some d) ∧
      ∀ report, validate value = .error report →
        ∀ issue ∈ report.errors ++ report.warnings, issue.kind ≠ .invalidDescriptor := by
  have hread : structuralErrors value = [] → ∃ d, ofJson? value = some d :=
    fun h => readBy_shape [] value (structuralErrors_eq_nil_iff.mp h)
  refine ⟨hread, ?_⟩
  intro report hreport issue hissue
  unfold validate at hreport
  cases hshape : structuralErrors value with
  | cons first rest =>
    simp only [hshape, List.isEmpty_cons, Bool.not_false, if_true, Except.error.injEq] at hreport
    subst hreport
    rw [List.append_nil, ← hshape] at hissue
    simp [kind_of_mem_structuralErrors hissue]
  | nil =>
    obtain ⟨d, hd⟩ := hread hshape
    simp only [hshape, List.isEmpty_nil, Bool.not_true, Bool.false_eq_true, if_false,
      hd] at hreport
    split at hreport
    · cases hreport
    · cases hreport
      rcases List.mem_append.mp hissue with herror | hwarning
      · simp [kind_of_mem_recordErrors herror]
      · simp [kind_of_mem_pendingWarnings hwarning]

/-- A descriptor with an absent, a null and an empty member. -/
def quay : Json :=
  .object [("records", .array [
    .object [("name", .string "Quay"), ("schema_root", .null),
      ("properties", .array [.object [("name", .string "depth"), ("type", .string "Double"),
        ("annotations", .array [.object [("name", .string "Range"), ("args", .object [])]])]])],
    .object [("name", .string "Berth"),
      ("schema_root", .object [("collection_name", .null)])]]),
    ("pending", .array [.string "Pilot"])]

theorem structuralErrors_quay : structuralErrors quay = [] :=
  structuralErrors_eq_nil_iff.mpr rfl

theorem exists_ofJson?_quay : structuralErrors quay = [] ∧ ∃ d, ofJson? quay = some d :=
  ⟨structuralErrors_quay,
    (exists_ofJson?_of_structuralErrors_eq_nil quay).1 structuralErrors_quay⟩

end Descriptor

end CollectionSchema
