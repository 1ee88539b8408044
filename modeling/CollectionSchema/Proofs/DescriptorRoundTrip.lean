import CollectionSchema.Proofs.DescriptorShape
import CollectionSchema.Proofs.SortedValues

/-!
# Descriptors written and read

A value gives an entry if it has the shape of that kind of entries and is read as the entry
(`Shape.Gives`). What an entry is written as gives the entry, whatever the order of the members and
however the entries inside are written, as long as those are given as well. Two ways of writing
matter: the order of the declaration (`toJson`), and the order of the names (`toJson.sorted`), in
which values are held.

* `AnnotationEntry.gives_of_perm` up to `Descriptor.gives_of_perm`: one kind of entries each.
* `Descriptor.isSorted_of_ofJson?`: the arguments in a value in order are in order.
* `Descriptor.validate_written`: a descriptor survives being written and read.
-/

namespace CollectionSchema

/-! ## Values that give entries -/

variable {α : Type} {read? : Json → Option α}

/-- The value does not violate the shape and is read as `a`. -/
structure Shape.Gives (shape : Shape) (read? : Json → Option α) (value : Json) (a : α) : Prop where
  fits : ∀ path, shape.violations path value = []
  read : read? value = some a

namespace Shape

theorem gives_text (s : String) : text.Gives Json.string? (.string s) s := ⟨fun _ => rfl, rfl⟩

theorem gives_flag (b : Bool) : flag.Gives Json.bool? (.bool b) b := ⟨fun _ => rfl, rfl⟩

theorem gives_map (members : List (String × Json)) :
    map.Gives Json.object? (.object members) members := ⟨fun _ => rfl, rfl⟩

theorem gives_optionalText (s : String) :
    optionalText.Gives (Json.optional? Json.string?) (.string s) (some s) := ⟨fun _ => rfl, rfl⟩

theorem gives_list {item : Shape} {xs : List α} {write : α → Json}
    (h : ∀ x ∈ xs, item.Gives read? (write x) x) :
    (list item).Gives (Json.list? read?) (.array (xs.map write)) xs := by
  constructor
  · intro path
    rw [violations_array]
    generalize 0 = i
    induction xs generalizing i with
    | nil => rfl
    | cons x xs ih =>
      rw [List.map_cons, itemViolations, (h x List.mem_cons_self).fits, List.nil_append]
      exact ih (fun y hy => h y (List.mem_cons_of_mem x hy)) (i + 1)
  · rw [Json.list?]
    induction xs with
    | nil => rfl
    | cons x xs ih =>
      have hrest := ih fun y hy => h y (List.mem_cons_of_mem x hy)
      simp [(h x List.mem_cons_self).read, hrest]

theorem Gives.optional {kind : ObjectShape} {members : List (String × Json)} {a : α}
    (h : (object kind).Gives read? (.object members) a) :
    (optionalObject kind).Gives (Json.optional? read?) (.object members) (some a) := by
  constructor
  · intro path
    have hfits : objectViolations path (.object members) kind = [] := h.fits path
    simp [violations_optionalObject, hfits]
  · simp [Json.optional?, h.read]

end Shape

/-! ## Members that give what they hold -/

section

variable {found : List (String × Json)} {name : String} {shape : Shape} {value : Json} {a b : α}

theorem gives_required (hlookup : found.lookup name = some value)
    (h : shape.Gives read? value a) :
    (∀ path description required default,
      (MemberShape.mk name description required default shape).Fits path found) ∧
      Json.required? found name read? = some a := by
  constructor
  · intro path description required default
    rw [MemberShape.Fits, hlookup]
    exact h.fits _
  · rw [Json.required?, hlookup, Option.bind_some, h.read]

theorem gives_defaulted {value? : Option Json} (hlookup : found.lookup name = value?)
    (hsome : ∀ value, value? = some value → shape.Gives read? value a)
    (hnone : value? = none → a = b) :
    (∀ path description default,
      (MemberShape.mk name description false default shape).Fits path found) ∧
      Json.defaulted? found name b read? = some a := by
  cases value? with
  | none =>
    rw [Json.defaulted?, hlookup, hnone rfl]
    refine ⟨fun path description default => ?_, rfl⟩
    rw [MemberShape.Fits, hlookup]
  | some value =>
    rw [Json.defaulted?, hlookup]
    refine ⟨fun path description default => ?_, (hsome value rfl).read⟩
    rw [MemberShape.Fits, hlookup]
    exact (hsome value rfl).fits _

end

/-! ## Objects in any order -/

theorem lookup_eq_of_perm {found members : List (String × Json)} (h : found.Perm members)
    (hkeys : (members.map (·.1)).Nodup) (name : String) :
    found.lookup name = members.lookup name := by
  have hfound : (found.map (·.1)).Nodup := (h.map _).nodup_iff.mpr hkeys
  by_cases hname : name ∈ members.map (·.1)
  · obtain ⟨member, hmember, rfl⟩ := List.mem_map.mp hname
    rw [lookup_of_mem hkeys hmember, lookup_of_mem hfound (h.mem_iff.mpr hmember)]
  · have hnone : ∀ entries : List (String × Json), name ∉ entries.map (·.1) →
        entries.lookup name = none := by
      intro entries hnot
      refine List.lookup_eq_none_iff.mpr fun member hmember => ?_
      exact bne_iff_ne.mpr fun heq => hnot (heq ▸ List.mem_map_of_mem hmember)
    rw [hnone _ hname, hnone _ fun hmem => hname ((h.map _).mem_iff.mp hmem)]

namespace Shape

/-- What reads the members of a kind of objects reads them in any order. -/
theorem gives_of_perm {kind : ObjectShape} {names : List String}
    {ofMembers? : List (String × Json) → Option α} {members found : List (String × Json)} {a : α}
    (hnames : kind.members.map (·.name) = names) (hnodup : names.Nodup)
    (hkeys : (members.map (·.1)).Sublist names)
    (hread : ∀ found, (∀ name, found.lookup name = members.lookup name) →
      (∀ path, ∀ member ∈ kind.members, member.Fits path found) ∧ ofMembers? found = some a)
    (h : found.Perm members) : (object kind).Gives
      (fun value => value.membersWithin? names >>= ofMembers?) (.object found) a := by
  subst hnames
  obtain ⟨hfits, hread⟩ := hread found (lookup_eq_of_perm h (hnodup.sublist hkeys))
  have hwithin : ∀ member ∈ found, member.1 ∈ kind.members.map (·.name) := by
    intro member hmember
    exact hkeys.subset (List.mem_map_of_mem (h.mem_iff.mp hmember))
  constructor
  · intro path
    exact objectViolations_eq_nil_iff.mpr ⟨found, rfl, hfits path, hwithin⟩
  · have hall : (found.all fun member => (kind.members.map (·.name)).contains member.1) = true := by
      simpa [List.all_eq_true] using hwithin
    have hmembers : (Json.object found).membersWithin? (kind.members.map (·.name)) = some found :=
      if_pos hall
    simp only [hmembers, Option.bind_eq_bind, Option.bind_some, hread]

end Shape

namespace Json

theorem keys_unlessEmpty (name : String) (items : List Json) :
    ((unlessEmpty name items).map (·.1)).Sublist [name] := by
  unfold unlessEmpty
  split
  · exact List.nil_sublist _
  · exact .refl _

theorem lookup_unlessEmpty (name : String) (items : List Json) :
    (unlessEmpty name items).lookup name = if items = [] then none else some (.array items) := by
  cases items with
  | nil => rfl
  | cons item rest => simp [unlessEmpty]

end Json

/-- A list that is left out when it is empty is given all the same. -/
theorem gives_unlessEmpty {found : List (String × Json)} {name : String} {item : Shape}
    {xs : List α} {write : α → Json}
    (hlookup : found.lookup name = (Json.unlessEmpty name (xs.map write)).lookup name)
    (h : ∀ x ∈ xs, item.Gives read? (write x) x) :
    (∀ path description default,
      (MemberShape.mk name description false default (.list item)).Fits path found) ∧
      Json.defaulted? found name [] (Json.list? read?) = some xs := by
  rw [Json.lookup_unlessEmpty] at hlookup
  refine gives_defaulted hlookup ?_ ?_
  · intro value hvalue
    obtain ⟨-, rfl⟩ : xs.map write ≠ [] ∧ .array (xs.map write) = value := by
      simpa using hvalue
    exact Shape.gives_list h
  · intro hnone
    simpa using hnone

theorem gives_array {found : List (String × Json)} {name : String} {item : Shape}
    {xs : List α} {write : α → Json}
    (hlookup : found.lookup name = some (.array (xs.map write)))
    (h : ∀ x ∈ xs, item.Gives read? (write x) x) :
    (∀ path description default,
      (MemberShape.mk name description false default (.list item)).Fits path found) ∧
      Json.defaulted? found name [] (Json.list? read?) = some xs := by
  refine gives_defaulted hlookup ?_ fun hnone => absurd hnone (Option.some_ne_none _)
  intro value hvalue
  obtain rfl := Option.some.inj hvalue
  exact Shape.gives_list h

theorem gives_option {β : Type} {found : List (String × Json)} {name : String} {shape : Shape}
    {read? : Json → Option β} {x : Option β} {write : β → Json}
    (hlookup : found.lookup name = x.map write)
    (h : ∀ b, shape.Gives (Json.optional? read?) (write b) (some b)) :
    (∀ path description default,
      (MemberShape.mk name description false default shape).Fits path found) ∧
      Json.defaulted? found name none (Json.optional? read?) = some x := by
  refine gives_defaulted hlookup ?_ Option.map_eq_none_iff.mp
  intro value hvalue
  obtain ⟨b, rfl, rfl⟩ := Option.map_eq_some_iff.mp hvalue
  exact h b

/-! ## Entries

`members` are the members of an entry when the entries inside are written by given functions. -/

namespace AnnotationEntry

def members (a : AnnotationEntry) : List (String × Json) :=
  ("name", .string a.name) :: if a.args.isEmpty then [] else [("args", .object a.args)]

theorem keys_members (a : AnnotationEntry) : (a.members.map (·.1)).Sublist ["name", "args"] := by
  rw [members]
  split
  · exact .cons_cons _ (List.nil_sublist _)
  · exact .refl _

theorem gives_of_perm {a : AnnotationEntry} {found : List (String × Json)}
    (h : found.Perm a.members) : (Shape.object shape).Gives ofJson? (.object found) a := by
  refine Shape.gives_of_perm rfl (by decide) a.keys_members (fun found hlookup => ?_) h
  obtain ⟨hname, hname?⟩ := gives_required (hlookup "name") (Shape.gives_text a.name)
  have hargs : found.lookup "args" = if a.args = [] then none else some (.object a.args) := by
    rw [hlookup, members]
    cases a.args <;> rfl
  obtain ⟨hargs, hargs?⟩ : (∀ path description default,
      (MemberShape.mk "args" description false default .map).Fits path found) ∧
      Json.defaulted? found "args" [] Json.object? = some a.args := by
    refine gives_defaulted hargs ?_ (by simp)
    intro value hvalue
    obtain ⟨-, rfl⟩ : a.args ≠ [] ∧ .object a.args = value := by simpa using hvalue
    exact Shape.gives_map a.args
  constructor
  · intro path
    simp only [shape, ObjectShape.members_mk, List.forall_mem_cons]
    exact ⟨hname .., hargs .., List.forall_mem_nil _⟩
  · simp [hname?, hargs?]

end AnnotationEntry

namespace PropertyEntry

def members (p : PropertyEntry) (write : AnnotationEntry → Json) : List (String × Json) :=
  [("name", .string p.name), ("type", .string p.typeName), ("nullable", .bool p.nullable)] ++
    Json.unlessEmpty "annotations" (p.annotations.map write)

theorem keys_members (p : PropertyEntry) (write : AnnotationEntry → Json) :
    ((p.members write).map (·.1)).Sublist ["name", "type", "nullable", "annotations"] := by
  rw [members, List.map_append]
  exact (List.Sublist.refl ["name", "type", "nullable"]).append (Json.keys_unlessEmpty _ _)

theorem gives_of_perm {p : PropertyEntry} {write : AnnotationEntry → Json}
    (hwrite : ∀ a ∈ p.annotations,
      (Shape.object AnnotationEntry.shape).Gives AnnotationEntry.ofJson? (write a) a)
    {found : List (String × Json)} (h : found.Perm (p.members write)) :
    (Shape.object shape).Gives ofJson? (.object found) p := by
  refine Shape.gives_of_perm rfl (by decide) (p.keys_members write) (fun found hlookup => ?_) h
  obtain ⟨hname, hname?⟩ := gives_required (hlookup "name") (Shape.gives_text p.name)
  obtain ⟨htype, htype?⟩ := gives_required (hlookup "type") (Shape.gives_text p.typeName)
  obtain ⟨hnullable, hnullable?⟩ := gives_defaulted (b := false) (hlookup "nullable")
    (fun value hvalue => Option.some.inj hvalue ▸ Shape.gives_flag p.nullable)
    (fun hnone => absurd hnone (Option.some_ne_none _))
  obtain ⟨hannotations, hannotations?⟩ := gives_unlessEmpty (hlookup "annotations") hwrite
  constructor
  · intro path
    simp only [shape, ObjectShape.members_mk, List.forall_mem_cons]
    exact ⟨hname .., htype .., hnullable .., hannotations .., List.forall_mem_nil _⟩
  · simp [hname?, htype?, hnullable?, hannotations?]

end PropertyEntry

namespace RootEntry

def members (r : RootEntry) : List (String × Json) :=
  match r.collection with
  | none => []
  | some collection => [("collection_name", .string collection)]

theorem keys_members (r : RootEntry) : (r.members.map (·.1)).Sublist ["collection_name"] := by
  rw [members]
  split
  · exact List.nil_sublist _
  · exact .refl _

theorem gives_of_perm {r : RootEntry} {found : List (String × Json)}
    (h : found.Perm r.members) : (Shape.object shape).Gives ofJson? (.object found) r := by
  refine Shape.gives_of_perm rfl (by decide) r.keys_members (fun found hlookup => ?_) h
  have hlookup : found.lookup "collection_name" = r.collection.map .string := by
    rw [hlookup, members]
    cases r.collection <;> rfl
  obtain ⟨hcollection, hcollection?⟩ := gives_option hlookup Shape.gives_optionalText
  constructor
  · intro path
    simp only [shape, ObjectShape.members_mk, List.forall_mem_cons]
    exact ⟨hcollection .., List.forall_mem_nil _⟩
  · simp [hcollection?]

end RootEntry

namespace RecordEntry

def members (r : RecordEntry) (writeRoot : RootEntry → Json) (write : PropertyEntry → Json) :
    List (String × Json) :=
  [("name", .string r.name)] ++
    (match r.root with
      | none => []
      | some root => [("schema_root", writeRoot root)]) ++
    [("properties", .array (r.properties.map write))]

theorem keys_members (r : RecordEntry) (writeRoot : RootEntry → Json)
    (write : PropertyEntry → Json) : ((r.members writeRoot write).map (·.1)).Sublist
      ["name", "schema_root", "properties"] := by
  rw [members]
  cases r.root with
  | none => exact .cons_cons _ (.cons _ (.refl _))
  | some root => exact .refl _

theorem gives_of_perm {r : RecordEntry} {writeRoot : RootEntry → Json}
    {write : PropertyEntry → Json}
    (hroot : ∀ root, (Shape.optionalObject RootEntry.shape).Gives
      (Json.optional? RootEntry.ofJson?) (writeRoot root) (some root))
    (hwrite : ∀ p ∈ r.properties,
      (Shape.object PropertyEntry.shape).Gives PropertyEntry.ofJson? (write p) p)
    {found : List (String × Json)} (h : found.Perm (r.members writeRoot write)) :
    (Shape.object shape).Gives ofJson? (.object found) r := by
  refine Shape.gives_of_perm rfl (by decide) (r.keys_members writeRoot write)
    (fun found hlookup => ?_) h
  have hname : found.lookup "name" = some (.string r.name) := by
    rw [hlookup, members]
    rfl
  have hmark : found.lookup "schema_root" = r.root.map writeRoot := by
    rw [hlookup, members]
    cases r.root <;> rfl
  have hproperties : found.lookup "properties" = some (.array (r.properties.map write)) := by
    rw [hlookup, members]
    cases r.root <;> rfl
  obtain ⟨hname, hname?⟩ := gives_required hname (Shape.gives_text r.name)
  obtain ⟨hmark, hmark?⟩ := gives_option hmark hroot
  obtain ⟨hproperties, hproperties?⟩ := gives_array hproperties hwrite
  constructor
  · intro path
    simp only [shape, ObjectShape.members_mk, List.forall_mem_cons]
    exact ⟨hname .., hmark .., hproperties .., List.forall_mem_nil _⟩
  · simp [hname?, hmark?, hproperties?]

end RecordEntry

namespace EnumEntry

def members (e : EnumEntry) : List (String × Json) :=
  [("name", .string e.name), ("values", .ofStrings e.values)]

theorem gives_of_perm {e : EnumEntry} {found : List (String × Json)} (h : found.Perm e.members) :
    (Shape.object shape).Gives ofJson? (.object found) e := by
  refine Shape.gives_of_perm rfl (by decide) (.refl _) (fun found hlookup => ?_) h
  have hlist : (Shape.list .text).Gives (Json.list? Json.string?) (.ofStrings e.values) e.values :=
    Shape.gives_list fun value _ => Shape.gives_text value
  obtain ⟨hname, hname?⟩ := gives_required (hlookup "name") (Shape.gives_text e.name)
  obtain ⟨hvalues, hvalues?⟩ := gives_required (hlookup "values") hlist
  constructor
  · intro path
    simp only [shape, ObjectShape.members_mk, List.forall_mem_cons]
    exact ⟨hname .., hvalues .., List.forall_mem_nil _⟩
  · simp [hname?, hvalues?]

end EnumEntry

namespace Descriptor

def members (d : Descriptor) (writeRecord : RecordEntry → Json) (writeEnum : EnumEntry → Json) :
    List (String × Json) :=
  [("records", .array (d.records.map writeRecord)), ("enums", .array (d.enums.map writeEnum))] ++
    Json.unlessEmpty "pending" (d.pending.map .string)

theorem keys_members (d : Descriptor) (writeRecord : RecordEntry → Json)
    (writeEnum : EnumEntry → Json) : ((d.members writeRecord writeEnum).map (·.1)).Sublist
      ["records", "enums", "pending"] := by
  rw [members, List.map_append]
  exact (List.Sublist.refl ["records", "enums"]).append (Json.keys_unlessEmpty _ _)

theorem gives_of_perm {d : Descriptor} {writeRecord : RecordEntry → Json}
    {writeEnum : EnumEntry → Json}
    (hrecord : ∀ r ∈ d.records,
      (Shape.object RecordEntry.shape).Gives RecordEntry.ofJson? (writeRecord r) r)
    (henum : ∀ e ∈ d.enums,
      (Shape.object EnumEntry.shape).Gives EnumEntry.ofJson? (writeEnum e) e)
    {found : List (String × Json)} (h : found.Perm (d.members writeRecord writeEnum)) :
    (Shape.object shape).Gives ofJson? (.object found) d := by
  refine Shape.gives_of_perm rfl (by decide) (d.keys_members writeRecord writeEnum)
    (fun found hlookup => ?_) h
  obtain ⟨hrecords, hrecords?⟩ := gives_array (hlookup "records") hrecord
  obtain ⟨henums, henums?⟩ := gives_array (hlookup "enums") henum
  obtain ⟨hpending, hpending?⟩ := gives_unlessEmpty (hlookup "pending")
    fun name _ => Shape.gives_text name
  constructor
  · intro path
    simp only [shape, ObjectShape.members_mk, List.forall_mem_cons]
    exact ⟨hrecords .., henums .., hpending .., List.forall_mem_nil _⟩
  · simp [hrecords?, henums?, hpending?]

end Descriptor

/-! ## Written in the order of the declaration -/

theorem AnnotationEntry.gives_toJson (a : AnnotationEntry) :
    (Shape.object shape).Gives ofJson? a.toJson a :=
  gives_of_perm (.refl a.members)

theorem PropertyEntry.gives_toJson (p : PropertyEntry) :
    (Shape.object shape).Gives ofJson? p.toJson p :=
  gives_of_perm (fun a _ => a.gives_toJson) (.refl (p.members (·.toJson)))

theorem RootEntry.gives_toJson (r : RootEntry) : (Shape.object shape).Gives ofJson? r.toJson r :=
  gives_of_perm (.refl r.members)

theorem RecordEntry.gives_toJson (r : RecordEntry) :
    (Shape.object shape).Gives ofJson? r.toJson r :=
  gives_of_perm (fun root => root.gives_toJson.optional) (fun p _ => p.gives_toJson)
    (.refl (r.members (·.toJson) (·.toJson)))

theorem EnumEntry.gives_toJson (e : EnumEntry) : (Shape.object shape).Gives ofJson? e.toJson e :=
  gives_of_perm (.refl e.members)

theorem Descriptor.gives_toJson (d : Descriptor) :
    (Shape.object shape).Gives ofJson? d.toJson d :=
  gives_of_perm (fun r _ => r.gives_toJson) (fun e _ => e.gives_toJson)
    (.refl (d.members (·.toJson) (·.toJson)))

/-! ## Written in the order of the names -/

namespace Json

theorem map_sorted_unlessEmpty (name : String) (items : List Json) :
    (unlessEmpty name items).map (fun member => (member.1, member.2.sorted)) =
      unlessEmpty name (items.map sorted) := by
  cases items with
  | nil => rfl
  | cons item rest => simp [unlessEmpty, sorted_array]

end Json

namespace AnnotationEntry

/-- The arguments are in order. -/
def IsSorted (a : AnnotationEntry) : Prop := (Json.object a.args).sorted = .object a.args

theorem gives_sorted {a : AnnotationEntry} (ha : a.IsSorted) :
    (Shape.object shape).Gives ofJson? a.toJson.sorted a := by
  obtain ⟨found, hfound, hperm⟩ := Json.exists_perm_sorted (rfl : a.toJson = .object a.members)
    (a.keys_members.nodup (by decide))
  have hmembers : a.members.map (fun member => (member.1, member.2.sorted)) = a.members := by
    have hargs : (Json.object a.args).sorted = .object a.args := ha
    unfold members
    split
    · simp [Json.sorted_string]
    · simp [Json.sorted_string, hargs]
  rw [hfound]
  exact gives_of_perm (hmembers ▸ hperm)

end AnnotationEntry

namespace PropertyEntry

def IsSorted (p : PropertyEntry) : Prop := ∀ a ∈ p.annotations, a.IsSorted

theorem gives_sorted {p : PropertyEntry} (hp : p.IsSorted) :
    (Shape.object shape).Gives ofJson? p.toJson.sorted p := by
  obtain ⟨found, hfound, hperm⟩ := Json.exists_perm_sorted
    (rfl : p.toJson = .object (p.members (·.toJson)))
    ((p.keys_members (·.toJson)).nodup (by decide))
  have hmembers : (p.members (·.toJson)).map (fun member => (member.1, member.2.sorted)) =
      p.members (·.toJson.sorted) := by
    simp [members, Json.map_sorted_unlessEmpty, Json.sorted_string, Json.sorted_bool,
      Function.comp_def]
  rw [hfound]
  exact gives_of_perm (fun a ha => AnnotationEntry.gives_sorted (hp a ha)) (hmembers ▸ hperm)

end PropertyEntry

namespace RootEntry

theorem gives_sorted (r : RootEntry) : (Shape.optionalObject shape).Gives
    (Json.optional? ofJson?) r.toJson.sorted (some r) := by
  obtain ⟨found, hfound, hperm⟩ := Json.exists_perm_sorted (rfl : r.toJson = .object r.members)
    (r.keys_members.nodup (by decide))
  have hmembers : r.members.map (fun member => (member.1, member.2.sorted)) = r.members := by
    unfold members
    split
    · rfl
    · simp [Json.sorted_string]
  rw [hfound]
  exact (gives_of_perm (hmembers ▸ hperm)).optional

end RootEntry

namespace RecordEntry

def IsSorted (r : RecordEntry) : Prop := ∀ p ∈ r.properties, p.IsSorted

theorem gives_sorted {r : RecordEntry} (hr : r.IsSorted) :
    (Shape.object shape).Gives ofJson? r.toJson.sorted r := by
  obtain ⟨found, hfound, hperm⟩ := Json.exists_perm_sorted
    (rfl : r.toJson = .object (r.members (·.toJson) (·.toJson)))
    ((r.keys_members (·.toJson) (·.toJson)).nodup (by decide))
  have hmembers : (r.members (·.toJson) (·.toJson)).map
      (fun member => (member.1, member.2.sorted)) =
        r.members (·.toJson.sorted) (·.toJson.sorted) := by
    unfold members
    cases r.root <;> simp [Json.sorted_string, Json.sorted_array]
  rw [hfound]
  exact gives_of_perm RootEntry.gives_sorted (fun p hp => PropertyEntry.gives_sorted (hr p hp))
    (hmembers ▸ hperm)

end RecordEntry

theorem EnumEntry.gives_sorted (e : EnumEntry) :
    (Shape.object shape).Gives ofJson? e.toJson.sorted e := by
  obtain ⟨found, hfound, hperm⟩ := Json.exists_perm_sorted (rfl : e.toJson = .object e.members)
    (by simp)
  have hmembers : e.members.map (fun member => (member.1, member.2.sorted)) = e.members := by
    simp [members, Json.ofStrings, Json.sorted_string, Json.sorted_array]
  rw [hfound]
  exact gives_of_perm (hmembers ▸ hperm)

namespace Descriptor

def IsSorted (d : Descriptor) : Prop := ∀ r ∈ d.records, r.IsSorted

theorem gives_sorted {d : Descriptor} (hd : d.IsSorted) :
    (Shape.object shape).Gives ofJson? d.toJson.sorted d := by
  obtain ⟨found, hfound, hperm⟩ := Json.exists_perm_sorted
    (rfl : d.toJson = .object (d.members (·.toJson) (·.toJson)))
    ((d.keys_members (·.toJson) (·.toJson)).nodup (by decide))
  have hmembers : (d.members (·.toJson) (·.toJson)).map
      (fun member => (member.1, member.2.sorted)) =
        d.members (·.toJson.sorted) (·.toJson.sorted) := by
    simp [members, Json.map_sorted_unlessEmpty, Json.sorted_string, Json.sorted_array,
      Function.comp_def]
  rw [hfound]
  exact gives_of_perm (fun r hr => RecordEntry.gives_sorted (hd r hr))
    (fun e _ => e.gives_sorted) (hmembers ▸ hperm)

end Descriptor

/-! ## Reading values in order -/

namespace Json

theorem membersWithin?_eq_some_iff {names : List String} {value : Json}
    {found : List (String × Json)} : value.membersWithin? names = some found ↔
      value = .object found ∧ ∀ member ∈ found, member.1 ∈ names := by
  cases value with
  | object members =>
    simp only [membersWithin?, Option.ite_none_right_eq_some, List.all_eq_true,
      List.contains_iff_mem, Option.some.injEq, object.injEq]
    constructor
    · rintro ⟨hwithin, rfl⟩
      exact ⟨rfl, hwithin⟩
    · rintro ⟨rfl, hwithin⟩
      exact ⟨hwithin, rfl⟩
  | _ => simp [membersWithin?]

/-- What is read from a list in order is read from values in order. -/
theorem exists_item_of_list? {value : Json} (hsorted : value.sorted = value) {xs : List α}
    (h : list? read? value = some xs) {x : α} (hx : x ∈ xs) :
    ∃ item : Json, item.sorted = item ∧ read? item = some x := by
  cases value with
  | array items =>
    have hitems := sorted_of_mem_array hsorted
    clear hsorted
    rw [list?] at h
    induction items generalizing xs with
    | nil =>
      obtain rfl := Option.some.inj h
      cases hx
    | cons item rest ih =>
      simp only [List.mapM_cons, Option.bind_eq_bind, Option.bind_eq_some_iff, Option.pure_def,
        Option.some.injEq] at h
      obtain ⟨y, hy, ys, hys, rfl⟩ := h
      rcases List.mem_cons.mp hx with rfl | hx
      · exact ⟨item, hitems item List.mem_cons_self, hy⟩
      · exact ih hx hys fun other hother => hitems other (List.mem_cons_of_mem item hother)
  | _ => cases h

theorem exists_item_of_defaulted? {found : List (String × Json)}
    (hsorted : (object found).sorted = .object found) {name : String} {xs : List α}
    (h : defaulted? found name [] (list? read?) = some xs) {x : α} (hx : x ∈ xs) :
    ∃ item : Json, item.sorted = item ∧ read? item = some x := by
  rw [defaulted?] at h
  cases hlookup : found.lookup name with
  | none =>
    rw [hlookup] at h
    obtain rfl := Option.some.inj h
    cases hx
  | some value =>
    rw [hlookup] at h
    exact exists_item_of_list? (sorted_of_lookup hsorted hlookup) h hx

end Json

theorem AnnotationEntry.isSorted_of_ofJson? {value : Json} (hsorted : value.sorted = value)
    {a : AnnotationEntry} (h : ofJson? value = some a) : a.IsSorted := by
  simp only [ofJson?, Option.bind_eq_bind, Option.bind_eq_some_iff, Option.pure_def,
    Option.some.injEq, Json.membersWithin?_eq_some_iff] at h
  obtain ⟨found, ⟨rfl, -⟩, name, -, args, hargs, rfl⟩ := h
  rw [Json.defaulted?] at hargs
  cases hlookup : found.lookup "args" with
  | none =>
    rw [hlookup] at hargs
    obtain rfl := Option.some.inj hargs
    rfl
  | some value =>
    rw [hlookup] at hargs
    have hvalue := Json.sorted_of_lookup hsorted hlookup
    cases value with
    | object members =>
      obtain rfl := Option.some.inj hargs
      exact hvalue
    | _ => cases hargs

theorem PropertyEntry.isSorted_of_ofJson? {value : Json} (hsorted : value.sorted = value)
    {p : PropertyEntry} (h : ofJson? value = some p) : p.IsSorted := by
  simp only [ofJson?, Option.bind_eq_bind, Option.bind_eq_some_iff, Option.pure_def,
    Option.some.injEq, Json.membersWithin?_eq_some_iff] at h
  obtain ⟨found, ⟨rfl, -⟩, name, -, typeName, -, nullable, -, annotations, hannotations, rfl⟩ := h
  intro a ha
  obtain ⟨item, hitem, hread⟩ := Json.exists_item_of_defaulted? hsorted hannotations ha
  exact AnnotationEntry.isSorted_of_ofJson? hitem hread

theorem RecordEntry.isSorted_of_ofJson? {value : Json} (hsorted : value.sorted = value)
    {r : RecordEntry} (h : ofJson? value = some r) : r.IsSorted := by
  simp only [ofJson?, Option.bind_eq_bind, Option.bind_eq_some_iff, Option.pure_def,
    Option.some.injEq, Json.membersWithin?_eq_some_iff] at h
  obtain ⟨found, ⟨rfl, -⟩, name, -, root, -, properties, hproperties, rfl⟩ := h
  intro p hp
  obtain ⟨item, hitem, hread⟩ := Json.exists_item_of_defaulted? hsorted hproperties hp
  exact PropertyEntry.isSorted_of_ofJson? hitem hread

namespace Descriptor

theorem isSorted_of_ofJson? {value : Json} (hsorted : value.sorted = value) {d : Descriptor}
    (h : ofJson? value = some d) : d.IsSorted := by
  simp only [ofJson?, Option.bind_eq_bind, Option.bind_eq_some_iff, Option.pure_def,
    Option.some.injEq, Json.membersWithin?_eq_some_iff] at h
  obtain ⟨found, ⟨rfl, -⟩, records, hrecords, enums, -, pending, -, rfl⟩ := h
  intro r hr
  obtain ⟨item, hitem, hread⟩ := Json.exists_item_of_defaulted? hsorted hrecords hr
  exact RecordEntry.isSorted_of_ofJson? hitem hread

/-! ## The check -/

theorem validate_eq_ok_iff {value : Json} {valid : ValidDescriptor} :
    validate value = .ok valid ↔ structuralErrors value = [] ∧
      ofJson? value = some valid.descriptor ∧ valid.descriptor.typeErrors = [] ∧
      valid.graph = valid.descriptor.graph ∧ valid.warnings = valid.descriptor.warnings := by
  cases hshape : structuralErrors value with
  | cons first rest => simp [validate, hshape]
  | nil =>
    cases hread : ofJson? value with
    | none => simp [validate, hshape, hread]
    | some d =>
      obtain ⟨d', graph, warnings⟩ := valid
      rw [validate_of_ofJson? hshape hread]
      by_cases htypes : d.typeErrors = []
      · simp only [List.isEmpty_nil, htypes, if_true, Except.ok.injEq, ValidDescriptor.mk.injEq,
          Option.some.injEq, true_and]
        constructor
        · rintro ⟨rfl, rfl, rfl⟩
          exact ⟨rfl, htypes, rfl, rfl⟩
        · rintro ⟨rfl, -, rfl, rfl⟩
          exact ⟨rfl, rfl, rfl⟩
      · rw [if_neg (mt List.isEmpty_iff.mp htypes)]
        simp only [Option.some.injEq, true_and, reduceCtorEq, false_iff]
        rintro ⟨rfl, hnone, -⟩
        exact htypes hnone

theorem read_of_gives {value : Json} {d : Descriptor}
    (h : (Shape.object shape).Gives ofJson? value d) :
    structuralErrors value = [] ∧ ofJson? value = some d :=
  ⟨structuralErrors_eq_nil_iff.mpr (h.fits []), h.read⟩

/-- **A descriptor survives being written and read.** What it is written as has the shape of a
descriptor and is read as the descriptor, in the order of the declaration and, if the arguments of
its annotations are in order, in the order of the names. So checking what is written from a checked
value gives the same descriptor, graph and warnings. -/
theorem validate_written :
    (∀ d : Descriptor, structuralErrors d.toJson = [] ∧ ofJson? d.toJson = some d) ∧
    (∀ d : Descriptor, d.IsSorted →
      structuralErrors d.toJson.sorted = [] ∧ ofJson? d.toJson.sorted = some d) ∧
    ∀ value valid, validate value = .ok valid →
      validate valid.descriptor.toJson = .ok valid ∧
        (value.sorted = value → validate valid.descriptor.toJson.sorted = .ok valid) := by
  have hwritten : ∀ d : Descriptor, structuralErrors d.toJson = [] ∧ ofJson? d.toJson = some d :=
    fun d => read_of_gives d.gives_toJson
  have hordered : ∀ d : Descriptor, d.IsSorted →
      structuralErrors d.toJson.sorted = [] ∧ ofJson? d.toJson.sorted = some d :=
    fun d hd => read_of_gives (gives_sorted hd)
  refine ⟨hwritten, hordered, fun value valid h => ?_⟩
  obtain ⟨-, hread, hrest⟩ := validate_eq_ok_iff.mp h
  constructor
  · obtain ⟨hshape, hself⟩ := hwritten valid.descriptor
    exact validate_eq_ok_iff.mpr ⟨hshape, hself, hrest⟩
  · intro hsorted
    obtain ⟨hshape, hself⟩ := hordered valid.descriptor (isSorted_of_ofJson? hsorted hread)
    exact validate_eq_ok_iff.mpr ⟨hshape, hself, hrest⟩

/-- The descriptor that `quay` holds. -/
def harbour : Descriptor where
  records := [
    ⟨"Quay", none, [⟨"depth", "Double", false, [⟨"Range", []⟩]⟩]⟩,
    ⟨"Berth", some ⟨none⟩, []⟩]
  enums := []
  pending := ["Pilot"]

theorem validate_quay : validate quay = .ok ⟨harbour, harbour.graph, harbour.warnings⟩ := by
  have hread : ofJson? quay = some harbour := rfl
  have htypes : harbour.typeErrors = [] := by decide +kernel
  exact validate_eq_ok_iff.mpr ⟨structuralErrors_quay, hread, htypes, rfl, rfl⟩

/-- The harbour is written without the null of its quay and with the root of its berth. -/
theorem validate_written_harbour : harbour.IsSorted ∧ ofJson? harbour.toJson.sorted = some harbour ∧
    validate quay = .ok ⟨harbour, harbour.graph, harbour.warnings⟩ ∧
      validate harbour.toJson = .ok ⟨harbour, harbour.graph, harbour.warnings⟩ := by
  have hsorted : harbour.IsSorted := by
    simp [IsSorted, RecordEntry.IsSorted, PropertyEntry.IsSorted, AnnotationEntry.IsSorted,
      harbour, Json.sorted_object, ascendingByKey]
  obtain ⟨-, hordered, hchecked⟩ := validate_written
  exact ⟨hsorted, (hordered harbour hsorted).2, validate_quay, (hchecked _ _ validate_quay).1⟩

end Descriptor

end CollectionSchema
