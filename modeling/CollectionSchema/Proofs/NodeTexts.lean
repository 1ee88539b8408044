import CollectionSchema.Proofs.EmittedDocuments

/-!
# Texts of a graph in its documents

The strings of a document are words of the schema language, of which none has a `#` in it, and
texts that its nodes take from the declarations: names of properties, values of enumerations and
patterns.

* `Node.exists_holds_of_mem_strings`: a string with a `#` is a text of a node that is held. By
  induction on the node.
* `Graph.mem_texts_of_mem_strings`: so it is a text of the graph that the document is compiled from.
-/

namespace CollectionSchema

/-! ## Strings of a value -/

namespace Json

mutual

/-- The strings of a value: its names and its texts. -/
def strings : Json → List String
  | .string s => [s]
  | .array items => itemStrings items
  | .object members => memberStrings members
  | _ => []

def itemStrings : List Json → List String
  | [] => []
  | item :: rest => strings item ++ itemStrings rest

def memberStrings : List (String × Json) → List String
  | [] => []
  | (name, value) :: rest => name :: (strings value ++ memberStrings rest)

end

variable {s : String}

theorem mem_itemStrings_iff {items : List Json} :
    s ∈ itemStrings items ↔ ∃ item ∈ items, s ∈ item.strings := by
  induction items with
  | nil => simp [itemStrings]
  | cons item rest ih => rw [itemStrings, List.mem_append, ih, List.exists_mem_cons_iff]

theorem mem_memberStrings_iff {members : List (String × Json)} :
    s ∈ memberStrings members ↔ ∃ member ∈ members, s = member.1 ∨ s ∈ member.2.strings := by
  induction members with
  | nil => simp [memberStrings]
  | cons member rest ih =>
    obtain ⟨name, value⟩ := member
    rw [memberStrings, List.mem_cons, List.mem_append, ih, List.exists_mem_cons_iff, or_assoc]

end Json

/-! ## Texts of nodes -/

namespace Node

/-- A text that a node takes from the declarations. -/
inductive HasText (n : Node) : String → Prop
  | required {name : String} : name ∈ n.required → n.HasText name
  | property {name : String} {c : Node} {properties : Properties} :
      n.properties = some properties → (name, c) ∈ properties → n.HasText name
  | value {value : String} {values : List (Option String)} :
      n.enumValues = some values → some value ∈ values → n.HasText value
  | pattern {text : String} : n.keywords.pattern = some text → n.HasText text

variable {n : Node} {s : String}

/-- A node that is not that of a record takes values and a pattern only. -/
theorem HasText.value_or_pattern (hs : n.HasText s) (hrequired : n.required = [])
    (hproperties : n.properties = none) :
    (∃ values, n.enumValues = some values ∧ some s ∈ values) ∨ n.keywords.pattern = some s := by
  cases hs with
  | required hname =>
    rw [hrequired] at hname
    cases hname
  | property hfound _ =>
    rw [hproperties] at hfound
    cases hfound
  | value hvalues hs => exact .inl ⟨_, hvalues, hs⟩
  | pattern hs => exact .inr hs

theorem hash_not_mem_type {type : BsonType} (hs : s ∈ type.toJson.strings) : '#' ∉ s.toList := by
  obtain ⟨tag, nullable⟩ := type
  revert s
  cases tag <;> cases nullable <;> decide

theorem hash_not_mem_name (field : Field) : '#' ∉ field.name.toList := by
  cases field <;> decide

/-- Of the keywords only the pattern is a string. -/
theorem pattern_of_mem_keywordEntries {k : Keywords} {entry : Field × Json}
    (hentry : entry ∈ keywordEntries k) (hs : s ∈ entry.2.strings) : k.pattern = some s := by
  simp only [keywordEntries, List.mem_append, mem_optionalEntry_iff] at hentry
  rcases hentry with (((⟨text, hpattern, rfl⟩ | ⟨_, -, rfl⟩) | ⟨_, -, rfl⟩) | ⟨_, -, rfl⟩) |
    ⟨_, -, rfl⟩
  · rw [hpattern, List.mem_singleton.mp hs]
  all_goals cases hs

/-- A string with a hash in the value of a node is a text of the node, or it is in a node that
stands directly in it. -/
theorem mem_texts_or_inside (hs : s ∈ n.toJson.strings) (hhash : '#' ∈ s.toList) :
    n.HasText s ∨ ∃ c, n.Inside c ∧ s ∈ c.toJson.strings := by
  rw [toJson_eq_object, Json.strings, Json.mem_memberStrings_iff] at hs
  obtain ⟨member, hmember, hs⟩ := hs
  obtain ⟨entry, hentry, rfl⟩ := List.mem_map.mp hmember
  have hvalue : s ∈ entry.2.strings := by
    refine hs.resolve_left ?_
    rintro rfl
    exact hash_not_mem_name entry.1 hhash
  simp only [entries, List.mem_append, mem_optionalEntry_iff] at hentry
  rcases hentry with ((((htype | hrequired) | ⟨properties, hproperties, rfl⟩) |
    ⟨values, hvalues, rfl⟩) | hkeyword) | ⟨c, hitems, rfl⟩
  · rw [List.mem_singleton.mp htype] at hvalue
    exact absurd hhash (hash_not_mem_type hvalue)
  · split at hrequired
    · cases hrequired
    · rw [List.mem_singleton.mp hrequired] at hvalue
      obtain ⟨item, hitem, hs⟩ := Json.mem_itemStrings_iff.mp hvalue
      obtain ⟨name, hname, rfl⟩ := List.mem_map.mp hitem
      rw [List.mem_singleton.mp hs]
      exact .inl (.required hname)
  · obtain ⟨member, hmember, hs⟩ := Json.mem_memberStrings_iff.mp hvalue
    obtain ⟨⟨name, c⟩, hc, rfl⟩ := Properties.mem_toMembers_iff.mp hmember
    rcases hs with rfl | hs
    · exact .inl (.property hproperties hc)
    · exact .inr ⟨c, .property hproperties hc, hs⟩
  · obtain ⟨item, hitem, hs⟩ := Json.mem_itemStrings_iff.mp hvalue
    obtain ⟨value, hmem, rfl⟩ := List.mem_map.mp hitem
    cases value with
    | none => cases hs
    | some text =>
      rw [List.mem_singleton.mp hs]
      exact .inl (.value hvalues hmem)
  · exact .inl (.pattern (pattern_of_mem_keywordEntries hkeyword hvalue))
  · exact .inr ⟨c, .items hitems, hvalue⟩

/-- **A string with a hash is a text** of a node that is held. -/
theorem exists_holds_of_mem_strings (n : Node) (hs : s ∈ n.toJson.strings)
    (hhash : '#' ∈ s.toList) : ∃ place m, n.Holds place m ∧ m.HasText s := by
  induction n using Node.induction with
  | step n ih =>
    rcases mem_texts_or_inside hs hhash with htexts | ⟨c, hc, hs⟩
    · exact ⟨.root, n, .root, htexts⟩
    · obtain ⟨inner, m, hm, htexts⟩ := ih c hc hs
      obtain ⟨place, hplace⟩ := hc.exists_holds hm
      exact ⟨place, m, hplace, htexts⟩

end Node

theorem Document.mem_strings_toJson_iff {n : Node} {s : String} :
    s ∈ (toJson n).strings ↔ s = Mismatch.documentMember ∨ s ∈ n.toJson.strings := by
  simp [toJson, Json.strings, Json.mem_memberStrings_iff]

/-! ## Texts of graphs -/

namespace Keywords

/-- A pattern with a hash does not stand for a fixed length. -/
theorem eq_pattern_of_ofConstraint {c : Constraint} {s : String}
    (hs : (ofConstraint c).pattern = some s) (hhash : '#' ∈ s.toList) : c = .pattern s := by
  cases c with
  | fixedLength length =>
    obtain rfl := Option.some.inj hs
    have hdigits : '#' ∉ natText length := fun hmem =>
      absurd (Json.isDigit_of_mem_natText hmem) (by decide)
    simp [hdigits] at hhash
  | pattern text => rw [Option.some.inj hs]
  | lengthBounds min max => cases hs
  | numericBounds min max => cases hs

/-- The default patterns have no hash. -/
theorem hash_not_mem_default {property : String} {tag : TypeTag} {k : Keywords} {s : String}
    (h : default? property tag = some k) (hs : k.pattern = some s) : '#' ∉ s.toList := by
  cases tag with
  | string =>
    simp only [default?] at h
    split at h
    all_goals
      cases h
      cases hs
      decide
  | number =>
    cases h
    cases hs
  | _ => cases h

end Keywords

/-- The patterns that the annotations of a property state. -/
def Property.patterns (p : Property) : List String :=
  p.annotations.filterMap fun a =>
    match a.constraint with
    | .ok (.pattern text) => some text
    | _ => none

namespace Graph

/-- The texts of a graph that its documents can have: names of properties, patterns, and values of
enumerations. -/
def texts (g : Graph) : List String :=
  g.fields.flatMap (fun field => field.2.name :: field.2.patterns) ++ g.enums.flatMap (·.values)

variable {g : Graph} {registry : Registry} {r : Record} {p : Property} {n : Node} {s : String}

theorem name_mem_texts (hr : r ∈ g.records) (hp : p ∈ r.properties) : p.name ∈ g.texts :=
  List.mem_append_left _ (List.mem_flatMap.mpr ⟨_, mem_fields hr hp, List.mem_cons_self⟩)

theorem pattern_mem_texts (hr : r ∈ g.records) (hp : p ∈ r.properties) (hs : s ∈ p.patterns) :
    s ∈ g.texts :=
  List.mem_append_left _ (List.mem_flatMap.mpr ⟨_, mem_fields hr hp, List.mem_cons_of_mem _ hs⟩)

theorem value_mem_texts {e : Enumeration} (he : e ∈ g.enums) (hs : s ∈ e.values) : s ∈ g.texts :=
  List.mem_append_right _ (List.mem_flatMap.mpr ⟨e, he, hs⟩)

/-- A pattern with a hash is stated by an annotation. -/
theorem mem_patterns_of_keywords (hg : g.WellFormed) (h : Registry.collect g = .ok registry)
    (hr : r ∈ g.records) (hp : p ∈ r.properties)
    (hs : (Builder.keywords registry ⟨r.name, p.name⟩ p.type).pattern = some s)
    (hhash : '#' ∈ s.toList) : s ∈ p.patterns := by
  unfold Builder.keywords at hs
  split at hs
  · next stated hstated =>
    have hkeywords := (Registry.registered_of_collect hg h hr hp).1
    rw [hstated] at hkeywords
    rcases Property.keywords?_eq_ok hkeywords with ⟨hnone, -⟩ | ⟨a, ha, c, hc, hsome, -⟩
    · cases hnone
    · cases hsome
      obtain rfl := Keywords.eq_pattern_of_ofConstraint hs hhash
      exact List.mem_filterMap.mpr ⟨a, ha, by rw [hc]⟩
  · cases hs
  · split at hs
    · cases hs
    · cases hdefault : Keywords.default? p.name p.type.tag with
      | none =>
        rw [hdefault] at hs
        cases hs
      | some k =>
        rw [hdefault] at hs
        exact absurd hhash (Keywords.hash_not_mem_default hdefault hs)

/-- A text of a node that fits a site is a text of the graph. -/
theorem mem_texts_of_fits (hg : g.WellFormed) (h : Registry.collect g = .ok registry)
    (hr : r ∈ g.records) {place : Place} {site : Site} (hsite : g.Sites r place site)
    (hfits : site.Fits g registry n) (hs : n.HasText s) (hhash : '#' ∈ s.toList) :
    s ∈ g.texts := by
  have hpattern : ∀ {t p}, g.Sites r place (.property t p) →
      (Builder.keywords registry ⟨t.name, p.name⟩ p.type).pattern = some s → s ∈ g.texts := by
    intro t p hsite hs
    obtain ⟨ht, hp⟩ := hsite.mem_of_property hr
    exact pattern_mem_texts ht hp (mem_patterns_of_keywords hg h ht hp hs hhash)
  cases hfits with
  | @record _ t n ht hbuild =>
    have htmem := hsite.mem_of_record? hr ht
    have hnames := (describes_of_build_eq_ok (hg.properties t htmem) hbuild).properties
    obtain ⟨properties, hproperties, hnames, -, hrequired⟩ := hnames
    obtain ⟨p, hp, rfl⟩ : ∃ p ∈ t.properties, p.name = s := by
      refine List.mem_map.mp (hnames ▸ ?_)
      obtain ⟨nodes, -, rfl⟩ := Builder.buildFrom_eq_ok_iff.mp hbuild
      cases hs with
      | required hs => exact hrequired.subset hs
      | property hfound hc =>
        rw [hproperties] at hfound
        cases hfound
        exact List.mem_map.mpr ⟨_, hc, rfl⟩
      | value hvalues _ => cases hvalues
      | pattern hs => cases hs
    exact name_mem_texts htmem hp
  | enumeration htype he =>
    rcases hs.value_or_pattern rfl rfl with ⟨values, hvalues, hs⟩ | hs
    · cases hvalues
      refine value_mem_texts (mem_of_enum? he) ?_
      simpa [Builder.enumValues] using hs
    · exact hpattern hsite hs
  | list htype hc =>
    rcases hs.value_or_pattern rfl rfl with ⟨_, ⟨⟩, -⟩ | hs
    exact hpattern hsite hs
  | primitive htype =>
    rcases hs.value_or_pattern rfl rfl with ⟨_, ⟨⟩, -⟩ | hs
    exact hpattern hsite hs
  | element hnone htag =>
    rcases hs.value_or_pattern rfl rfl with ⟨_, ⟨⟩, -⟩ | hs
    cases hs

/-- **A string with a hash in the document of a schema is a text of the graph.** -/
theorem mem_texts_of_mem_strings {c : Compiled} (h : g.compile = .ok c) {schema : CompiledSchema}
    (hschema : schema ∈ c.forest) (hs : s ∈ (Document.toJson schema.node).strings)
    (hhash : '#' ∈ s.toList) : s ∈ g.texts := by
  obtain ⟨hg, hregistry, -⟩ := compile_eq_ok_iff.mp h
  obtain ⟨root, hroot, -, hbuild⟩ := exists_root_of_mem_forest h hschema
  rcases Document.mem_strings_toJson_iff.mp hs with rfl | hs
  · exact absurd hhash (by decide)
  · obtain ⟨place, m, hm, hs⟩ := Node.exists_holds_of_mem_strings schema.node hs hhash
    obtain ⟨site, hsite, hfits⟩ := exists_site_of_holds hg hroot hbuild hm
    exact mem_texts_of_fits hg hregistry hroot hsite hfits hs hhash

end Graph

end CollectionSchema
