import CollectionSchema.Proofs.DocumentRoundTrip
import CollectionSchema.Proofs.PathIndependence

/-!
# How deep compiled nodes are

The arrays and objects of a node nest as deep as its members do, and one deeper. A plain
property is at most two deep; a record adds two to the deepest of its properties, and one more
where it stands in a list. The records that are built inside one another have different names, so
the node of a record of a graph is at most `3 * n + 1` deep, where `n` is the number of records
(`Graph.depth_build_le`).
-/

namespace CollectionSchema

namespace Json

theorem memberDepth_le_iff {members : List (String × Json)} {d : Nat} :
    memberDepth members ≤ d ↔ ∀ entry ∈ members, depth entry.2 ≤ d := by
  induction members with
  | nil => simp [memberDepth]
  | cons entry rest ih =>
    obtain ⟨name, value⟩ := entry
    rw [memberDepth, Nat.max_le, ih, List.forall_mem_cons]

theorem itemDepth_le_iff {items : List Json} {d : Nat} :
    itemDepth items ≤ d ↔ ∀ item ∈ items, depth item ≤ d := by
  induction items with
  | nil => simp [itemDepth]
  | cons item rest ih => rw [itemDepth, Nat.max_le, ih, List.forall_mem_cons]

theorem depth_array_map_le {α : Type} (encode : α → Json) (h : ∀ a, depth (encode a) = 0)
    (values : List α) : depth (.array (values.map encode)) ≤ 1 := by
  rw [depth, Nat.add_le_add_iff_right, itemDepth_le_iff]
  intro item hitem
  obtain ⟨a, -, rfl⟩ := List.mem_map.mp hitem
  exact (h a).le

end Json

/-! ## Nodes -/

theorem BsonType.depth_toJson_le (type : BsonType) : type.toJson.depth ≤ 1 := by
  unfold toJson
  split
  · exact Nat.le_refl 1
  · exact Nat.zero_le 1

namespace Properties

theorem mem_of_mem_insert {name : String} {node : Node} {properties : Properties}
    {entry : String × Node} (h : entry ∈ properties.insert name node) :
    entry = (name, node) ∨ entry ∈ properties := by
  fun_induction insert name node properties <;> grind

theorem mem_of_mem_foldl_insert {properties entries : List (String × Node)}
    {entry : String × Node}
    (h : entry ∈ entries.foldl (fun properties e => insert e.1 e.2 properties) properties) :
    entry ∈ properties ∨ entry ∈ entries := by
  induction entries generalizing properties with
  | nil => exact .inl h
  | cons first rest ih =>
    rcases ih h with hmem | hmem
    · rcases mem_of_mem_insert hmem with rfl | hmem
      · exact .inr List.mem_cons_self
      · exact .inl hmem
    · exact .inr (List.mem_cons_of_mem _ hmem)

theorem mem_of_mem_ofList {entries : List (String × Node)} {entry : String × Node}
    (h : entry ∈ ofList entries) : entry ∈ entries :=
  (mem_of_mem_foldl_insert h).resolve_left List.not_mem_nil

theorem mem_toMembers_iff {properties : Properties} {member : String × Json} :
    member ∈ Node.toMembers properties ↔
      ∃ entry ∈ properties, member = (entry.1, entry.2.toJson) := by
  induction properties with
  | nil => simp [Node.toMembers]
  | cons entry rest ih =>
    obtain ⟨name, node⟩ := entry
    rw [Node.toMembers, List.mem_cons, ih, List.exists_mem_cons_iff]

end Properties

namespace Node

variable {n : Node}

theorem mem_optionalEntry_iff {α : Type} {field : Field} {toJson : α → Json}
    {value : Option α} {entry : Field × Json} :
    entry ∈ optionalEntry field toJson value ↔ ∃ a, value = some a ∧ entry = (field, toJson a) := by
  cases value <;> simp [optionalEntry]

theorem depth_keywordEntries {k : Keywords} {entry : Field × Json}
    (h : entry ∈ keywordEntries k) : entry.2.depth = 0 := by
  simp only [keywordEntries, List.mem_append, mem_optionalEntry_iff] at h
  rcases h with (((⟨_, -, rfl⟩ | ⟨_, -, rfl⟩) | ⟨_, -, rfl⟩) | ⟨_, -, rfl⟩) | ⟨_, -, rfl⟩ <;> rfl

/-- A node is two deep for what it says itself, and deep enough for the nodes inside it. -/
theorem depth_toJson_le {d : Nat} (hd : 2 ≤ d)
    (hproperties : ∀ properties, n.properties = some properties →
      ∀ entry ∈ properties, entry.2.toJson.depth + 2 ≤ d)
    (hitems : ∀ c, n.items = some c → c.toJson.depth + 1 ≤ d) : n.toJson.depth ≤ d := by
  obtain ⟨e, rfl⟩ : ∃ e, d = e + 1 := ⟨d - 1, by omega⟩
  rw [toJson_eq_object, Json.depth, Nat.add_le_add_iff_right, Json.memberDepth_le_iff]
  intro member hmember
  obtain ⟨entry, hentry, rfl⟩ := List.mem_map.mp hmember
  simp only [entries, List.mem_append, mem_optionalEntry_iff, List.mem_singleton] at hentry
  rcases hentry with ((((rfl | hentry) | ⟨properties, hsome, rfl⟩) | ⟨values, -, rfl⟩) |
    hentry) | ⟨c, hsome, rfl⟩
  · exact n.type.depth_toJson_le.trans (by omega)
  · split at hentry
    · cases hentry
    · obtain rfl := List.mem_singleton.mp hentry
      have hnames := Json.depth_array_map_le .string (fun _ => rfl) n.required
      exact hnames.trans (by omega)
  · rw [Properties.toJson, Json.depth]
    suffices h : Json.memberDepth (toMembers properties) ≤ e - 1 by omega
    rw [Json.memberDepth_le_iff]
    intro member hmember
    obtain ⟨entry, hentry, rfl⟩ := Properties.mem_toMembers_iff.mp hmember
    have hdepth := hproperties properties hsome entry hentry
    have hroom : entry.2.toJson.depth ≤ e - 1 := by omega
    exact hroom
  · have hvalues := Json.depth_array_map_le .ofOption
      (fun value => by cases value <;> rfl) values
    exact hvalues.trans (by omega)
  · exact (depth_keywordEntries hentry).le.trans (Nat.zero_le e)
  · exact Nat.add_le_add_iff_right.mp (hitems c hsome)

theorem depth_toJson_le_two (hproperties : n.properties = none) (hitems : n.items = none) :
    n.toJson.depth ≤ 2 := by
  refine depth_toJson_le (Nat.le_refl 2) ?_ ?_
  · intro properties hsome
    rw [hproperties] at hsome
    cases hsome
  · intro c hsome
    rw [hitems] at hsome
    cases hsome

end Node

/-! ## Builds -/

namespace Builder

variable {g : Graph} {registry : Registry}

/-- The node of a property is as deep as there is room for the nodes it refers to. -/
theorem depth_property_le {nested : String → Except BuildError Node} {key : FieldKey}
    {p : Property} {n : Node} {d : Nat} (hd : 2 ≤ d)
    (hnested : ∀ name m, nested name = .ok m → m.toJson.depth + 1 ≤ d)
    (h : property g registry nested key p = .ok n) : n.toJson.depth ≤ d := by
  rw [property_eq_ok_iff] at h
  cases htype : p.type with
  | record name =>
    rw [htype] at h
    exact Nat.le_of_succ_le (hnested name n h)
  | enumeration name =>
    rw [htype] at h
    obtain ⟨e, -, rfl⟩ := h
    exact (Node.depth_toJson_le_two rfl rfl).trans hd
  | primitive kind =>
    rw [htype] at h
    obtain rfl := h
    exact (Node.depth_toJson_le_two rfl rfl).trans hd
  | list element =>
    rw [htype] at h
    obtain ⟨c, hc, rfl⟩ := h
    refine Node.depth_toJson_le hd (by simp [leaf]) ?_
    rintro _ ⟨⟩
    rw [elements_eq_ok_iff] at hc
    have hplain : ∀ tag, (Node.ofType ⟨tag, false⟩).toJson.depth + 1 ≤ d := fun _ => hd
    cases element with
    | record name => exact hnested name c hc
    | enumeration name =>
      obtain ⟨-, rfl⟩ := hc
      exact hplain _
    | _ =>
      obtain rfl := hc
      exact hplain _

/-- A build goes deeper only into records off its path. -/
theorem depth_buildFrom_le {path : List String} {r : Record} {n : Node}
    (h : buildFrom g registry path r = .ok n) :
    n.toJson.depth ≤ 3 * (g.offPath (path ++ [r.name])).length + 4 := by
  induction path, r using path_induction g generalizing n with
  | step path r ih =>
    obtain ⟨nodes, hnodes, rfl⟩ := buildFrom_eq_ok_iff.mp h
    refine Node.depth_toJson_le (by omega) ?_ (by simp [Node.object])
    rintro _ ⟨⟩ entry hentry
    obtain ⟨p, hp, hentry⟩ := Outcome.exists_source hnodes (Properties.mem_of_mem_ofList hentry)
    obtain ⟨-, hproperty⟩ := entry_eq_ok_iff.mp hentry
    have hdepth : entry.2.toJson.depth ≤ 3 * (g.offPath (path ++ [r.name])).length + 2 := by
      refine depth_property_le (by omega) ?_ hproperty
      intro name m hm
      obtain ⟨r', hr', hname, hbuild⟩ := enter_eq_ok_iff.mp hm
      have hinside := ih name r' hr' hname hbuild
      rw [Graph.name_of_record? hr'] at hinside
      have hfresh : (path ++ [r.name]).contains name = false := by simpa using hname
      -- one record fewer is off the path, and that pays for the three levels it adds
      have hfewer := g.length_offPath_lt hr' hfresh
      omega
    omega

end Builder

/-- **The node of a record is not deeper than the number of records allows.** -/
theorem Graph.depth_build_le {g : Graph} {registry : Registry} {r : Record} (hr : r ∈ g.records)
    {n : Node} (h : g.build registry r = .ok n) : n.toJson.depth ≤ 3 * g.records.length + 1 := by
  have hdepth := Builder.depth_buildFrom_le h
  have hfewer : (g.offPath ([] ++ [r.name])).length < g.records.length :=
    List.length_filter_lt_length_iff_exists.mpr ⟨r, hr, by simp⟩
  omega

end CollectionSchema
