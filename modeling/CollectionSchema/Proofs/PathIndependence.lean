import CollectionSchema.Compile.Builder
import CollectionSchema.Proofs.Outcome
import Mathlib.Data.List.Nodup

/-!
# Nodes do not depend on the path

A record is built from a path of the records around it. The path decides only whether the
build goes through: a build that succeeds from a path succeeds with the same node from every
part of it (`buildFrom_mono`), and so from the empty one. Hence the nodes inside a node are
themselves builds from the empty path:

* `build_eq_ok`: the properties of a node that `Graph.build` returns, one for each property of
  the record, in order, where the records inside are built by `Graph.build` again.
* `property_eq_ok_iff`, `elements_eq_ok_iff`: which node a property and a list element get.
-/

namespace CollectionSchema

namespace TypeRef

/-- The name of the record that is built in the place of a property of the type, or of the
elements of a list. Lists of lists have no such place. -/
def inlined? : TypeRef → Option String
  | record name | list (record name) => some name
  | _ => none

/-- The name of the enumeration that is looked up for a property of the type. -/
def enumerated? : TypeRef → Option String
  | enumeration name | list (enumeration name) => some name
  | _ => none

theorem inlined?_eq_some_iff {type : TypeRef} {name : String} :
    type.inlined? = some name ↔ type = .record name ∨ type = .list (.record name) := by
  cases type with
  | list element => cases element <;> simp [inlined?]
  | _ => simp [inlined?]

theorem enumerated?_eq_some_iff {type : TypeRef} {name : String} :
    type.enumerated? = some name ↔ type = .enumeration name ∨ type = .list (.enumeration name) := by
  cases type with
  | list element => cases element <;> simp [enumerated?]
  | _ => simp [enumerated?]

end TypeRef

/-! ## Insertion of distinct names -/

namespace Properties

theorem insert_of_not_mem {name : String} {node : Node} {properties : Properties}
    (h : name ∉ properties.names) :
    properties.insert name node = properties ++ [(name, node)] := by
  induction properties with
  | nil => rfl
  | cons entry rest ih =>
    obtain ⟨other, old⟩ := entry
    simp only [names, List.map_cons, List.mem_cons, not_or] at h
    rw [insert, if_neg (Ne.symm h.1), ih h.2, List.cons_append]

theorem foldl_insert_of_nodup (properties entries : List (String × Node))
    (h : (names (properties ++ entries)).Nodup) :
    entries.foldl (fun properties entry => insert entry.1 entry.2 properties) properties =
      properties ++ entries := by
  induction entries generalizing properties with
  | nil => simp
  | cons entry rest ih =>
    have hfresh : entry.1 ∉ names properties := by
      simp only [names, List.map_append, List.map_cons, List.nodup_append] at h ⊢
      exact fun hmem => h.2.2 entry.1 hmem entry.1 List.mem_cons_self rfl
    rw [List.foldl_cons, insert_of_not_mem hfresh, ih _ (by simpa using h)]
    simp

/-- Entries with distinct names are kept as they are. -/
theorem ofList_of_nodup {entries : List (String × Node)} (h : (names entries).Nodup) :
    ofList entries = entries := by
  simpa [ofList] using foldl_insert_of_nodup [] entries (by simpa using h)

/-- Entries that were made one for each property have the names of the properties. -/
theorem names_eq_map {entries : List (String × Node)} {properties : List Property}
    (h : List.Forall₂ (fun p e => e.1 = p.name) properties entries) :
    names entries = properties.map (·.name) := by
  induction h with
  | nil => rfl
  | cons hname _ ih =>
    simp only [names, List.map_cons, hname] at ih ⊢
    rw [ih]

end Properties

/-- The node of the record with a name, wherever it is inlined. -/
def Graph.buildNamed (g : Graph) (registry : Registry) (key : FieldKey) (name : String) :
    Except BuildError Node :=
  match g.record? name with
  | none => .error (.unresolved key name)
  | some r => g.build registry r

namespace Builder

variable {g : Graph} {registry : Registry}

/-! ## One step of the build -/

/-- The node of the record with a name that is entered from a path. -/
def enter (g : Graph) (registry : Registry) (path : List String) (key : FieldKey)
    (name : String) : Except BuildError Node :=
  match g.record? name with
  | none => .error (.unresolved key name)
  | some r =>
    if path.contains name then .error (.cyclic key (path ++ [name]))
    else buildFrom g registry path r

/-- A property of a record with its node, where `nested` builds the records inside. -/
def entry (g : Graph) (registry : Registry)
    (nested : FieldKey → String → Except BuildError Node) (r : Record) (p : Property) :
    Except BuildError (String × Node) := do
  return (p.name, ← property g registry (nested ⟨r.name, p.name⟩) ⟨r.name, p.name⟩ p)

theorem buildFrom_eq (path : List String) (r : Record) :
    buildFrom g registry path r = (do
      let nodes ← r.properties.mapM (entry g registry (enter g registry (path ++ [r.name])) r)
      return .object (required r) (.ofList nodes)) := by
  rw [buildFrom]
  congr 2
  funext p
  dsimp only [entry]
  congr 2
  funext name
  unfold enter
  split
  · rename_i h
    simp [h]
  · rename_i r' h
    simp [h]

/-- What the node of a property says apart from the node that its type refers to. -/
def leaf (registry : Registry) (key : FieldKey) (p : Property) : Node :=
  { type := ⟨p.type.tag, p.nullable⟩, keywords := keywords registry key p.type }

theorem elements_eq_ok_iff {nested : String → Except BuildError Node} {key : FieldKey}
    {type : TypeRef} {n : Node} :
    elements g nested key type = .ok n ↔
      match type with
      | .record name => nested name = .ok n
      | .enumeration name => (g.enum? name).isSome ∧ n = .ofType ⟨.string, false⟩
      | type => n = .ofType ⟨type.tag, false⟩ := by
  cases type with
  | record name => rfl
  | enumeration name => cases h : g.enum? name <;> simp [elements, h, eq_comm]
  | primitive kind => simp [elements, eq_comm]
  | list element => simp [elements, eq_comm]

theorem property_eq_ok_iff {nested : String → Except BuildError Node} {key : FieldKey}
    {p : Property} {n : Node} :
    property g registry nested key p = .ok n ↔
      match p.type with
      | .record name => nested name = .ok n
      | .enumeration name => ∃ e, g.enum? name = some e ∧
          n = { leaf registry key p with enumValues := some (enumValues e p.nullable) }
      | .list element => ∃ m, elements g nested key element = .ok m ∧
          n = { leaf registry key p with items := some m }
      | .primitive _ => n = leaf registry key p := by
  unfold property leaf
  cases p.type with
  | record name => rfl
  | enumeration name =>
    cases h : g.enum? name <;> simp only [h, Except.ok.injEq, Option.some.injEq, reduceCtorEq,
      false_and, exists_false, exists_eq_left', eq_comm]
  | primitive kind => simp [eq_comm]
  | list element =>
    simp only [Outcome.bind_eq_ok_iff, Outcome.pure_eq_ok_iff]
    exact exists_congr fun m => and_congr_right fun _ => eq_comm

/-- A property has a node exactly if its record is built and its enumeration is declared. -/
theorem exists_property_eq_ok_iff {nested : String → Except BuildError Node} {key : FieldKey}
    {p : Property} :
    (∃ n, property g registry nested key p = .ok n) ↔
      (∀ name, p.type.inlined? = some name → ∃ n, nested name = .ok n) ∧
        ∀ name, p.type.enumerated? = some name → (g.enum? name).isSome := by
  simp only [property_eq_ok_iff]
  cases p.type with
  | record name => simp [TypeRef.inlined?, TypeRef.enumerated?]
  | enumeration name => simp [TypeRef.inlined?, TypeRef.enumerated?, Option.isSome_iff_exists]
  | primitive kind => simp [TypeRef.inlined?, TypeRef.enumerated?]
  | list element =>
    simp only [elements_eq_ok_iff]
    cases element <;> simp [TypeRef.inlined?, TypeRef.enumerated?]

/-! ## Shorter paths -/

/-- A builder of records that succeeds more often gives properties the same nodes. -/
theorem property_mono {nested nested' : String → Except BuildError Node} {key : FieldKey}
    {p : Property} {n : Node}
    (hnested : ∀ name m, nested name = .ok m → nested' name = .ok m)
    (h : property g registry nested key p = .ok n) :
    property g registry nested' key p = .ok n := by
  have helements : ∀ type m, elements g nested key type = .ok m →
      elements g nested' key type = .ok m := by
    intro type m hm
    rw [elements_eq_ok_iff] at hm ⊢
    cases type with
    | record name => exact hnested name m hm
    | _ => exact hm
  rw [property_eq_ok_iff] at h ⊢
  cases htype : p.type with
  | record name =>
    rw [htype] at h
    exact hnested name n h
  | list element =>
    rw [htype] at h
    obtain ⟨m, hm, hn⟩ := h
    exact ⟨m, helements element m hm, hn⟩
  | _ =>
    rw [htype] at h
    exact h

theorem entry_eq_ok_iff {nested : FieldKey → String → Except BuildError Node} {r : Record}
    {p : Property} {e : String × Node} :
    entry g registry nested r p = .ok e ↔ e.1 = p.name ∧
      property g registry (nested ⟨r.name, p.name⟩) ⟨r.name, p.name⟩ p = .ok e.2 := by
  obtain ⟨name, n⟩ := e
  simp only [entry, Outcome.bind_eq_ok_iff, Outcome.pure_eq_ok_iff, Prod.mk.injEq]
  constructor
  · rintro ⟨m, hm, rfl, rfl⟩
    exact ⟨rfl, hm⟩
  · rintro ⟨rfl, hn⟩
    exact ⟨n, hn, rfl, rfl⟩

/-- The node of a record entered from a path, by the nodes of its properties. -/
theorem buildFrom_eq_ok_iff {path : List String} {r : Record} {n : Node} :
    buildFrom g registry path r = .ok n ↔ ∃ nodes,
      List.Forall₂ (fun p e => entry g registry (enter g registry (path ++ [r.name])) r p = .ok e)
        r.properties nodes ∧ n = .object (required r) (.ofList nodes) := by
  rw [buildFrom_eq]
  simp only [Outcome.bind_eq_ok_iff, Outcome.pure_eq_ok_iff, Outcome.mapM_eq_ok_iff]
  exact exists_congr fun nodes => and_congr_right fun _ => eq_comm

theorem enter_eq_ok_iff {path : List String} {key : FieldKey} {name : String} {n : Node} :
    enter g registry path key name = .ok n ↔
      ∃ r, g.record? name = some r ∧ name ∉ path ∧ buildFrom g registry path r = .ok n := by
  unfold enter
  cases g.record? name with
  | none => simp
  | some r => by_cases h : name ∈ path <;> simp [h]

/-- Induction along paths: a statement about a record entered from a path may be taken for
granted for the declared records that are not on the path yet. -/
theorem path_induction (g : Graph) {motive : List String → Record → Prop}
    (step : ∀ path r, (∀ name r', g.record? name = some r' → name ∉ path ++ [r.name] →
      motive (path ++ [r.name]) r') → motive path r) (path : List String) (r : Record) :
    motive path r :=
  buildFrom.induct g motive
    (fun path r ih => step path r fun name r' hr hname => ih name r' hr (by simpa using hname))
    path r

/-- **A build that succeeds from a path succeeds with the same node from a part of it.** -/
theorem buildFrom_mono {path path' : List String} {r : Record} {n : Node}
    (hsub : path' ⊆ path) (h : buildFrom g registry path r = .ok n) :
    buildFrom g registry path' r = .ok n := by
  induction path, r using path_induction g generalizing path' n with
  | step path r ih =>
    obtain ⟨nodes, hnodes, hn⟩ := buildFrom_eq_ok_iff.mp h
    refine buildFrom_eq_ok_iff.mpr ⟨nodes, hnodes.imp fun p e he => ?_, hn⟩
    obtain ⟨hname, hproperty⟩ := entry_eq_ok_iff.mp he
    refine entry_eq_ok_iff.mpr ⟨hname, property_mono (fun name m hm => ?_) hproperty⟩
    -- both builds enter the record behind the same name, on paths that grow alike
    obtain ⟨r', hr', hname', hbuild⟩ := enter_eq_ok_iff.mp hm
    have hinside : path' ++ [r.name] ⊆ path ++ [r.name] :=
      List.append_subset.mpr ⟨fun x hx => List.mem_append_left _ (hsub hx),
        List.subset_append_right _ _⟩
    exact enter_eq_ok_iff.mpr ⟨r', hr', fun hmem => hname' (hinside hmem),
      ih name r' hr' hname' hinside hbuild⟩

end Builder

/-! ## Builds inside builds -/

namespace Graph

variable {g : Graph} {registry : Registry}

theorem buildNamed_eq_ok_iff {key : FieldKey} {name : String} {n : Node} :
    g.buildNamed registry key name = .ok n ↔
      ∃ r, g.record? name = some r ∧ g.build registry r = .ok n := by
  unfold buildNamed
  cases g.record? name <;> simp

/-- **The records inside a node are built as if they stood alone.** The node of a record has an
entry for each property, in order, where inlined records have the nodes of `Graph.build`. -/
theorem build_eq_ok {r : Record} (hr : (r.properties.map (·.name)).Nodup) {n : Node}
    (h : g.build registry r = .ok n) :
    ∃ nodes, List.Forall₂
        (fun p e => e.1 = p.name ∧ Builder.property g registry
          (g.buildNamed registry ⟨r.name, p.name⟩) ⟨r.name, p.name⟩ p = .ok e.2)
        r.properties nodes ∧
      n = .object (Builder.required r) nodes := by
  obtain ⟨nodes, hnodes, hn⟩ := Builder.buildFrom_eq_ok_iff.mp h
  have hentries : List.Forall₂ (fun p e => e.1 = p.name ∧ Builder.property g registry
      (g.buildNamed registry ⟨r.name, p.name⟩) ⟨r.name, p.name⟩ p = .ok e.2)
      r.properties nodes := by
    refine hnodes.imp fun p e he => ?_
    obtain ⟨hname, hproperty⟩ := Builder.entry_eq_ok_iff.mp he
    refine ⟨hname, Builder.property_mono (fun name m hm => ?_) hproperty⟩
    obtain ⟨r', hr', -, hbuild⟩ := Builder.enter_eq_ok_iff.mp hm
    exact buildNamed_eq_ok_iff.mpr ⟨r', hr', Builder.buildFrom_mono (List.nil_subset _) hbuild⟩
  have hnames : Properties.names nodes = r.properties.map (·.name) :=
    Properties.names_eq_map (hentries.imp fun p e he => he.1)
  rw [Properties.ofList_of_nodup (hnames ▸ hr)] at hn
  exact ⟨nodes, hentries, hn⟩

end Graph

end CollectionSchema
