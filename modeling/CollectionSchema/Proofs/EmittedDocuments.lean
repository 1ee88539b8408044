import CollectionSchema.Proofs.Emission
import CollectionSchema.Proofs.NodeDepth
import CollectionSchema.Proofs.NodeShape

/-!
# Emitted documents are read back

The nodes of a graph that compiles can be written if their numbers can, so an emitted document is
read back exactly if it nests no deeper than the reader follows
(`Graph.emitted_documents_read_back`). Neither compiling nor emitting looks at the depth: with 41
records or fewer no document gets too deep, and with 42 one can (`Graph.emitted_document_refused`).
-/

namespace CollectionSchema

/-! ## Numbers of a node -/

theorem Json.mem_memberNumbers_iff {x : JsonNumber} {members : List (String × Json)} :
    x ∈ memberNumbers members ↔ ∃ member ∈ members, x ∈ member.2.numbers := by
  induction members with
  | nil => simp [memberNumbers]
  | cons member rest ih =>
    obtain ⟨name, value⟩ := member
    rw [memberNumbers, List.mem_append, ih, List.exists_mem_cons_iff]

/-- An integer that reads back fits 64 bits. -/
theorem JsonNumber.ReadsBack.le_maxUnsigned {k : Nat} (h : (integer k).ReadsBack) :
    k ≤ Json.Numeral.maxUnsigned :=
  Int.ofNat_le.mp (Json.Numeral.integer_range_of_number? h.number?_numeral).2

namespace Node

variable {n c m : Node} {x : JsonNumber}

theorem mem_numbers_of_mem_entries {entry : Field × Json} (hentry : entry ∈ n.entries)
    (hx : x ∈ entry.2.numbers) : x ∈ n.toJson.numbers := by
  rw [toJson_eq_object, Json.numbers, Json.mem_memberNumbers_iff]
  exact ⟨_, List.mem_map_of_mem hentry, hx⟩

theorem mem_numbers_of_inside (h : n.Inside c) (hx : x ∈ c.toJson.numbers) :
    x ∈ n.toJson.numbers := by
  cases h with
  | @property name properties hproperties hc =>
    have hentry : (.properties, Properties.toJson properties) ∈ n.entries := by
      simp [entries, mem_optionalEntry_iff, hproperties]
    refine mem_numbers_of_mem_entries hentry ?_
    rw [Properties.toJson, Json.numbers, Json.mem_memberNumbers_iff]
    exact ⟨_, Properties.mem_toMembers_iff.mpr ⟨_, hc, rfl⟩, hx⟩
  | items hitems =>
    have hentry : (.items, c.toJson) ∈ n.entries := by
      simp [entries, mem_optionalEntry_iff, hitems]
    exact mem_numbers_of_mem_entries hentry hx

theorem mem_numbers_of_holds {place : Place} (h : n.Holds place m) (hx : x ∈ m.toJson.numbers) :
    x ∈ n.toJson.numbers := by
  induction h with
  | root => exact hx
  | property _ hproperties hc ih => exact ih (mem_numbers_of_inside (.property hproperties hc) hx)
  | items _ hitems ih => exact ih (mem_numbers_of_inside (.items hitems) hx)

/-- A node whose numbers read back can be written, apart from the names of its properties. -/
theorem writable_of_readsBack (hnames : ∀ properties, n.properties = some properties →
    (Properties.names properties).Nodup) (h : ∀ x ∈ n.toJson.numbers, x.ReadsBack) :
    n.Writable := by
  have hkeyword : ∀ entry ∈ keywordEntries n.keywords, ∀ x ∈ entry.2.numbers, x.ReadsBack := by
    intro entry hentry x hx
    refine h x (mem_numbers_of_mem_entries ?_ hx)
    simp [entries, hentry]
  refine ⟨hnames, ?_, ?_⟩
  · intro k hk
    apply JsonNumber.ReadsBack.le_maxUnsigned
    rcases hk with hk | hk
    · exact hkeyword (.minLength, .ofNat k)
        (by simp [keywordEntries, mem_optionalEntry_iff, hk]) _ List.mem_cons_self
    · exact hkeyword (.maxLength, .ofNat k)
        (by simp [keywordEntries, mem_optionalEntry_iff, hk]) _ List.mem_cons_self
  · intro x hx
    rcases hx with hx | hx
    · exact hkeyword (.minimum, .number x)
        (by simp [keywordEntries, mem_optionalEntry_iff, hx]) _ List.mem_cons_self
    · exact hkeyword (.maximum, .number x)
        (by simp [keywordEntries, mem_optionalEntry_iff, hx]) _ List.mem_cons_self

end Node

/-! ## Documents of nodes -/

namespace Document

theorem depth_toJson (n : Node) : (toJson n).depth = n.toJson.depth + 1 := by
  rw [toJson, Json.depth, Json.memberDepth, Json.memberDepth, Nat.max_zero]

/-- A document is read with room for as many levels as the reader follows. -/
theorem parse_render_eq_within {n : Node} (h : ∀ place m, n.Holds place m → m.Writable) :
    parse (render n) =
      Outcome.within (.spelling .malformed) 127 (Json.nesting (render n).toList) n := by
  have hread := readsAs_toJson n h Json.maxNesting
  rw [nesting_render h, parse, render, Json.readWhole_write hread.numbers, hread.result]
  rfl

end Document

/-! ## Emitted documents -/

namespace Graph

variable {g : Graph} {registry : Registry} {r : Record} {n : Node}

theorem nodup_names_of_holds (hg : g.WellFormed) (hr : r ∈ g.records)
    (h : g.build registry r = .ok n) {place : Place} {m : Node} (hm : n.Holds place m)
    {properties : Properties} (hproperties : m.properties = some properties) :
    properties.names.Nodup := by
  obtain ⟨site, hsite, hfits⟩ := exists_site_of_holds hg hr h hm
  obtain ⟨s, hs⟩ := hfits.exists_record hproperties
  have hdistinct := hg.properties s (hsite.mem_of_record? hr hs)
  obtain ⟨properties', hproperties', -, hnames, -⟩ :=
    (describes_of_build_eq_ok hdistinct (hfits.build_eq_ok hs)).properties
  rw [hproperties] at hproperties'
  cases hproperties'
  exact hnames

/-- The node of a record can be written if its numbers read back. -/
theorem writable_of_holds (hg : g.WellFormed) (hr : r ∈ g.records)
    (h : g.build registry r = .ok n) (hnumbers : ∀ x ∈ n.toJson.numbers, x.ReadsBack)
    (place : Place) (m : Node) (hm : n.Holds place m) : m.Writable := by
  apply Node.writable_of_readsBack
  · intro properties hproperties
    exact nodup_names_of_holds hg hr h hm hproperties
  · intro x hx
    exact hnumbers x (Node.mem_numbers_of_holds hm hx)

/-- **An emitted document is read back exactly if it nests no deeper than the reader follows.** It
is found in the table under its collection. With 41 records or fewer none nests too deep. -/
theorem emitted_documents_read_back {c : Compiled} (h : g.compile = .ok c) {suffix : String}
    {artifacts : Artifacts} (hemit : Artifacts.emit suffix c.forest = .ok artifacts)
    (hnumbers : ∀ schema ∈ c.forest, ∀ x ∈ schema.node.toJson.numbers, x.ReadsBack) :
    List.Forall₂ (fun schema doc => doc = Artifacts.document suffix schema ∧
      artifacts.table.bind (·.get? schema.collection) = some doc.text ∧
      (Json.nesting doc.text.toList ≤ 127 → Document.parse doc.text = .ok schema.node) ∧
      (128 ≤ Json.nesting doc.text.toList →
        Document.parse doc.text = .error (.spelling .malformed))) c.forest artifacts.documents ∧
    (g.records.length ≤ 41 →
      ∀ doc ∈ artifacts.documents, Json.nesting doc.text.toList ≤ 127) := by
  obtain ⟨hg, -⟩ := compile_eq_ok_iff.mp h
  obtain ⟨hartifacts, -⟩ := Artifacts.emit_eq_ok_iff.mp hemit
  have hdocuments : artifacts.documents = c.forest.map (Artifacts.document suffix) := by
    rw [hartifacts]
  have hwritable : ∀ schema ∈ c.forest, ∀ place m, schema.node.Holds place m → m.Writable := by
    intro schema hschema
    obtain ⟨root, hroot, -, hbuild⟩ := exists_root_of_mem_forest h hschema
    exact writable_of_holds hg hroot hbuild (hnumbers schema hschema)
  rw [hdocuments]
  constructor
  · rw [List.forall₂_map_right_iff, List.forall₂_same]
    intro schema hschema
    have hparse := Document.parse_render_eq_within (hwritable schema hschema)
    refine ⟨rfl, Artifacts.get?_of_emit hemit hschema, ?_, ?_⟩
    · intro hdepth
      exact hparse.trans (if_pos hdepth)
    · intro hdepth
      exact hparse.trans (if_neg (Nat.not_le.mpr hdepth))
  · intro hfew doc hdoc
    obtain ⟨schema, hschema, rfl⟩ := List.mem_map.mp hdoc
    obtain ⟨root, hroot, -, hbuild⟩ := exists_root_of_mem_forest h hschema
    have hdepth := depth_build_le hroot hbuild
    have hnesting := Document.nesting_render (hwritable schema hschema)
    rw [Document.depth_toJson] at hnesting
    change Json.nesting (Document.render schema.node).toList ≤ 127
    omega

/-! ### Boxes in boxes -/

def boxName (i : Nat) : String := String.ofList (List.replicate (i + 1) 'b')

theorem boxName_injective : Function.Injective boxName := by
  intro i j h
  have hlength := congrArg List.length (String.ofList_injective h)
  simpa using hlength

/-- Box `i` holds boxes that hold boxes, and so on `k` times. The last ones have a size. -/
def box (i k : Nat) : Record where
  name := boxName i
  root := if i = 0 then some ⟨some "boxes"⟩ else none
  properties := match k with
    | 0 => [⟨"size", .primitive .int, true, []⟩]
    | _ + 1 => [⟨"inner", .list (.record (boxName (i + 1))), false, []⟩]

/-- A box and `k` boxes inside one another in it. -/
def boxes (k : Nat) : Graph where
  records := (List.range (k + 1)).map fun i => box i (k - i)
  enums := []
  pending := []

def boxNode : Nat → Node
  | 0 =>
    .object [] [("size",
      { type := ⟨.number, true⟩, keywords := { minimum := some (.integer 1) } })]
  | k + 1 => .object ["inner"] [("inner", { type := ⟨.array, false⟩, items := some (boxNode k) })]

def boxSchema (k : Nat) : CompiledSchema :=
  ⟨(box 0 k).name, (box 0 k).simpleName, "boxes", boxNode k⟩

theorem mem_boxes {i k l : Nat} (h : i + k = l) : box i k ∈ (boxes l).records := by
  refine List.mem_map.mpr ⟨i, List.mem_range.mpr (by omega), ?_⟩
  rw [← h, Nat.add_sub_cancel_left]

theorem wellFormed_boxes (k : Nat) : (boxes k).WellFormed := by
  refine ⟨?_, ?_, by simp [boxes], by simp [boxes], by simp [boxes]⟩
  · have hnames : (boxes k).records.map (·.name) = (List.range (k + 1)).map boxName := by
      simp [boxes, box]
    rw [hnames]
    exact List.nodup_range.map boxName_injective
  · intro r hr
    obtain ⟨i, -, rfl⟩ := List.mem_map.mp hr
    cases k - i <;> simp [box]

theorem collect_boxes (k : Nat) : Registry.collect (boxes k) = .ok .empty := by
  apply Registry.collect_eq_empty
  intro r hr p hp
  obtain ⟨i, -, rfl⟩ := List.mem_map.mp hr
  cases hheld : k - i with
  | zero =>
    rw [hheld] at hp
    rw [List.mem_singleton.mp hp]
  | succ l =>
    rw [hheld] at hp
    rw [List.mem_singleton.mp hp]

theorem buildFrom_box {i k l : Nat} (h : i + k = l) {path : List String}
    (hpath : ∀ j, i ≤ j → boxName j ∉ path) :
    Builder.buildFrom (boxes l) .empty path (box i k) = .ok (boxNode k) := by
  induction k generalizing i path with
  | zero =>
    refine Builder.buildFrom_eq_ok_iff.mpr ⟨[("size",
      { type := ⟨.number, true⟩, keywords := { minimum := some (.integer 1) } })], ?_, rfl⟩
    exact .cons (Builder.entry_eq_ok_iff.mpr ⟨rfl, Builder.property_eq_ok_iff.mpr rfl⟩) .nil
  | succ k ih =>
    have hinner : i + 1 + k = l := by omega
    have hfound : (boxes l).record? (boxName (i + 1)) = some (box (i + 1) k) :=
      (wellFormed_boxes l).record?_name (mem_boxes hinner)
    have hfresh : ∀ j, i + 1 ≤ j → boxName j ∉ path ++ [boxName i] := by
      intro j hj hmem
      rcases List.mem_append.mp hmem with hmem | hmem
      · exact hpath j (by omega) hmem
      · have heq := boxName_injective (List.mem_singleton.mp hmem)
        omega
    have henter : ∀ key, Builder.enter (boxes l) .empty (path ++ [boxName i]) key
        (boxName (i + 1)) = .ok (boxNode k) := fun key => Builder.enter_eq_ok_iff.mpr
      ⟨_, hfound, hfresh (i + 1) (Nat.le_refl _), ih hinner hfresh⟩
    refine Builder.buildFrom_eq_ok_iff.mpr ⟨[("inner",
      { type := ⟨.array, false⟩, items := some (boxNode k) })], .cons ?_ .nil, rfl⟩
    refine Builder.entry_eq_ok_iff.mpr ⟨rfl, Builder.property_eq_ok_iff.mpr ?_⟩
    exact ⟨_, Builder.elements_eq_ok_iff.mpr (henter _), rfl⟩

theorem roots_boxes (k : Nat) : (boxes k).roots = [box 0 k] := by
  have hothers : ((List.range k).map fun i => box (i + 1) (k - (i + 1))).filter (·.isRoot) = [] :=
    by simp [List.filter_eq_nil_iff, Record.isRoot, box]
  rw [roots, boxes, List.range_succ_eq_map, List.map_cons, List.map_map, List.filter_cons_of_pos]
  · exact congrArg _ hothers
  · rfl

theorem compile_boxes (k : Nat) : (boxes k).compile = .ok ⟨[boxSchema k], [], .empty⟩ := by
  have hcomplete : (boxes k).deferral? (box 0 k) = none := by
    cases k with
    | zero => rfl
    | succ k =>
      have hfound : (boxes (k + 1)).record? (boxName 1) = some (box 1 k) :=
        (wellFormed_boxes (k + 1)).record?_name (mem_boxes (Nat.add_comm 1 k))
      have hdeclared : (boxes (k + 1)).declares (boxName 1) = true := by simp [declares, hfound]
      have hpending : ∀ name, (boxes (k + 1)).isPending name = false := fun _ => rfl
      simp [deferral?, hpending, box, unresolvedName?, TypeRef.declaration?, hdeclared]
  have hsettle : (boxes k).settle .empty (box 0 k) = .ok (.compiled (boxSchema k)) := by
    refine settle_eq_compiled_iff.mpr ⟨hcomplete, "boxes", boxNode k, ?_, ?_, rfl⟩
    · rfl
    · exact buildFrom_box (Nat.zero_add k) fun _ _ => List.not_mem_nil
  refine compile_eq_ok_iff.mpr ⟨wellFormed_boxes k, collect_boxes k, [.compiled (boxSchema k)],
    ?_, rfl, rfl⟩
  rw [roots_boxes]
  exact .cons hsettle .nil

theorem depth_boxNode (k : Nat) : (boxNode k).toJson.depth = 3 * k + 4 := by
  induction k with
  | zero => rfl
  | succ k ih =>
    have hdepth : (boxNode (k + 1)).toJson.depth = (boxNode k).toJson.depth + 3 := by
      simp [boxNode, Node.object, Node.toJson, Node.propertiesMember, Node.toMembers,
        Node.itemsMember, Keywords.members, Keywords.optional, BsonType.toJson, Json.ofStrings,
        Json.depth, Json.memberDepth, Json.itemDepth]
    omega

theorem numbers_boxNode (k : Nat) : (boxNode k).toJson.numbers = [.integer 1] := by
  induction k with
  | zero => rfl
  | succ k ih =>
    simpa [boxNode, Node.object, Node.toJson, Node.propertiesMember, Node.toMembers,
      Node.itemsMember, Keywords.members, Keywords.optional, BsonType.toJson, Json.ofStrings,
      Json.numbers, Json.memberNumbers, Json.itemNumbers] using ih

theorem readsBack_of_mem_boxNode (k : Nat) :
    ∀ schema ∈ [boxSchema k], ∀ x ∈ schema.node.toJson.numbers, x.ReadsBack := by
  intro schema hschema x hx
  rw [List.mem_singleton.mp hschema, boxSchema, numbers_boxNode] at hx
  rw [List.mem_singleton.mp hx]
  exact Json.readsBack_integer (by decide) (by decide)

theorem emit_boxes (k : Nat) :
    Artifacts.emit "Schema" [boxSchema k] = .ok ⟨[Artifacts.document "Schema" (boxSchema k)],
      Artifacts.tableOf [Artifacts.document "Schema" (boxSchema k)]⟩ :=
  Artifacts.emit_eq_ok_iff.mpr ⟨rfl, List.pairwise_singleton ..⟩

theorem parse_boxes (k : Nat) : Document.parse (Document.render (boxNode k)) =
    Outcome.within (.spelling .malformed) 127 (3 * k + 5) (boxNode k) := by
  have hbuild : (boxes k).build .empty (box 0 k) = .ok (boxNode k) :=
    buildFrom_box (Nat.zero_add k) fun _ _ => List.not_mem_nil
  have hwritable := writable_of_holds (wellFormed_boxes k) (mem_boxes (Nat.zero_add k)) hbuild
    (readsBack_of_mem_boxNode k _ List.mem_cons_self)
  rw [Document.parse_render_eq_within hwritable, Document.nesting_render hwritable,
    Document.depth_toJson, depth_boxNode]

/-- The document of 41 boxes inside one another is read back. -/
theorem emitted_documents_read_back_boxes :
    ∃ c artifacts, (boxes 40).compile = .ok c ∧
      Artifacts.emit "Schema" c.forest = .ok artifacts ∧
      (∀ schema ∈ c.forest, ∀ x ∈ schema.node.toJson.numbers, x.ReadsBack) ∧
      artifacts.documents ≠ [] ∧
      ∀ doc ∈ artifacts.documents, Document.parse doc.text = .ok (boxNode 40) ∧
        artifacts.table.bind (·.get? "boxes") = some doc.text := by
  have hnumbers := readsBack_of_mem_boxNode 40
  obtain ⟨hdocuments, hnesting⟩ :=
    emitted_documents_read_back (compile_boxes 40) (emit_boxes 40) hnumbers
  have hfew : (boxes 40).records.length ≤ 41 := by simp [boxes]
  refine ⟨_, _, compile_boxes 40, emit_boxes 40, hnumbers, List.cons_ne_nil _ _, ?_⟩
  intro doc hdoc
  obtain ⟨schema, hschema, -, htable, hparse, -⟩ := Outcome.exists_source hdocuments hdoc
  rw [List.mem_singleton.mp hschema] at htable hparse
  exact ⟨hparse (hnesting hfew doc hdoc), htable⟩

/-- With 42 boxes inside one another, what is emitted is refused. -/
theorem emitted_document_refused :
    ∃ c artifacts, (boxes 41).compile = .ok c ∧
      Artifacts.emit "Schema" c.forest = .ok artifacts ∧
      (∀ schema ∈ c.forest, ∀ x ∈ schema.node.toJson.numbers, x.ReadsBack) ∧
      ∃ doc ∈ artifacts.documents, Document.parse doc.text = .error (.spelling .malformed) := by
  refine ⟨_, _, compile_boxes 41, emit_boxes 41, readsBack_of_mem_boxNode 41, _,
    List.mem_cons_self, ?_⟩
  exact (parse_boxes 41).trans (if_neg (by decide))

end Graph

end CollectionSchema
