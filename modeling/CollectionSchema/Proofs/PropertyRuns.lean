import CollectionSchema.Proofs.ReadNodes
import Mathlib.Data.Finset.Card

/-!
# Runs of changes to a property map

A property map starts empty and goes through changes: a node is put under a name, or the map of a
text takes its place. The history of a run are the entries that were put there one after another
since the last map was loaded, those of its text included (`Properties.history`).

* `Properties.parse_eq_map_written`: a text is read by inserting its entries.
* `Properties.change_ofList`: what one change does to the history. `Properties.run_eq_ofList`: the
  map after a run is made of its history, by induction on the changes.
* `Properties.run_insertion_ordered`: so names stand in the order of their first entries, each with
  the node of its last one. The map is read back from its text exactly if it nests no deeper than
  the reader follows, which is so if no inserted node nests deeper than 126 levels.
-/

namespace CollectionSchema

open Json (Outline Literal)

/-! ## Reading without merging -/

theorem Json.readWhole_map {ε α β : Type} {ofFault : Json.Fault → ε} {read : Outline → Except ε α}
    (f : α → β) (text : String) :
    readWhole ofFault (fun outline => do return f (← read outline)) text =
      (readWhole ofFault read text).map f := by
  unfold readWhole
  obtain ⟨value, trailing⟩ := outline text.toList
  cases hread : read value with
  | error e => simp [hread, Except.map, bind, Except.bind]
  | ok a => cases trailing <;> simp [hread, Except.map, bind, Except.bind, pure, Except.pure]

namespace Node

/-- The entries of a map in the order of the text, names of several included. -/
def listEntries (room : Nat) : Json.Members → Except ReadError (List (String × Node))
  | .close => .ok []
  | .fault f => .error (.spelling f)
  | .member name value rest => do
    let name ← ReadError.lift name.text
    let node ← read room value
    return (name, node) :: (← listEntries room rest)

def listProperties (room : Nat) : Outline → Except ReadError (List (String × Node))
  | .object members => do
    let room ← ReadError.enter room
    listEntries room members
  | outline => outline.unwanted .propertyMap

/-- Entries are inserted as they are read. -/
theorem readEntries_eq_map (room : Nat) : ∀ (members : Json.Members) (properties : Properties),
    readEntries room properties members = (listEntries room members).map fun entries =>
      entries.foldl (fun properties entry => properties.insert entry.1 entry.2) properties
  | .close, _ => rfl
  | .fault _, _ => rfl
  | .member name value rest, properties => by
    rw [readEntries, listEntries]
    cases ReadError.lift name.text with
    | error e => rfl
    | ok s =>
      cases read room value with
      | error e => rfl
      | ok node =>
        simp only [Outcome.ok_bind]
        rw [readEntries_eq_map room rest]
        cases listEntries room rest <;> rfl

theorem unwanted_map {α β : Type} {wanted : Wanted} (f : α → β) (outline : Outline) :
    (outline.unwanted wanted).map f = outline.unwanted wanted := by
  unfold Outline.unwanted
  split <;> rfl

theorem readProperties_eq_map (room : Nat) (outline : Outline) :
    readProperties room outline = (listProperties room outline).map Properties.ofList := by
  cases outline with
  | object members =>
    cases room with
    | zero => rfl
    | succ room => exact readEntries_eq_map room members []
  | number value => exact (unwanted_map Properties.ofList (.number value)).symm
  | string value => exact (unwanted_map Properties.ofList (.string value)).symm
  | _ => rfl

end Node

namespace Properties

/-- The entries of the text of a map, in order. -/
def written (text : String) : Except ReadError (List (String × Node)) :=
  Json.readWhole .spelling (Node.listProperties Json.maxNesting) text

/-- **A text is read by inserting its entries.** -/
theorem parse_eq_map_written (text : String) : parse text = (written text).map ofList := by
  have hread : Node.readProperties Json.maxNesting =
      fun outline => do return ofList (← Node.listProperties Json.maxNesting outline) := by
    funext outline
    rw [Node.readProperties_eq_map]
    cases Node.listProperties Json.maxNesting outline <;> rfl
  rw [parse, hread, Json.readWhole_map, written]

/-! ## Changes -/

/-- What is done to a map: a node is put under a name, or a text is loaded. -/
inductive Change where
  | insert (name : String) (node : Node)
  | load (text : String)

/-- The map after a change. A text that is no map changes nothing. -/
def change (properties : Properties) : Change → Properties
  | .insert name node => properties.insert name node
  | .load text => match parse text with
    | .ok loaded => loaded
    | .error _ => properties

/-- The map after changes of the empty one. -/
def run (changes : List Change) : Properties := changes.foldl change []

/-- The entries that a map is made of after one more change. -/
def note (entries : List (String × Node)) : Change → List (String × Node)
  | .insert name node => entries ++ [(name, node)]
  | .load text => match written text with
    | .ok found => found
    | .error _ => entries

/-- The entries that have been put into the map, in order, since the last map was loaded. -/
def history (changes : List Change) : List (String × Node) := changes.foldl note []

theorem ofList_append_singleton (entries : List (String × Node)) (entry : String × Node) :
    ofList (entries ++ [entry]) = (ofList entries).insert entry.1 entry.2 := by
  rw [ofList, List.foldl_append]
  rfl

/-- **The step of a run**: a map that is made of entries is made of them and what a change adds. -/
theorem change_ofList (entries : List (String × Node)) (c : Change) :
    (ofList entries).change c = ofList (note entries c) := by
  cases c with
  | insert name node => exact (ofList_append_singleton entries (name, node)).symm
  | load text =>
    rw [change, note, parse_eq_map_written]
    cases written text <;> rfl

/-- **The map after a run is made of its history.** -/
theorem run_eq_ofList (changes : List Change) : run changes = ofList (history changes) := by
  have (entries : List (String × Node)) :
      changes.foldl change (ofList entries) = ofList (changes.foldl note entries) := by
    induction changes generalizing entries with
    | nil => rfl
    | cons c rest ih => rw [List.foldl_cons, List.foldl_cons, change_ofList, ih]
  exact this []

/-! ## Maps of entries -/

/-- Names stand in the order of their first entries. -/
theorem names_ofList (entries : List (String × Node)) :
    (ofList entries).names = (entries.map (·.1)).eraseDups := by
  induction entries using List.reverseRecOn with
  | nil => rfl
  | append_singleton entries entry ih =>
    rw [ofList_append_singleton, names_insert, ih, List.map_append, List.eraseDups_append]
    by_cases hname : entry.1 ∈ entries.map (·.1)
    · simp [hname, List.removeAll]
    · simp [hname, List.removeAll, List.eraseDups_cons]

/-- A name has the node of its last entry. -/
theorem get?_ofList (entries : List (String × Node)) (name : String) :
    (ofList entries).get? name = entries.reverse.lookup name := by
  induction entries using List.reverseRecOn with
  | nil => rfl
  | append_singleton entries entry ih =>
    rw [ofList_append_singleton, get?_insert, ih, List.reverse_append, List.reverse_singleton,
      List.singleton_append, List.lookup_cons]
    by_cases hname : name = entry.1
    · simp [hname]
    · have hbeq : (name == entry.1) = false := by simpa using hname
      simp [hname, hbeq]

theorem nodup_names_ofList (entries : List (String × Node)) : (ofList entries).names.Nodup := by
  induction entries using List.reverseRecOn with
  | nil => exact List.nodup_nil
  | append_singleton entries entry ih =>
    rw [ofList_append_singleton]
    exact nodup_names_insert ih

/-- There are as many nodes as different names. -/
theorem length_ofList (entries : List (String × Node)) :
    (ofList entries).length = (entries.map (·.1)).toFinset.card := by
  have hnames : (ofList entries).names.toFinset = (entries.map (·.1)).toFinset := by
    ext name
    rw [names_ofList, List.mem_toFinset, List.mem_toFinset, List.mem_eraseDups]
  rw [← hnames, List.toFinset_card_of_nodup (nodup_names_ofList entries), names, List.length_map]

/-! ## What is in the map -/

/-- What holds of the nodes that are inserted and of those that texts hold, holds of all nodes in
the map. -/
theorem forall_mem_run {P : Node → Prop} {changes : List Change}
    (hinsert : ∀ name node, .insert name node ∈ changes → P node)
    (hload : ∀ text loaded, parse text = .ok loaded → ∀ entry ∈ loaded, P entry.2) :
    ∀ entry ∈ run changes, P entry.2 := by
  induction changes using List.reverseRecOn with
  | nil => simp [run]
  | append_singleton changes c ih =>
    have hbefore := ih fun name node hmem => hinsert name node (List.mem_append_left _ hmem)
    rw [run, List.foldl_append]
    change ∀ entry ∈ (run changes).change c, P entry.2
    cases c with
    | insert name node =>
      intro entry hentry
      rcases mem_of_mem_insert hentry with rfl | hmem
      · exact hinsert name node (by simp)
      · exact hbefore entry hmem
    | load text =>
      rw [change]
      split
      · next loaded hloaded => exact hload text loaded hloaded
      · exact hbefore

/-- The nodes of a text nest no deeper than the reader follows, less the map around them. -/
theorem fits_of_parse {text : String} {loaded : Properties} (h : parse text = .ok loaded) :
    loaded.Fits 126 := by
  obtain ⟨outline, -, hread⟩ := Json.readWhole_eq_ok_iff.mp h
  obtain ⟨inner, hroom, hfits⟩ := Node.fits_of_readProperties hread
  obtain rfl : 126 = inner := Nat.succ.inj hroom
  exact hfits

/-! ## The map is read back -/

/-- The text of a map in a style. -/
def text (style : Json.Style) (properties : Properties) : String :=
  String.ofList (Json.write style 0 properties.toJson)

/-- **A map is read back exactly if it nests no deeper than the reader follows.** -/
theorem parse_text {properties : Properties} (hnames : properties.names.Nodup)
    (hnodes : ∀ entry ∈ properties, ∀ place m, entry.2.Holds place m → m.Writable)
    (style : Json.Style) : parse (properties.text style) =
      Outcome.within (.spelling .malformed) 127 properties.toJson.depth properties := by
  have hread := Node.readsAs_properties hnames
    (fun entry hentry => entry.2.readsAs_toJson (hnodes entry hentry)) Json.maxNesting
  rw [parse, text, Json.readWhole_write_of_style hread.numbers, hread.result]
  rfl

/-- **A map keeps the order of insertion through any run.** Its names are different and stand in the
order of their first entries since the last map was loaded, each has the node of its last entry, and
there are as many nodes as names. If a text can say the inserted nodes, and the reals in the map
read back, the map is read back from its text exactly if it nests no deeper than the reader follows.
Only inserted nodes can nest deeper than that. -/
theorem run_insertion_ordered (changes : List Change) :
    (run changes).names.Nodup ∧
    (run changes).names = ((history changes).map (·.1)).eraseDups ∧
    (∀ name, (run changes).get? name = (history changes).reverse.lookup name) ∧
    (run changes).length = ((history changes).map (·.1)).toFinset.card ∧
    ((∀ name node, .insert name node ∈ changes →
        ∀ place m, node.Holds place m → m.Representable) →
      (∀ entry ∈ run changes, ∀ place m, entry.2.Holds place m →
        ∀ x, m.HasReal x → (JsonNumber.real x).ReadsBack) →
      ∀ style,
        ((run changes).toJson.depth ≤ 127 → parse ((run changes).text style) = .ok (run changes)) ∧
        (128 ≤ (run changes).toJson.depth →
          parse ((run changes).text style) = .error (.spelling .malformed))) ∧
    ((∀ name node, .insert name node ∈ changes → node.toJson.depth ≤ 126) →
      (run changes).toJson.depth ≤ 127) := by
  have hrun := run_eq_ofList changes
  refine ⟨?_, ?_, ?_, ?_, ?_, ?_⟩
  · rw [hrun]
    exact nodup_names_ofList _
  · rw [hrun, names_ofList]
  · intro name
    rw [hrun, get?_ofList]
  · rw [hrun, length_ofList]
  · intro hinserted hreals style
    have hnames : (run changes).names.Nodup := hrun ▸ nodup_names_ofList _
    have hrepresentable := forall_mem_run hinserted fun text loaded hloaded entry hentry =>
      ((fits_of_parse hloaded).nodes entry hentry).representable
    have hparse := parse_text hnames (fun entry hentry place m hm =>
      (hrepresentable entry hentry place m hm).writable (hreals entry hentry place m hm)) style
    rw [hparse]
    exact ⟨fun hdepth => if_pos hdepth, fun hdepth => if_neg (Nat.not_le.mpr hdepth)⟩
  · intro hinserted
    rw [depth_toJson_le_iff]
    exact forall_mem_run hinserted fun text loaded hloaded entry hentry =>
      ((fits_of_parse hloaded).nodes entry hentry).depth

/-! ### Runs -/

section

variable {type : BsonType} {place : Place} {m : Node}

/-- A node that says nothing but a type holds itself only. -/
theorem eq_of_holds_ofType (h : (Node.ofType type).Holds place m) : m = .ofType type := by
  rcases h.eq_or_exists_inside with rfl | ⟨c, inner, hc, -⟩
  · rfl
  · cases hc with
    | property hproperties _ => cases hproperties
    | items hitems => cases hitems

theorem writable_ofType (h : (Node.ofType type).Holds place m) : m.Writable := by
  rw [eq_of_holds_ofType h]
  exact ⟨by simp [Node.ofType], by simp [Node.ofType], by simp [Node.ofType]⟩

theorem representable_ofType (h : (Node.ofType type).Holds place m) : m.Representable := by
  rw [eq_of_holds_ofType h]
  exact ⟨by simp [Node.ofType], by simp [Node.ofType], by simp [Node.ofType]⟩

theorem not_hasReal_ofType (h : (Node.ofType type).Holds place m) (x : Binary64) :
    ¬ m.HasReal x := by
  rw [eq_of_holds_ofType h]
  simp [Node.ofType, Node.HasReal]

end

def greekMap : Properties :=
  [("zeta", .ofType ⟨.string, false⟩), ("alpha", .ofType ⟨.bool, true⟩)]

/-- The map of a text takes the place of what was there, one of its names comes again, and another
is new. -/
def greekChanges : List Change := [
  .insert "omega" (.ofType ⟨.string, true⟩),
  .load (greekMap.text .pretty),
  .insert "zeta" (.ofType ⟨.date, false⟩),
  .insert "beta" (.ofType ⟨.number, false⟩)]

theorem run_greekChanges : run greekChanges = [("zeta", .ofType ⟨.date, false⟩),
    ("alpha", .ofType ⟨.bool, true⟩), ("beta", .ofType ⟨.number, false⟩)] := by
  have hnodes : ∀ entry ∈ greekMap, ∀ place m, entry.2.Holds place m → m.Writable := by
    intro entry hentry
    rcases List.mem_pair.mp hentry with rfl | rfl <;> exact fun _ _ => writable_ofType
  have hload : parse (greekMap.text .pretty) = .ok greekMap :=
    parse_text (by decide) hnodes .pretty
  rw [run, greekChanges, List.foldl_cons, List.foldl_cons, change, change, hload]
  rfl

theorem run_insertion_ordered_greekChanges :
    (∀ name node, .insert name node ∈ greekChanges →
      ∀ place m, node.Holds place m → m.Representable) ∧
    (∀ entry ∈ run greekChanges, ∀ place m, entry.2.Holds place m →
      ∀ x, m.HasReal x → (JsonNumber.real x).ReadsBack) ∧
    (run greekChanges).names = ["zeta", "alpha", "beta"] ∧
    (run greekChanges).get? "zeta" = some (.ofType ⟨.date, false⟩) ∧
    parse ((run greekChanges).text .compact) = .ok (run greekChanges) := by
  have hinserted : ∀ name node, .insert name node ∈ greekChanges →
      ∀ place m, node.Holds place m → m.Representable := by
    intro name node hmem
    have hnode : ∃ type, node = .ofType type := by
      simp only [greekChanges, List.mem_cons, Change.insert.injEq, reduceCtorEq, List.not_mem_nil,
        or_false, false_or] at hmem
      rcases hmem with ⟨-, rfl⟩ | ⟨-, rfl⟩ | ⟨-, rfl⟩ <;> exact ⟨_, rfl⟩
    obtain ⟨type, rfl⟩ := hnode
    exact fun _ _ => representable_ofType
  have hreals : ∀ entry ∈ run greekChanges, ∀ place m, entry.2.Holds place m →
      ∀ x, m.HasReal x → (JsonNumber.real x).ReadsBack := by
    rw [run_greekChanges]
    intro entry hentry
    have hnode : ∃ type, entry.2 = .ofType type := by
      simp only [List.mem_cons, List.not_mem_nil, or_false] at hentry
      rcases hentry with rfl | rfl | rfl <;> exact ⟨_, rfl⟩
    obtain ⟨type, hnode⟩ := hnode
    rw [hnode]
    exact fun place m hm x hx => absurd hx (not_hasReal_ofType hm x)
  have hdepth : (run greekChanges).toJson.depth ≤ 127 := by
    rw [run_greekChanges]
    decide
  obtain ⟨-, -, -, -, hparse, -⟩ := run_insertion_ordered greekChanges
  refine ⟨hinserted, hreals, ?_, ?_, (hparse hinserted hreals .compact).1 hdepth⟩
  · rw [run_greekChanges]
    rfl
  · rw [run_greekChanges]
    rfl

/-- A list of 126 lists is put into the map, and the text of the map is refused. -/
theorem map_not_read_back :
    (∀ place m, (Document.listNode 126).Holds place m → m.Writable) ∧
      parse ((run [.insert "lists" (Document.listNode 126)]).text .compact) =
        .error (.spelling .malformed) := by
  have hwritable := Document.writable_listNode 126
  have hrun : run [.insert "lists" (Document.listNode 126)] =
    [("lists", Document.listNode 126)] := rfl
  have hnodes : ∀ entry ∈ [("lists", Document.listNode 126)],
      ∀ place m, Node.Holds entry.2 place m → m.Writable := by
    simpa using hwritable
  refine ⟨hwritable, ?_⟩
  rw [hrun, parse_text (by decide) hnodes .compact]
  refine if_neg ?_
  rw [depth_toJson_le_iff]
  simp [Document.depth_listNode]

end Properties

end CollectionSchema
