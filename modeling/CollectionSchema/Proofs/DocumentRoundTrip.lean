import CollectionSchema.Proofs.Places
import CollectionSchema.Proofs.TypedReading
import CollectionSchema.Schema.Document

/-!
# Documents are read back

The text of a document is read back as the node that it was written from, if its arrays and objects
nest no deeper than the reader follows (`Document.parse_render`). Members of a node are read one
after another: each sets its field (`Node.Sets`), and the fields of a written node are distinct.
-/

namespace CollectionSchema

open Json (Outline Literal)
open Outcome (within within_zero within_bind within_map)

namespace Node

/-! ## Members of a node -/

namespace Field

theorem ofName?_name (field : Field) : ofName? field.name = some field := by
  cases field <;> decide

theorem nodup_all : all.Nodup := by decide

end Field

/-- Reads a member and sets its field. -/
def setField (room : Nat) (node : Node) (field : Field) (value : Outline) :
    Except ReadError Node :=
  match field with
  | .properties =>
    if value.isNull then pure node
    else return { node with properties := some (← readProperties room value) }
  | .items =>
    if value.isNull then pure node
    else return { node with items := some (← read room value) }
  | field => setPlain room node field value

/-- A member is skimmed, or it is the first of its field and sets it. -/
theorem readMembers_member_eq (room : Nat) (seen : List Field) (node : Node) (name : Literal)
    (value : Outline) (rest : Json.Members) :
    readMembers room seen node (.member name value rest) = (do
      let name ← ReadError.lift name.text
      match Field.ofName? name with
      | none => ReadError.lift value.skim >>= fun _ => readMembers room seen node rest
      | some field =>
        if field ∈ seen then .error (.shape (.duplicateField name))
        else setField room node field value >>= fun node =>
          readMembers room (field :: seen) node rest) := by
  rw [readMembers]
  congr 1
  funext name
  cases Field.ofName? name with
  | none => rfl
  | some field =>
    simp only
    congr 1
    cases field
    case properties =>
      rw [setField]
      cases value.isNull
      · cases readProperties room value <;> rfl
      · rfl
    case items =>
      rw [setField]
      cases value.isNull
      · cases read room value <;> rfl
      · rfl
    all_goals rfl

theorem readMembers_member {room : Nat} {seen : List Field} {node : Node} {field : Field}
    {value : Outline} {rest : Json.Members} (h : field ∉ seen) :
    readMembers room seen node (.member (Literal.ofChars field.name.toList) value rest) =
      setField room node field value >>= fun node =>
        readMembers room (field :: seen) node rest := by
  rw [readMembers_member_eq, Literal.text_ofChars, ReadError.lift, Outcome.ok_bind]
  simp only [Field.ofName?_name, h, if_false]

/-- An optional member, which is left out where it is absent. -/
def optionalEntry {α : Type} (field : Field) (toJson : α → Json) : Option α → List (Field × Json)
  | none => []
  | some value => [(field, toJson value)]

def keywordEntries (k : Keywords) : List (Field × Json) :=
  optionalEntry .pattern .string k.pattern ++ optionalEntry .minLength .ofNat k.minLength ++
    optionalEntry .maxLength .ofNat k.maxLength ++ optionalEntry .minimum .number k.minimum ++
    optionalEntry .maximum .number k.maximum

/-- The members of a node by their fields. -/
def entries (n : Node) : List (Field × Json) :=
  [(.type, n.type.toJson)] ++
    (if n.required.isEmpty then [] else [(.required, .ofStrings n.required)]) ++
    optionalEntry .properties Properties.toJson n.properties ++
    optionalEntry .enumValues enumJson n.enumValues ++ keywordEntries n.keywords ++
    optionalEntry .items toJson n.items

/-- Entries as members of an object. -/
def named (entries : List (Field × Json)) : List (String × Json) :=
  entries.map fun entry => (entry.1.name, entry.2)

theorem named_append (entries rest : List (Field × Json)) :
    named (entries ++ rest) = named entries ++ named rest := List.map_append

theorem named_optionalEntry {α : Type} (field : Field) (toJson : α → Json) (value : Option α) :
    named (optionalEntry field toJson value) = Keywords.optional field.name toJson value := by
  cases value <;> rfl

theorem named_keywordEntries (k : Keywords) : named (keywordEntries k) = k.members := by
  simp only [keywordEntries, named_append, named_optionalEntry]
  rfl

theorem toJson_eq_object (n : Node) : n.toJson = .object (named n.entries) := by
  obtain ⟨type, required, properties, enumValues, keywords, items⟩ := n
  have hrequired : named (if required.isEmpty then [] else [(.required, .ofStrings required)]) =
      if required.isEmpty then [] else [("required", Json.ofStrings required)] := by
    split <;> rfl
  have hproperties : propertiesMember properties =
      Keywords.optional "properties" Properties.toJson properties := by cases properties <;> rfl
  have hitems : itemsMember items = Keywords.optional "items" toJson items := by
    cases items <;> rfl
  simp only [toJson, entries, named_append, named_optionalEntry, named_keywordEntries, hrequired,
    hproperties, hitems]
  rfl

theorem fields_optionalEntry {α : Type} (field : Field) (toJson : α → Json) (value : Option α) :
    ((optionalEntry field toJson value).map Prod.fst).Sublist [field] := by
  cases value with
  | none => exact List.nil_sublist _
  | some value => exact List.Sublist.refl _

/-- A written node has no field twice. -/
theorem nodup_fields (n : Node) : (n.entries.map Prod.fst).Nodup := by
  have hrequired : ((if n.required.isEmpty then []
      else [(Field.required, Json.ofStrings n.required)]).map Prod.fst).Sublist [.required] := by
    split
    · exact List.nil_sublist _
    · exact List.Sublist.refl _
  have hkeywords : ((keywordEntries n.keywords).map Prod.fst).Sublist
      [.pattern, .minLength, .maxLength, .minimum, .maximum] := by
    simp only [keywordEntries, List.map_append]
    exact ((((fields_optionalEntry ..).append (fields_optionalEntry ..)).append
      (fields_optionalEntry ..)).append (fields_optionalEntry ..)).append (fields_optionalEntry ..)
  have hfields : (n.entries.map Prod.fst).Sublist Field.all := by
    simp only [entries, List.map_append]
    exact (((((List.Sublist.refl [Field.type]).append hrequired).append
      (fields_optionalEntry ..)).append (fields_optionalEntry ..)).append hkeywords).append
      (fields_optionalEntry ..)
  exact Field.nodup_all.sublist hfields

/-! ## Reading the members -/

/-- Reading entries one after another takes one node to another. -/
inductive Sets (room : Nat) : List (Field × Json) → Node → Node → Prop
  | nil (n : Node) : Sets room [] n n
  | cons {field : Field} {value : Json} {rest : List (Field × Json)} {n m k : Node} :
      value.ReadsAs room (setField room n field) m → Sets room rest m k →
        Sets room ((field, value) :: rest) n k

namespace Sets

variable {room : Nat} {n m k : Node}

theorem append {entries rest : List (Field × Json)} (h : Sets room entries n m)
    (hrest : Sets room rest m k) : Sets room (entries ++ rest) n k := by
  induction h with
  | nil => exact hrest
  | cons hvalue _ ih => exact .cons hvalue (ih hrest)

/-- A member whose value is read into a field. -/
theorem single {α : Type} {field : Field} {value : Json} {read : Outline → Except ReadError α}
    {a : α} (f : α → Node) (hread : value.ReadsAs room read a)
    (hset : setField room n field value.toOutline = do return f (← read value.toOutline)) :
    Sets room [(field, value)] n (f a) := by
  have hvalue : value.ReadsAs room (setField room n field) (f a) :=
    ⟨hread.numbers, hset.trans (hread.map f).result⟩
  exact .cons hvalue (.nil (f a))

theorem optional {α : Type} {field : Field} {toJson : α → Json} {f : Option α → Node}
    {value : Option α} (hnone : f none = n)
    (hsome : ∀ a, value = some a → Sets room [(field, toJson a)] n (f (some a))) :
    Sets room (optionalEntry field toJson value) n (f value) := by
  cases value with
  | none =>
    rw [hnone]
    exact .nil n
  | some a => exact hsome a rfl

/-- A member that may be null sets its field to what is read, and null to nothing. -/
theorem nullable {α : Type} {field : Field} {toJson : α → Json} {value : Option α}
    {read : Outline → Except ReadError α} (f : Option α → Node) (hnone : f none = n)
    (hread : ∀ a, value = some a → (toJson a).ReadsAs room read a)
    (hnull : ∀ a, (toJson a).toOutline.isNull = false)
    (hset : ∀ outline, setField room n field outline =
      do return f (← outline.readOptional read)) :
    Sets room (optionalEntry field toJson value) n (f value) :=
  optional hnone fun a ha => single f ((hread a ha).present (hnull a)) (hset _)

theorem numbers {entries : List (Field × Json)} (h : Sets room entries n m) :
    ∀ x ∈ Json.memberNumbers (named entries), x.ReadsBack := by
  induction h with
  | nil => simp [named, Json.memberNumbers]
  | cons hvalue _ ih =>
    simp only [named, List.map_cons, Json.memberNumbers, List.forall_mem_append]
    exact ⟨hvalue.numbers, ih⟩

/-- Distinct members that have not been read yet are all read. -/
theorem readMembers_named {entries : List (Field × Json)} (h : Sets room entries n m)
    (hnodup : (entries.map Prod.fst).Nodup) {seen : List Field}
    (hseen : ∀ field ∈ entries.map Prod.fst, field ∉ seen)
    (htype : .type ∈ seen ∨ .type ∈ entries.map Prod.fst) :
    readMembers room seen n (Json.toMembers (named entries)) =
      within (.spelling .malformed) room (Json.memberDepth (named entries)) m := by
  induction h generalizing seen with
  | nil n =>
    have hmem : .type ∈ seen := by simpa using htype
    have hclose : readMembers room seen n .close = .ok n := by rw [readMembers, if_pos hmem]
    exact hclose.trans (within_zero n).symm
  | @cons field value rest n m k hvalue _ ih =>
    rw [List.map_cons] at hnodup hseen htype
    rw [List.nodup_cons] at hnodup
    rw [List.mem_cons] at htype
    obtain ⟨hfield, hrest⟩ := List.forall_mem_cons.mp hseen
    have hfresh : ∀ other ∈ rest.map Prod.fst, other ∉ field :: seen := by
      intro other hother
      rw [List.mem_cons, not_or]
      refine ⟨?_, hrest other hother⟩
      rintro rfl
      exact hnodup.1 hother
    have htype' : .type ∈ field :: seen ∨ .type ∈ rest.map Prod.fst := by
      rw [List.mem_cons]
      tauto
    have hmembers := ih hnodup.2 hfresh htype'
    simp only [named, List.map_cons, Json.toMembers, Json.memberDepth]
    rw [readMembers_member hfield, hvalue.result]
    exact within_bind hmembers

end Sets

/-! ## Written nodes are read back -/

/-- What a text can say of a node itself: its properties have distinct names, its lengths are
integers of 64 bits, and its numbers read back. -/
structure Writable (n : Node) : Prop where
  names : ∀ properties, n.properties = some properties →
    (Properties.names properties).Nodup
  lengths : ∀ k, n.keywords.minLength = some k ∨ n.keywords.maxLength = some k →
    k ≤ Json.Numeral.maxUnsigned
  numbers : ∀ x, n.keywords.minimum = some x ∨ n.keywords.maximum = some x → x.ReadsBack

/-- Properties with distinct names are read in order. -/
theorem readEntries_toMembers {room : Nat} {properties : Properties}
    (hread : ∀ entry ∈ properties, entry.2.toJson.ReadsAs room (read room) entry.2)
    (before : Properties) (hnames : (before.names ++ properties.names).Nodup) :
    readEntries room before (Json.toMembers (toMembers properties)) =
      within (.spelling .malformed) room (Json.memberDepth (toMembers properties))
        (before ++ properties) := by
  induction properties generalizing before with
  | nil =>
    have hclose : readEntries room before .close = .ok before := rfl
    rw [List.append_nil]
    exact hclose.trans (within_zero before).symm
  | cons entry rest ih =>
    obtain ⟨name, node⟩ := entry
    obtain ⟨hnode, hrest⟩ := List.forall_mem_cons.mp hread
    have hfresh : name ∉ before.names := by
      intro hmem
      exact (List.nodup_append.mp hnames).2.2 name hmem name List.mem_cons_self rfl
    have hinsert : before.insert name node = before ++ [(name, node)] :=
      Properties.insert_of_not_mem hfresh
    have hnames' :
        (Properties.names (before ++ [(name, node)]) ++ Properties.names rest).Nodup := by
      simpa [Properties.names] using hnames
    have hentries := ih hrest (before ++ [(name, node)]) hnames'
    rw [List.append_assoc, List.singleton_append] at hentries
    simp only [toMembers, Json.toMembers, Json.memberDepth, readEntries]
    rw [Literal.text_ofChars, ReadError.lift, Outcome.ok_bind, hnode.result]
    refine within_bind ?_
    rw [hinsert, hentries]

theorem numbers_toMembers {room : Nat} {properties : Properties}
    (hread : ∀ entry ∈ properties, entry.2.toJson.ReadsAs room (read room) entry.2) :
    ∀ x ∈ Json.memberNumbers (toMembers properties), x.ReadsBack := by
  induction properties with
  | nil => simp [toMembers, Json.memberNumbers]
  | cons entry rest ih =>
    obtain ⟨hnode, hrest⟩ := List.forall_mem_cons.mp hread
    rw [toMembers, Json.memberNumbers, List.forall_mem_append]
    exact ⟨hnode.numbers, ih hrest⟩

theorem readsAs_properties {properties : Properties} (hnames : properties.names.Nodup)
    (hread : ∀ entry ∈ properties, ∀ room, entry.2.toJson.ReadsAs room (read room) entry.2)
    (room : Nat) : properties.toJson.ReadsAs room (readProperties room) properties := by
  refine ⟨numbers_toMembers fun entry hentry => hread entry hentry 0, ?_⟩
  rw [Properties.toJson, Json.toOutline, readProperties, Json.depth]
  exact ReadError.enter_bind
    (fun room => readEntries_toMembers (fun entry hentry => hread entry hentry room) [] hnames) room

theorem isNull_toJson (n : Node) : n.toJson.toOutline.isNull = false := by
  rw [toJson_eq_object]
  rfl

/-- The keywords are read into a node that has none. -/
theorem sets_keywordEntries {room : Nat} {n : Node} {k : Keywords}
    (hlengths : ∀ length, k.minLength = some length ∨ k.maxLength = some length →
      length ≤ Json.Numeral.maxUnsigned)
    (hnumbers : ∀ x, k.minimum = some x ∨ k.maximum = some x → x.ReadsBack)
    (hn : n.keywords = {}) : Sets room (keywordEntries k) n { n with keywords := k } := by
  obtain ⟨type, required, properties, enumValues, keywords, items⟩ := n
  obtain ⟨pattern, minLength, maxLength, minimum, maximum⟩ := k
  obtain rfl : keywords = {} := hn
  -- the node with the keywords read so far
  let withKeywords (keywords : Keywords) : Node :=
    ⟨type, required, properties, enumValues, keywords, items⟩
  have hpattern : Sets room (optionalEntry .pattern .string pattern) (withKeywords {})
      (withKeywords { pattern }) :=
    .nullable (fun pattern => withKeywords { pattern }) rfl (fun pattern _ => .string pattern)
      (fun _ => rfl) (fun _ => rfl)
  have hminLength : Sets room (optionalEntry .minLength .ofNat minLength)
      (withKeywords { pattern }) (withKeywords { pattern, minLength }) :=
    .nullable (fun minLength => withKeywords { pattern, minLength }) rfl
      (fun length h => .ofNat (hlengths length (Or.inl h))) (fun _ => rfl) (fun _ => rfl)
  have hmaxLength : Sets room (optionalEntry .maxLength .ofNat maxLength)
      (withKeywords { pattern, minLength }) (withKeywords { pattern, minLength, maxLength }) :=
    .nullable (fun maxLength => withKeywords { pattern, minLength, maxLength }) rfl
      (fun length h => .ofNat (hlengths length (Or.inr h))) (fun _ => rfl) (fun _ => rfl)
  have hminimum : Sets room (optionalEntry .minimum .number minimum)
      (withKeywords { pattern, minLength, maxLength })
      (withKeywords { pattern, minLength, maxLength, minimum }) :=
    .nullable (fun minimum => withKeywords { pattern, minLength, maxLength, minimum }) rfl
      (fun x h => .number (hnumbers x (Or.inl h))) (fun _ => rfl) (fun _ => rfl)
  have hmaximum : Sets room (optionalEntry .maximum .number maximum)
      (withKeywords { pattern, minLength, maxLength, minimum })
      (withKeywords { pattern, minLength, maxLength, minimum, maximum }) :=
    .nullable (fun maximum => withKeywords { pattern, minLength, maxLength, minimum, maximum }) rfl
      (fun x h => .number (hnumbers x (Or.inr h))) (fun _ => rfl) (fun _ => rfl)
  exact (((hpattern.append hminLength).append hmaxLength).append hminimum).append hmaximum

/-- The members of a node are read into it one after another. -/
theorem sets_entries {n : Node} (hn : n.Writable) {room : Nat}
    (hproperties : ∀ properties, n.properties = some properties →
      (Properties.toJson properties).ReadsAs room (readProperties room) properties)
    (hitems : ∀ c, n.items = some c → c.toJson.ReadsAs room (read room) c) :
    Sets room n.entries blank n := by
  obtain ⟨type, required, properties, enumValues, keywords, items⟩ := n
  -- the node after each of its members, in their order
  let typed : Node := { blank with type }
  let withRequired : Node := { typed with required }
  let withProperties : Node := { withRequired with properties }
  let withEnum : Node := { withProperties with enumValues }
  let withKeywords : Node := { withEnum with keywords }
  have htype : Sets room [(.type, type.toJson)] blank typed :=
    .single (fun type => { blank with type }) (type.readsAs_toJson room) rfl
  have hrequired : Sets room
      (if required.isEmpty then [] else [(.required, .ofStrings required)]) typed withRequired := by
    cases required with
    | nil => exact .nil typed
    | cons name names =>
      have hread : (Json.ofStrings (name :: names)).ReadsAs room
          (Outline.readArray room Outline.readText) (name :: names) :=
        .array .string (fun _ => rfl) (name :: names)
      exact .single (fun required => { typed with required }) hread rfl
  have hproperties' : Sets room (optionalEntry .properties Properties.toJson properties)
      withRequired withProperties := by
    refine .optional (f := fun properties => { withRequired with properties }) rfl ?_
    intro properties hsome
    exact .single (fun properties => { withRequired with properties := some properties })
      (hproperties properties hsome) rfl
  have henum : Sets room (optionalEntry .enumValues enumJson enumValues)
      withProperties withEnum := by
    refine .nullable (fun enumValues => { withProperties with enumValues }) rfl ?_
      (fun _ => rfl) (fun _ => rfl)
    intro values _
    exact .array .ofOption (fun value => by cases value <;> rfl) values
  have hkeywords : Sets room (keywordEntries keywords) withEnum withKeywords :=
    sets_keywordEntries hn.lengths hn.numbers rfl
  have hitems' : Sets room (optionalEntry .items toJson items) withKeywords
      { withKeywords with items } := by
    refine .optional (f := fun items => { withKeywords with items }) rfl ?_
    intro c hc
    refine .single (fun items => { withKeywords with items := some items }) (hitems c hc) ?_
    rw [setField, isNull_toJson]
    rfl
  exact ((((htype.append hrequired).append hproperties').append henum).append hkeywords).append
    hitems'

/-- **A written node is read back.** -/
theorem readsAs_toJson (n : Node) (h : ∀ place m, n.Holds place m → m.Writable) (room : Nat) :
    n.toJson.ReadsAs room (read room) n := by
  induction n using Node.induction generalizing room with
  | step n ih =>
    obtain ⟨hn, hinside⟩ := forall_holds_iff.mp h
    have hsets : ∀ room, Sets room n.entries blank n := by
      intro room
      refine sets_entries hn ?_ ?_
      · intro properties hproperties
        refine readsAs_properties (hn.names properties hproperties) ?_ room
        rintro ⟨name, c⟩ hmem
        have hc : n.Inside c := .property hproperties hmem
        exact ih c hc (hinside c hc)
      · intro c hitems
        have hc : n.Inside c := .items hitems
        exact ih c hc (hinside c hc) room
    rw [toJson_eq_object]
    refine ⟨(hsets 0).numbers, ?_⟩
    rw [Json.toOutline, read, Json.depth]
    refine ReadError.enter_bind (fun room => ?_) room
    exact (hsets room).readMembers_named n.nodup_fields (by simp) (Or.inr (by simp [entries]))

end Node

/-! ## Documents -/

namespace Document

theorem readsAs_toJson (n : Node) (h : ∀ place m, n.Holds place m → m.Writable) (room : Nat) :
    (toJson n).ReadsAs room (read room) n := by
  have hnode := n.readsAs_toJson h
  refine ⟨?_, ?_⟩
  · simpa [toJson, Json.numbers, Json.memberNumbers] using (hnode 0).numbers
  · rw [toJson, Json.toOutline, read, Json.depth]
    refine ReadError.enter_bind (fun room => ?_) room
    have hread : readMembers room none (Json.toMembers [(Mismatch.documentMember, n.toJson)]) =
        Node.read room n.toJson.toOutline >>= .ok := by
      rw [Json.toMembers, readMembers, Literal.text_ofChars]
      rfl
    rw [hread, (hnode room).result, Outcome.within_bind_ok rfl, Json.memberDepth, Json.memberDepth,
      Nat.max_zero]

/-- The text of a document nests as deep as the value of the document. -/
theorem nesting_render {n : Node} (h : ∀ place m, n.Holds place m → m.Writable) :
    Json.nesting (render n).toList = (toJson n).depth := by
  rw [render, String.toList_ofList, Json.nesting_write (readsAs_toJson n h 0).numbers]

/-- **Documents are read back exactly as deep as the reader follows.** -/
theorem parse_render (n : Node) (h : ∀ place m, n.Holds place m → m.Writable) :
    (∀ value : Int, -9223372036854775808 ≤ value → value ≤ 18446744073709551615 →
      (JsonNumber.integer value).ReadsBack) ∧
    (Json.nesting (render n).toList ≤ 127 → parse (render n) = .ok n) ∧
    (128 ≤ Json.nesting (render n).toList →
      parse (render n) = .error (.spelling .malformed)) := by
  have hread := readsAs_toJson n h Json.maxNesting
  have hparse : parse (render n) =
      within (.spelling .malformed) Json.maxNesting (toJson n).depth n := by
    rw [parse, render, Json.readWhole_write hread.numbers, hread.result]
  rw [nesting_render h, hparse]
  refine ⟨fun value hleast hlargest => Json.readsBack_integer hleast hlargest, ?_, ?_⟩
  · intro hdepth
    exact if_pos hdepth
  · intro hdepth
    exact if_neg (Nat.not_le.mpr hdepth)

/-- A house number, an integer from one on. -/
def numberNode : Node :=
  { type := ⟨.number, false⟩, keywords := { minimum := some (.integer 1) } }

/-- What may stand behind a house number. -/
def additionNode : Node :=
  { type := ⟨.string, true⟩, enumValues := some [some "\"ä\"\n", none] }

def additionsNode : Node := { type := ⟨.array, true⟩, items := some additionNode }

def addressNode : Node :=
  .object ["number"] [("number", numberNode), ("additions", additionsNode)]

theorem writable_addressNode : ∀ place m, addressNode.Holds place m → m.Writable := by
  intro place m hm
  have hheld : m = addressNode ∨ m = numberNode ∨ m = additionsNode ∨ m = additionNode := by
    induction hm with
    | root => exact Or.inl rfl
    | property _ hproperties hmem ih =>
      rcases ih with rfl | rfl | rfl | rfl <;> cases hproperties
      rcases List.mem_pair.mp hmem with heq | heq
      · exact Or.inr (Or.inl (Prod.mk.inj heq).2)
      · exact Or.inr (Or.inr (Or.inl (Prod.mk.inj heq).2))
    | items _ hitems ih =>
      rcases ih with rfl | rfl | rfl | rfl <;> cases hitems
      exact Or.inr (Or.inr (Or.inr rfl))
  have hminimum : (JsonNumber.integer 1).ReadsBack :=
    Json.readsBack_integer (by decide) (by decide)
  rcases hheld with rfl | rfl | rfl | rfl
  · refine ⟨?_, by simp [addressNode, Node.object], by simp [addressNode, Node.object]⟩
    rintro properties hproperties
    cases hproperties
    decide
  · refine ⟨by simp [numberNode], by simp [numberNode], ?_⟩
    simpa [numberNode] using hminimum
  · exact ⟨by simp [additionsNode], by simp [additionsNode], by simp [additionsNode]⟩
  · exact ⟨by simp [additionNode], by simp [additionNode], by simp [additionNode]⟩

/-- A list of lists, so many deep. -/
def listNode : Nat → Node
  | 0 => .ofType ⟨.string, false⟩
  | k + 1 => { type := ⟨.array, false⟩, items := some (listNode k) }

theorem depth_listNode (k : Nat) : (listNode k).toJson.depth = k + 1 := by
  induction k with
  | zero => rfl
  | succ k ih =>
    have hdepth : (listNode (k + 1)).toJson.depth = (listNode k).toJson.depth + 1 := by
      simp [listNode, Node.toJson, Node.propertiesMember, Node.itemsMember, Keywords.members,
        Keywords.optional, BsonType.toJson, Json.depth, Json.memberDepth]
    rw [hdepth, ih]

theorem writable_listNode (k : Nat) : ∀ place m, (listNode k).Holds place m → m.Writable := by
  induction k with
  | zero =>
    rw [Node.forall_holds_iff]
    refine ⟨⟨by simp [listNode, Node.ofType], by simp [listNode, Node.ofType],
      by simp [listNode, Node.ofType]⟩, ?_⟩
    intro c hc
    cases hc with
    | property hproperties _ => cases hproperties
    | items hitems => cases hitems
  | succ k ih =>
    rw [Node.forall_holds_iff]
    refine ⟨⟨by simp [listNode], by simp [listNode], by simp [listNode]⟩, ?_⟩
    intro c hc
    cases hc with
    | property hproperties _ => cases hproperties
    | items hitems =>
      obtain rfl := Option.some.inj hitems
      exact ih

/-- With 125 lists a document nests 127 deep, with one more 128. -/
theorem parse_render_addressNode :
    (∀ place m, addressNode.Holds place m → m.Writable) ∧
      parse (render addressNode) = .ok addressNode ∧
        parse (render (listNode 125)) = .ok (listNode 125) ∧
          parse (render (listNode 126)) = .error (.spelling .malformed) := by
  have hlist : ∀ k, Json.nesting (render (listNode k)).toList = k + 2 := by
    intro k
    rw [nesting_render (writable_listNode k)]
    simp [toJson, Json.depth, Json.memberDepth, depth_listNode]
  have haddress : Json.nesting (render addressNode).toList ≤ 127 := by
    rw [nesting_render writable_addressNode]
    decide +kernel
  refine ⟨writable_addressNode, ?_, ?_, ?_⟩
  · exact (parse_render addressNode writable_addressNode).2.1 haddress
  · exact (parse_render (listNode 125) (writable_listNode 125)).2.1 (hlist 125).le
  · exact (parse_render (listNode 126) (writable_listNode 126)).2.2 (hlist 126).ge

end Document

end CollectionSchema
