import CollectionSchema.Proofs.AcceptedTexts

/-!
# Nodes in texts

A node in the text of a document stands in frames: in the items or among the properties of another
node, and so on, up to the document (`Node.fill`, `Document.Frame.fill`). A node may be replaced by
one that is read the same, however many frames it is in (`Node.same_fill`). Where a node of an
accepted text is written as an object, it is made of texts of members (`Node.exists_read_of_fill`).
-/

namespace CollectionSchema

open Json (Outline Literal NamedOutline Spacing ValueText MemberText NameText)

namespace Node

variable {room : Nat} {seen : List Field} {node n : Node} {field : Field} {value other : Outline}

/-! ## The first of several -/

theorem readMembers_cons_eq_ok_iff {entry : NamedOutline} {entries : List NamedOutline} :
    readMembers room seen node (.ofList (entry :: entries)) = .ok n ↔
      ∃ s, entry.1.text = .ok s ∧
        ((Field.ofName? s = none ∧ entry.2.skim = .ok () ∧
            readMembers room seen node (.ofList entries) = .ok n) ∨
          ∃ field part, Field.ofName? s = some field ∧ field ∉ seen ∧
            readPart room field entry.2 = .ok part ∧
            readMembers room (field :: seen) (part.set node) (.ofList entries) = .ok n) :=
  readMembers_member_eq_ok_iff

theorem readElements_cons_eq_ok_iff {fields : List Field} {values : List Outline} :
    readElements room (field :: fields) node (.ofList (value :: values)) = .ok n ↔
      ∃ part, readPart room field value = .ok part ∧
        readElements room fields (part.set node) (.ofList values) = .ok n := by
  show readElements room (field :: fields) node (.item value (.ofList values)) = .ok n ↔ _
  simp [readElements_item_eq, Outcome.bind_eq_ok_iff, setField_eq_ok_iff]

theorem readEntries_cons_eq_ok_iff {before properties : Properties} {entry : NamedOutline}
    {entries : List NamedOutline} :
    readEntries room before (.ofList (entry :: entries)) = .ok properties ↔
      ∃ s, entry.1.text = .ok s ∧ ∃ c, read room entry.2 = .ok c ∧
        readEntries room (before.insert s c) (.ofList entries) = .ok properties := by
  show readEntries room before (.member entry.1 entry.2 (.ofList entries)) = .ok properties ↔ _
  rw [readEntries]
  simp only [Outcome.bind_eq_ok_iff, ReadError.lift_eq_ok_iff]

/-! ## One of several -/

/-- Two values of a member of which one may stand for the other. -/
def Alike (field : Field) (value other : Outline) : Prop :=
  ∀ room part, readPart room field value = .ok part ↔ readPart room field other = .ok part

theorem readMembers_replace {name : Literal} {s : String} (hname : name.text = .ok s)
    (hfield : Field.ofName? s = some field) (h : Alike field value other)
    (first last : List NamedOutline) :
    readMembers room seen node (.ofList (first ++ (name, value) :: last)) = .ok n ↔
      readMembers room seen node (.ofList (first ++ (name, other) :: last)) = .ok n := by
  induction first generalizing seen node with
  | nil =>
    simp only [List.nil_append, readMembers_cons_eq_ok_iff, hname, Except.ok.injEq,
      exists_eq_left', hfield, reduceCtorEq, false_and, false_or, Option.some.injEq,
      exists_and_left, h room]
  | cons entry first ih => simp only [List.cons_append, readMembers_cons_eq_ok_iff, ih]

theorem readElements_replace (h : Alike field value other) {fields : List Field}
    (first last : List Outline) (hfield : fields[first.length]? = some field) :
    readElements room fields node (.ofList (first ++ value :: last)) = .ok n ↔
      readElements room fields node (.ofList (first ++ other :: last)) = .ok n := by
  induction first generalizing fields node with
  | nil =>
    obtain ⟨later, rfl⟩ := List.head?_eq_some_iff.mp ((List.head?_eq_getElem? ..).trans hfield)
    simp only [List.nil_append, readElements_cons_eq_ok_iff, h room]
  | cons item first ih =>
    cases fields with
    | nil => simp at hfield
    | cons next fields =>
      rw [List.length_cons, List.getElem?_cons_succ] at hfield
      simp only [List.cons_append, readElements_cons_eq_ok_iff, ih hfield]

theorem readEntries_replace {before properties : Properties}
    (h : ∀ room c, read room value = .ok c ↔ read room other = .ok c) (name : Literal)
    (first last : List NamedOutline) :
    readEntries room before (.ofList (first ++ (name, value) :: last)) = .ok properties ↔
      readEntries room before (.ofList (first ++ (name, other) :: last)) = .ok properties := by
  induction first generalizing before with
  | nil => simp only [List.nil_append, readEntries_cons_eq_ok_iff, h]
  | cons entry first ih => simp only [List.cons_append, readEntries_cons_eq_ok_iff, ih]

theorem exists_readPart_of_readMembers {name : Literal} {s : String} (hname : name.text = .ok s)
    (hfield : Field.ofName? s = some field) {first last : List NamedOutline}
    (h : readMembers room seen node (.ofList (first ++ (name, value) :: last)) = .ok n) :
    ∃ part, readPart room field value = .ok part := by
  induction first generalizing seen node with
  | nil =>
    obtain ⟨t, ht, hvalue⟩ := readMembers_cons_eq_ok_iff.mp h
    obtain rfl : s = t := Except.ok.inj (hname.symm.trans ht)
    obtain ⟨hnone, -⟩ | ⟨found, part, hfound, -, hpart, -⟩ := hvalue
    · cases hfield.symm.trans hnone
    · cases hfield.symm.trans hfound
      exact ⟨part, hpart⟩
  | cons entry first ih =>
    obtain ⟨t, -, ⟨-, -, hrest⟩ | ⟨_, _, -, -, -, hrest⟩⟩ := readMembers_cons_eq_ok_iff.mp h
    · exact ih hrest
    · exact ih hrest

theorem exists_readPart_of_readElements {fields : List Field} {first last : List Outline}
    (hfield : fields[first.length]? = some field)
    (h : readElements room fields node (.ofList (first ++ value :: last)) = .ok n) :
    ∃ part, readPart room field value = .ok part := by
  induction first generalizing fields node with
  | nil =>
    obtain ⟨later, rfl⟩ := List.head?_eq_some_iff.mp ((List.head?_eq_getElem? ..).trans hfield)
    obtain ⟨part, hpart, -⟩ := readElements_cons_eq_ok_iff.mp h
    exact ⟨part, hpart⟩
  | cons item first ih =>
    cases fields with
    | nil => simp at hfield
    | cons next fields =>
      rw [List.length_cons, List.getElem?_cons_succ] at hfield
      obtain ⟨_, -, hrest⟩ := readElements_cons_eq_ok_iff.mp h
      exact ih hfield hrest

theorem exists_read_of_readEntries {before properties : Properties} {name : Literal}
    {first last : List NamedOutline}
    (h : readEntries room before (.ofList (first ++ (name, value) :: last)) = .ok properties) :
    ∃ c, read room value = .ok c := by
  induction first generalizing before with
  | nil =>
    obtain ⟨_, -, c, hc, -⟩ := readEntries_cons_eq_ok_iff.mp h
    exact ⟨c, hc⟩
  | cons entry first ih =>
    obtain ⟨_, -, _, -, hrest⟩ := readEntries_cons_eq_ok_iff.mp h
    exact ih hrest

/-! ## Frames -/

/-- Two values of which one may stand for the other where a node is wanted. -/
structure Same (value other : Outline) : Prop where
  isNull : value.isNull = other.isNull
  read : ∀ room n, Node.read room value = .ok n ↔ Node.read room other = .ok n

/-- What a text of a member may have around a node in it. -/
inductive PartFrame : Field → Type where
  | items : PartFrame .items
  | property (spacing : Spacing) (first : List MemberText) (name : NameText)
      (last : List MemberText) : PartFrame .properties

def PartFrame.fill : {field : Field} → PartFrame field → ValueText → ValueText
  | _, .items, node => node
  | _, .property spacing first name last, node => .object spacing (first ++ ⟨name, node⟩ :: last)

/-- What the text of a node may have around a node that is in it directly: the members before and
behind that, or the elements if the outer node is written as an array. -/
inductive Frame where
  | member {field : Field} (spacing : Spacing) (first : List MemberText) (name : NameText)
      (hfield : Field.ofName? name.name = some field) (part : PartFrame field)
      (last : List MemberText)
  | element {field : Field} (spacing : Spacing) (first : List ValueText)
      (hfield : Field.all[first.length]? = some field) (part : PartFrame field)
      (last : List ValueText)

def Frame.fill : Frame → ValueText → ValueText
  | .member spacing first name _ part last, node =>
    .object spacing (first ++ ⟨name, part.fill node⟩ :: last)
  | .element spacing first _ part last, node => .array spacing (first ++ part.fill node :: last)

theorem PartFrame.alike_fill {field : Field} (part : PartFrame field) {node other : ValueText}
    (h : Same node.value other.value) :
    Alike field (part.fill node).value (part.fill other).value := by
  intro room found
  cases part with
  | items =>
    simp only [fill, readPart, Outcome.bind_eq_ok_iff, Outline.readOptional_eq_ok_iff, h.isNull,
      h.read]
  | property spacing first name last =>
    have hread : ∀ properties,
        readProperties room (ValueText.object spacing (first ++ ⟨name, node⟩ :: last)).value =
            .ok properties ↔
          readProperties room (ValueText.object spacing (first ++ ⟨name, other⟩ :: last)).value =
            .ok properties := by
      intro properties
      refine ReadError.enter_bind_congr fun inner => ?_
      simp only [List.map_append, List.map_cons]
      exact readEntries_replace h.read name.literal _ _
    have hnull : ∀ members, (ValueText.object spacing members).value.isNull = false :=
      fun _ => rfl
    simp only [fill, readPart, Outcome.bind_eq_ok_iff, Outline.readOptional_eq_ok_iff, hnull,
      hread]

theorem Frame.same_fill (frame : Frame) {node other : ValueText}
    (h : Same node.value other.value) : Same (frame.fill node).value (frame.fill other).value := by
  cases frame with
  | member spacing first name hfield part last =>
    refine ⟨rfl, fun room n => ReadError.enter_bind_congr fun inner => ?_⟩
    simp only [List.map_append, List.map_cons]
    exact readMembers_replace name.text_literal hfield (part.alike_fill h) _ _
  | element spacing first hfield part last =>
    refine ⟨rfl, fun room n => ReadError.enter_bind_congr fun inner => ?_⟩
    simp only [List.map_append, List.map_cons]
    refine readElements_replace (part.alike_fill h) _ _ ?_
    rwa [List.length_map]

/-- The text of a node with frames around it, the outermost first. -/
def fill (frames : List Frame) (node : ValueText) : ValueText := frames.foldr Frame.fill node

/-- **A node in a text may be replaced by one that is read the same**, however deep it is. -/
theorem same_fill (frames : List Frame) {node other : ValueText}
    (h : Same node.value other.value) :
    Same (fill frames node).value (fill frames other).value := by
  induction frames with
  | nil => exact h
  | cons frame frames ih => exact frame.same_fill ih

theorem PartFrame.exists_read_of_fill {field : Field} (frame : PartFrame field) {node : ValueText}
    (hnull : node.value.isNull = false) {room : Nat} {part : Part}
    (h : readPart room field (frame.fill node).value = .ok part) :
    ∃ inner c, read inner node.value = .ok c := by
  cases frame with
  | items =>
    obtain ⟨found, hfound, -⟩ := Outcome.bind_eq_ok_iff.mp h
    obtain ⟨hnull', -⟩ | ⟨-, c, hc, -⟩ := Outline.readOptional_eq_ok_iff.mp hfound
    · cases hnull.symm.trans hnull'
    · exact ⟨room, c, hc⟩
  | property spacing first name last =>
    obtain ⟨found, hfound, -⟩ := Outcome.bind_eq_ok_iff.mp h
    obtain ⟨⟨⟩, -⟩ | ⟨-, properties, hproperties, -⟩ := Outline.readOptional_eq_ok_iff.mp hfound
    obtain ⟨inner, -, hentries⟩ := ReadError.enter_bind_eq_ok_iff.mp hproperties
    rw [List.map_append, List.map_cons] at hentries
    exact ⟨inner, exists_read_of_readEntries hentries⟩

theorem Frame.isNull_fill (frame : Frame) (node : ValueText) :
    (frame.fill node).value.isNull = false := by
  cases frame <;> rfl

theorem Frame.exists_read_of_fill (frame : Frame) {node : ValueText}
    (hnull : node.value.isNull = false) {room : Nat} {n : Node}
    (h : read room (frame.fill node).value = .ok n) : ∃ inner c, read inner node.value = .ok c := by
  cases frame with
  | member spacing first name hfield part last =>
    obtain ⟨inner, -, hmembers⟩ := ReadError.enter_bind_eq_ok_iff.mp h
    rw [List.map_append, List.map_cons] at hmembers
    obtain ⟨found, hfound⟩ := exists_readPart_of_readMembers name.text_literal hfield hmembers
    exact part.exists_read_of_fill hnull hfound
  | @element field spacing first hfield part last =>
    obtain ⟨inner, -, helements⟩ := ReadError.enter_bind_eq_ok_iff.mp h
    rw [List.map_append, List.map_cons] at helements
    have hfield' : Field.all[(first.map ValueText.value).length]? = some field := by
      rwa [List.length_map]
    obtain ⟨found, hfound⟩ := exists_readPart_of_readElements hfield' helements
    exact part.exists_read_of_fill hnull hfound

/-- What stands for a node in an accepted text is read as a node. -/
theorem exists_read_of_fill {frames : List Frame} {node : ValueText}
    (hnull : node.value.isNull = false) {room : Nat} {n : Node}
    (h : read room (fill frames node).value = .ok n) :
    ∃ inner c, read inner node.value = .ok c := by
  induction frames generalizing room n with
  | nil => exact ⟨room, n, h⟩
  | cons frame frames ih =>
    have hinner : (fill frames node).value.isNull = false := by
      cases frames with
      | nil => exact hnull
      | cons frame frames => exact frame.isNull_fill _
    obtain ⟨inner, c, hc⟩ := frame.exists_read_of_fill hinner h
    exact ih hc

end Node

/-! ## Documents -/

namespace Document

/-- What the text of a document has around its node. -/
inductive Frame where
  | member (spacing : Spacing) (name : NameText)
  | element (spacing : Spacing)

def Frame.fill : Frame → ValueText → ValueText
  | .member spacing name, node => .object spacing [⟨name, node⟩]
  | .element spacing, node => .array spacing [node]

/-- A document is read if the node in it is. -/
theorem Frame.exists_read_of_fill (frame : Frame) {node : ValueText} {room : Nat} {n : Node}
    (h : read room (frame.fill node).value = .ok n) :
    ∃ inner, Node.read inner node.value = .ok n ∧ ∀ other : ValueText,
      Node.read inner other.value = .ok n → read room (frame.fill other).value = .ok n := by
  obtain ⟨inner, value, rfl, hread, hvalue⟩ := read_eq_ok_iff.mp h
  cases frame with
  | member spacing name =>
    obtain ⟨literal, hname, ⟨⟩⟩ | ⟨⟨⟩⟩ := hvalue
    exact ⟨inner, hread, fun other hother =>
      read_eq_ok_iff.mpr ⟨inner, other.value, rfl, hother, .inl ⟨_, hname, rfl⟩⟩⟩
  | element spacing =>
    obtain ⟨literal, hname, ⟨⟩⟩ | ⟨⟨⟩⟩ := hvalue
    exact ⟨inner, hread, fun other hother =>
      read_eq_ok_iff.mpr ⟨inner, other.value, rfl, hother, .inr rfl⟩⟩

theorem parse_text_eq_ok_iff {document : ValueText} {text : String} {n : Node}
    (htext : document.text = text.toList) :
    parse text = .ok n ↔ read Json.maxNesting document.value = .ok n := by
  have houtline := document.outline_text
  rw [htext] at houtline
  rw [parse, Json.readWhole_eq_ok_iff, houtline]
  constructor
  · rintro ⟨_, ⟨⟩, hread⟩
    exact hread
  · exact fun hread => ⟨_, rfl, hread⟩

/-- An accepted text is a frame around the text of a node. -/
theorem exists_fill_of_parse {text : String} {n : Node} (h : parse text = .ok n) :
    ∃ (frame : Frame) (node : ValueText), (frame.fill node).text = text.toList := by
  obtain ⟨document, htext⟩ := exists_valueText_of_parse h
  rw [← htext]
  obtain ⟨inner, value, -, -, ⟨literal, hname, hvalue⟩ | hvalue⟩ :=
    read_eq_ok_iff.mp ((parse_text_eq_ok_iff htext).mp h)
  · have hnames : ∀ entry ∈ [(literal, value)], ∃ name, entry.1.text = .ok name :=
      List.forall_mem_singleton.mpr ⟨_, hname⟩
    obtain ⟨spacing, members, rfl⟩ := ValueText.exists_object hvalue hnames
    match members with
    | [m] => exact ⟨.member spacing m.name, m.value, rfl⟩
  · obtain ⟨spacing, items, rfl⟩ := ValueText.exists_array hvalue
    match items with
    | [item] => exact ⟨.element spacing, item, rfl⟩

end Document

end CollectionSchema
