import CollectionSchema.Proofs.NodeFrames

/-!
# The order of members does not count

The members of a node that is written as an object may stand in any order, and members of other
names may stand anywhere among them (`Node.readMembers_perm`, `Node.readMembers_append_unknown`). So
a document text is read as the same node when the members of any node in it, however deep, are
rearranged like that (`Document.parse_of_perm`).
-/

namespace CollectionSchema

open Json (Outline NamedOutline Spacing ValueText MemberText)

namespace Node

variable {room : Nat} {seen : List Field} {node n : Node}

/-- Only which fields were read counts, not when. -/
theorem readMembers_congr : ∀ (members : Json.Members) {seen other : List Field} (node : Node),
    (∀ field, field ∈ seen ↔ field ∈ other) →
      readMembers room seen node members = readMembers room other node members
  | .close, _, _, _, h => by simp only [readMembers, h]
  | .fault _, _, _, _, _ => by simp only [readMembers]
  | .member name value rest, seen, other, node, h => by
    have hrest := fun node => readMembers_congr rest node h
    have hrest' : ∀ next node, readMembers room (next :: seen) node rest =
        readMembers room (next :: other) node rest :=
      fun next node => readMembers_congr rest node (by simp [h])
    simp only [readMembers_member_eq, h, hrest, hrest']

theorem readMembers_swap {entry other : NamedOutline} {entries : List NamedOutline}
    (h : readMembers room seen node (.ofList (entry :: other :: entries)) = .ok n) :
    readMembers room seen node (.ofList (other :: entry :: entries)) = .ok n := by
  simp only [readMembers_cons_eq_ok_iff] at h ⊢
  obtain ⟨s, hs, ⟨hnone, hskim, t, ht, h⟩ | ⟨field, part, hfield, hseen, hpart, t, ht, h⟩⟩ := h
  · rcases h with ⟨hnone', hskim', h⟩ | ⟨field, part, hfield, hseen, hpart, h⟩
    · exact ⟨t, ht, .inl ⟨hnone', hskim', s, hs, .inl ⟨hnone, hskim, h⟩⟩⟩
    · exact ⟨t, ht, .inr ⟨field, part, hfield, hseen, hpart, s, hs, .inl ⟨hnone, hskim, h⟩⟩⟩
  · rcases h with ⟨hnone, hskim, h⟩ | ⟨field', part', hfield', hseen', hpart', h⟩
    · exact ⟨t, ht, .inl ⟨hnone, hskim, s, hs, .inr ⟨field, part, hfield, hseen, hpart, h⟩⟩⟩
    · obtain ⟨hne, hseen'⟩ := not_or.mp (mt List.mem_cons.mpr hseen')
      refine ⟨t, ht, .inr ⟨field', part', hfield', hseen', hpart', s, hs, .inr ⟨field, part,
        hfield, ?_, hpart, ?_⟩⟩⟩
      · simpa [Ne.symm hne] using hseen
      · have hfields : part.field ≠ part'.field := by
          rw [field_of_readPart hpart, field_of_readPart hpart']
          exact Ne.symm hne
        have hread : ∀ f, f ∈ field :: field' :: seen ↔ f ∈ field' :: field :: seen := by
          simp [or_left_comm]
        rwa [Part.set_comm hfields, readMembers_congr _ _ hread]

/-- **The members of a node may stand in any order.** -/
theorem readMembers_perm {entries others : List NamedOutline} (h : entries.Perm others) :
    readMembers room seen node (.ofList entries) = .ok n ↔
      readMembers room seen node (.ofList others) = .ok n := by
  induction h generalizing seen node with
  | nil => exact .rfl
  | cons entry _ ih => simp only [readMembers_cons_eq_ok_iff, ih]
  | swap entry other entries => exact ⟨readMembers_swap, readMembers_swap⟩
  | trans _ _ ih ih' => exact ih.trans ih'

/-- A member with a name that none of a node has. -/
def IsUnknown (entry : NamedOutline) : Prop :=
  ∃ s, entry.1.text = .ok s ∧ Field.ofName? s = none ∧ entry.2.skim = .ok ()

/-- **Members of other names do not count.** -/
theorem readMembers_append_unknown {unknown entries : List NamedOutline}
    (h : ∀ entry ∈ unknown, IsUnknown entry) :
    readMembers room seen node (.ofList (unknown ++ entries)) = .ok n ↔
      readMembers room seen node (.ofList entries) = .ok n := by
  induction unknown with
  | nil => exact .rfl
  | cons entry unknown ih =>
    obtain ⟨⟨s, hs, hnone, hskim⟩, hunknown⟩ := List.forall_mem_cons.mp h
    rw [List.cons_append, readMembers_cons_eq_ok_iff, ih hunknown]
    simp [hs, hnone, hskim]

/-- **A node that is written as an object is read the same** with its members in another order and
members of other names among them. -/
theorem same_of_perm (spacing otherSpacing : Spacing) {members others unknown : List MemberText}
    (hperm : others.Perm (members ++ unknown))
    (hunknown : ∀ m ∈ unknown, Field.ofName? m.name.name = none) :
    Same (ValueText.object spacing members).value (ValueText.object otherSpacing others).value := by
  refine ⟨rfl, fun room n => ReadError.enter_bind_congr fun inner => ?_⟩
  have hskipped : ∀ entry ∈ unknown.map MemberText.entry, IsUnknown entry :=
    List.forall_mem_map.mpr fun m hm =>
      ⟨m.name.name, m.name.text_literal, hunknown m hm,
        (Outline.skim_eq_ok_iff _).mpr m.value.whole⟩
  rw [readMembers_perm (hperm.map MemberText.entry), List.map_append,
    readMembers_perm List.perm_append_comm, readMembers_append_unknown hskipped]

end Node

namespace Document

/-- **The order of the members of a node does not count, and neither do members of other names.** An
accepted text is a frame around the text of a node. A node in it, in whatever frames, that is
written as an object consists of members, and the text with these in another order, and with any
members among them whose names are none of a node, is accepted as the same node. -/
theorem parse_of_perm {text : String} {n : Node} (h : parse text = .ok n) :
    (∃ (frame : Frame) (node : ValueText), (frame.fill node).text = text.toList) ∧
      ∀ (frame : Frame) (frames : List Node.Frame) (node : ValueText),
        (frame.fill (Node.fill frames node)).text = text.toList →
          (∀ written, node.value = .object written →
            ∃ spacing members, node = .object spacing members) ∧
          ∀ spacing members, node = .object spacing members →
            ∀ otherSpacing others unknown, others.Perm (members ++ unknown) →
              (∀ m ∈ unknown, Node.Field.ofName? m.name.name = none) →
              parse (String.ofList
                (frame.fill (Node.fill frames (.object otherSpacing others))).text) = .ok n := by
  refine ⟨exists_fill_of_parse h, fun frame frames node htext => ?_⟩
  obtain ⟨inner, hread, hfill⟩ := frame.exists_read_of_fill ((parse_text_eq_ok_iff htext).mp h)
  constructor
  · intro written hwritten
    have hnull : node.value.isNull = false := by
      rw [hwritten]
      rfl
    obtain ⟨room, c, hc⟩ := Node.exists_read_of_fill hnull hread
    exact Node.exists_object_of_read hwritten hc
  · rintro spacing members rfl otherSpacing others unknown hperm hunknown
    rw [parse_text_eq_ok_iff (String.toList_ofList).symm]
    have hsame := Node.same_of_perm spacing otherSpacing hperm hunknown
    exact hfill _ (((Node.same_fill frames hsame).read inner n).mp hread)

/-! ### A list of tags -/

def noSpacing : Spacing where
  before := ⟨[], by simp⟩
  inside := ⟨[], by simp⟩
  behind := ⟨[], by simp⟩

/-- A member that holds a string. -/
def stringMember (name value : String) : MemberText :=
  ⟨.written name, .written (.string value) (by simp [Json.numbers])⟩

def listFrame : Frame := .member noSpacing (.written "$jsonSchema")

/-- A list around its items. -/
def itemsFrame : Node.Frame :=
  .member noSpacing [stringMember "bsonType" "array"] (.written "items") (by decide) .items []

def tagMembers : List MemberText := [stringMember "bsonType" "string", stringMember "pattern" "^a"]

/-- A member of another name, which holds an empty object. -/
def noteMember : MemberText := ⟨.written "note", .object noSpacing []⟩

def tagListText : String :=
  "\x7b\"$jsonSchema\":\x7b\"bsonType\":\"array\",\"items\":" ++
    "\x7b\"bsonType\":\"string\",\"pattern\":\"^a\"\x7d\x7d\x7d"

def notedListText : String :=
  "\x7b\"$jsonSchema\":\x7b\"bsonType\":\"array\",\"items\":" ++
    "\x7b\"pattern\":\"^a\",\"note\":\x7b\x7d,\"bsonType\":\"string\"\x7d\x7d\x7d"

def tagNode : Node :=
  { type := ⟨.string, false⟩, keywords := { pattern := some "^a" } }

def tagListNode : Node := { type := ⟨.array, false⟩, items := some tagNode }

theorem text_tagList : (listFrame.fill (Node.fill [itemsFrame]
    (.object noSpacing tagMembers))).text = tagListText.toList := by
  -- literal by literal, since a string put together of them is slow to evaluate
  have htext : tagListText.toList = _ := String.toList_append.trans
    (congrArg₂ (· ++ ·) String.toList_ofList String.toList_ofList)
  rw [htext]
  rfl

theorem text_notedList : (listFrame.fill (Node.fill [itemsFrame] (.object noSpacing
    [stringMember "pattern" "^a", noteMember, stringMember "bsonType" "string"]))).text =
      notedListText.toList := by
  have htext : notedListText.toList = _ := String.toList_append.trans
    (congrArg₂ (· ++ ·) String.toList_ofList String.toList_ofList)
  rw [htext]
  rfl

theorem parse_tagListText : parse tagListText = .ok tagListNode := by
  rw [parse_text_eq_ok_iff text_tagList]
  rfl

theorem parse_of_perm_tagList :
    parse tagListText = .ok tagListNode ∧ parse notedListText = .ok tagListNode := by
  obtain ⟨-, hplaces⟩ := parse_of_perm parse_tagListText
  obtain ⟨-, hparse⟩ := hplaces listFrame [itemsFrame] _ text_tagList
  have hperm : [stringMember "pattern" "^a", noteMember, stringMember "bsonType" "string"].Perm
      (tagMembers ++ [noteMember]) := List.perm_append_singleton _ [_, _]
  have hunknown : ∀ m ∈ [noteMember], Node.Field.ofName? m.name.name = none := by
    rw [List.forall_mem_singleton]
    decide
  have hnoted := hparse noSpacing tagMembers rfl noSpacing _ [noteMember] hperm hunknown
  rw [text_notedList, String.ofList_toList] at hnoted
  exact ⟨parse_tagListText, hnoted⟩

end Document

end CollectionSchema
