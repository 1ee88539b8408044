import CollectionSchema.Proofs.NodeParts
import CollectionSchema.Proofs.ValueTexts

/-!
# Texts that are read

A reader that succeeds has been through all of its value, so no part of that is broken off
(`Node.whole_of_read`). An accepted document text is therefore the text of a value
(`Document.exists_valueText_of_parse`), and a node in it that is written as an object has texts of
members (`Node.exists_object_of_read`).
-/

namespace CollectionSchema

open Json (Outline Literal NamedOutline ValueText)

/-! ## Values that are not nodes -/

namespace Json.Outline

mutual

theorem whole_of_resolve : ∀ {outline : Outline} {room : Nat} {value : Json},
    resolve room outline = .ok value → outline.Whole
  | .null, _, _, _ | .bool _, _, _, _ | .number _, _, _, _ => trivial
  | .string literal, _, _, h => by
    obtain ⟨s, hs, -⟩ := Outcome.bind_eq_ok_iff.mp h
    exact Literal.complete_of_text hs
  | .array items, room + 1, _, h => by
    obtain ⟨values, hvalues, -⟩ := Outcome.bind_eq_ok_iff.mp h
    exact whole_of_resolveItems hvalues
  | .object members, room + 1, _, h => by
    obtain ⟨values, hvalues, -⟩ := Outcome.bind_eq_ok_iff.mp h
    exact whole_of_resolveMembers hvalues

theorem whole_of_resolveItems : ∀ {items : Items} {room : Nat} {values : List Json},
    resolveItems room items = .ok values → WholeItems items
  | .close, _, _, _ => trivial
  | .item value rest, room, _, h => by
    obtain ⟨value, hvalue, h⟩ := Outcome.bind_eq_ok_iff.mp h
    obtain ⟨values, hvalues, -⟩ := Outcome.bind_eq_ok_iff.mp h
    exact ⟨whole_of_resolve hvalue, whole_of_resolveItems hvalues⟩

theorem whole_of_resolveMembers : ∀ {members : Members} {room : Nat}
    {values : List (String × Json)},
    resolveMembers room members = .ok values → WholeMembers members
  | .close, _, _, _ => trivial
  | .member name value rest, room, _, h => by
    obtain ⟨s, hs, h⟩ := Outcome.bind_eq_ok_iff.mp h
    obtain ⟨value, hvalue, h⟩ := Outcome.bind_eq_ok_iff.mp h
    obtain ⟨values, hvalues, -⟩ := Outcome.bind_eq_ok_iff.mp h
    exact ⟨Literal.complete_of_text hs, whole_of_resolve hvalue, whole_of_resolveMembers hvalues⟩

end

variable {outline : Outline} {room : Nat}

theorem whole_of_readText {s : String} (h : outline.readText = .ok s) : outline.Whole := by
  obtain ⟨literal, rfl, hs⟩ := readText_eq_ok_iff.mp h
  exact Literal.complete_of_text hs

theorem whole_of_readNat {k : Nat} (h : outline.readNat = .ok k) : outline.Whole := by
  obtain ⟨numeral, rfl, -⟩ := readNat_eq_ok_iff.mp h
  trivial

theorem whole_of_readNumber {x : JsonNumber} (h : outline.readNumber room = .ok x) :
    outline.Whole := by
  obtain ⟨numeral, rfl, -⟩ := readNumber_eq_ok_iff.mp h
  trivial

variable {α : Type} {read : Outline → Except ReadError α}

theorem whole_of_readItems (hread : ∀ value a, read value = .ok a → value.Whole) :
    ∀ {items : Items} {values : List α}, readItems read items = .ok values → WholeItems items
  | .close, _, _ => trivial
  | .item value rest, _, h => by
    obtain ⟨a, ha, h⟩ := Outcome.bind_eq_ok_iff.mp h
    obtain ⟨values, hvalues, -⟩ := Outcome.bind_eq_ok_iff.mp h
    exact ⟨hread value a ha, whole_of_readItems hread hvalues⟩

theorem whole_of_readArray (hread : ∀ value a, read value = .ok a → value.Whole)
    {values : List α} (h : outline.readArray room read = .ok values) : outline.Whole := by
  obtain ⟨items, inner, rfl, -, hvalues⟩ := readArray_eq_ok_iff.mp h
  exact whole_of_readItems hread hvalues

theorem whole_of_readOptional (hread : ∀ a, read outline = .ok a → outline.Whole)
    {value : Option α} (h : outline.readOptional read = .ok value) : outline.Whole := by
  obtain ⟨hnull, -⟩ | ⟨-, a, ha, -⟩ := readOptional_eq_ok_iff.mp h
  · cases outline with
    | null => trivial
    | _ => cases hnull
  · exact hread a ha

end Json.Outline

/-! ## Nodes -/

namespace Node

theorem whole_of_readPart {room : Nat} {field : Field} {value : Outline} {part : Part}
    (hproperties : ∀ properties, readProperties room value = .ok properties → value.Whole)
    (hitems : ∀ c, read room value = .ok c → value.Whole)
    (h : readPart room field value = .ok part) : value.Whole := by
  cases field <;> obtain ⟨found, hfound, -⟩ := Outcome.bind_eq_ok_iff.mp h
  case type =>
    obtain ⟨resolved, hresolved, -⟩ := Outcome.bind_eq_ok_iff.mp hfound
    exact Outline.whole_of_resolve (ReadError.lift_eq_ok_iff.mp hresolved)
  case required => exact Outline.whole_of_readArray (fun _ _ => Outline.whole_of_readText) hfound
  case properties => exact Outline.whole_of_readOptional hproperties hfound
  case enumValues =>
    refine Outline.whole_of_readOptional (fun _ => Outline.whole_of_readArray fun _ _ => ?_) hfound
    exact Outline.whole_of_readOptional fun _ => Outline.whole_of_readText
  case pattern => exact Outline.whole_of_readOptional (fun _ => Outline.whole_of_readText) hfound
  case minLength | maxLength =>
    exact Outline.whole_of_readOptional (fun _ => Outline.whole_of_readNat) hfound
  case minimum | maximum =>
    exact Outline.whole_of_readOptional (fun _ => Outline.whole_of_readNumber) hfound
  case items => exact Outline.whole_of_readOptional hitems hfound

mutual

/-- **A node that is read is not broken off.** -/
theorem whole_of_read : ∀ {outline : Outline} {room : Nat} {n : Node},
    read room outline = .ok n → outline.Whole
  | .object members, room, n, h => by
    obtain ⟨inner, rfl, h⟩ := ReadError.enter_bind_eq_ok_iff.mp h
    exact whole_of_readMembers h
  | .array items, room, n, h => by
    obtain ⟨inner, rfl, h⟩ := ReadError.enter_bind_eq_ok_iff.mp h
    exact whole_of_readElements h
  | .number _, _, _, h | .string _, _, _, h => absurd h Outline.unwanted_ne_ok

theorem whole_of_readMembers : ∀ {members : Json.Members} {room : Nat} {seen : List Field}
    {node n : Node}, readMembers room seen node members = .ok n → Outline.WholeMembers members
  | .close, _, _, _, _, _ => trivial
  | .member name value rest, room, seen, node, n, h => by
    obtain ⟨s, hs, ⟨-, hskim, hrest⟩ | ⟨field, part, -, -, hpart, hrest⟩⟩ :=
      readMembers_member_eq_ok_iff.mp h
    · exact ⟨Literal.complete_of_text hs, (Outline.skim_eq_ok_iff value).mp hskim,
        whole_of_readMembers hrest⟩
    · exact ⟨Literal.complete_of_text hs,
        whole_of_readPart (fun _ => whole_of_readProperties) (fun _ => whole_of_read) hpart,
        whole_of_readMembers hrest⟩

theorem whole_of_readElements : ∀ {items : Json.Items} {room : Nat} {fields : List Field}
    {node n : Node}, readElements room fields node items = .ok n → Outline.WholeItems items
  | .close, _, _, _, _, _ => trivial
  | .item value rest, room, fields, node, n, h => by
    obtain ⟨field, later, part, -, hpart, hrest⟩ := readElements_item_eq_ok_iff.mp h
    exact ⟨whole_of_readPart (fun _ => whole_of_readProperties) (fun _ => whole_of_read) hpart,
      whole_of_readElements hrest⟩

theorem whole_of_readProperties : ∀ {outline : Outline} {room : Nat} {properties : Properties},
    readProperties room outline = .ok properties → outline.Whole
  | .object members, room, properties, h => by
    obtain ⟨inner, rfl, h⟩ := ReadError.enter_bind_eq_ok_iff.mp h
    exact whole_of_readEntries h
  | .number _, _, _, h | .string _, _, _, h => absurd h Outline.unwanted_ne_ok

theorem whole_of_readEntries : ∀ {members : Json.Members} {room : Nat}
    {before properties : Properties}, readEntries room before members = .ok properties →
      Outline.WholeMembers members
  | .close, _, _, _, _ => trivial
  | .member name value rest, room, before, properties, h => by
    obtain ⟨s, hs, h⟩ := Outcome.bind_eq_ok_iff.mp h
    obtain ⟨c, hc, hrest⟩ := Outcome.bind_eq_ok_iff.mp h
    exact ⟨Literal.complete_of_text (ReadError.lift_eq_ok_iff.mp hs), whole_of_read hc,
      whole_of_readEntries hrest⟩

end

/-! ## Names in nodes -/

theorem names_of_readMembers {room : Nat} {seen : List Field} {node n : Node}
    {entries : List NamedOutline}
    (h : readMembers room seen node (.ofList entries) = .ok n) :
    ∀ entry ∈ entries, ∃ name, entry.1.text = .ok name := by
  induction entries generalizing seen node with
  | nil => simp
  | cons entry entries ih =>
    obtain ⟨s, hs, ⟨-, -, hrest⟩ | ⟨field, part, -, -, -, hrest⟩⟩ :=
      readMembers_member_eq_ok_iff.mp h
    · exact List.forall_mem_cons.mpr ⟨⟨s, hs⟩, ih hrest⟩
    · exact List.forall_mem_cons.mpr ⟨⟨s, hs⟩, ih hrest⟩

/-- **A node that is written as an object** has texts of members. -/
theorem exists_object_of_read {v : ValueText} {members : Json.Members}
    (hv : v.value = .object members) {room : Nat} {n : Node} (h : read room v.value = .ok n) :
    ∃ spacing members, v = .object spacing members := by
  have hwhole := whole_of_read h
  rw [hv] at h hwhole
  obtain ⟨entries, rfl⟩ := Json.exists_members_eq_ofList hwhole
  obtain ⟨inner, -, hmembers⟩ := ReadError.enter_bind_eq_ok_iff.mp h
  exact ValueText.exists_object hv (names_of_readMembers hmembers)

end Node

/-! ## Documents -/

/-- **An accepted text** is the text of a value. -/
theorem Document.exists_valueText_of_parse {text : String} {n : Node} (h : parse text = .ok n) :
    ∃ document : ValueText, document.text = text.toList := by
  obtain ⟨value, houtline, hread⟩ := Json.readWhole_eq_ok_iff.mp h
  have hwhole : value.Whole := by
    obtain ⟨inner, node, -, hnode, ⟨name, hname, rfl⟩ | rfl⟩ := read_eq_ok_iff.mp hread
    · exact ⟨Json.Literal.complete_of_text hname, Node.whole_of_read hnode, trivial⟩
    · exact ⟨Node.whole_of_read hnode, trivial⟩
  exact ⟨⟨text.toList, value, (Json.outline_eq_iff hwhole).mp houtline, hwhole⟩, rfl⟩

end CollectionSchema
