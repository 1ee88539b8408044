import CollectionSchema.Proofs.NodeDepth

/-!
# What the members of a node say

A member of a node says one thing of it, a part of the node. To read a member is to read its part
and to put that into the node (`setField_eq`), whether the node is written as an object
(`readMembers_member_eq_ok_iff`) or as an array (`readElements_item_eq_ok_iff`). Parts of different
fields do not get in each other's way (`Part.set_comm`). A document holds one node and nothing else
(`Document.read_eq_ok_iff`).
-/

namespace CollectionSchema

open Json (Outline Literal)

theorem ReadError.lift_eq_ok_iff {α : Type} {x : Except Json.Fault α} {a : α} :
    lift x = .ok a ↔ x = .ok a := by
  cases x <;> simp [lift]

/-- An array is read only where there is room to open it. -/
theorem ReadError.enter_bind_eq_ok_iff {α : Type} {room : Nat} {f : Nat → Except ReadError α}
    {a : α} : enter room >>= f = .ok a ↔ ∃ inner, room = inner + 1 ∧ f inner = .ok a := by
  cases room <;> simp [enter]

theorem ReadError.enter_bind_congr {α : Type} {room : Nat} {f g : Nat → Except ReadError α} {a : α}
    (h : ∀ inner, f inner = .ok a ↔ g inner = .ok a) :
    enter room >>= f = .ok a ↔ enter room >>= g = .ok a := by
  simp only [enter_bind_eq_ok_iff, h]

theorem Json.readWhole_eq_ok_iff {ε α : Type} {ofFault : Json.Fault → ε}
    {read : Outline → Except ε α} {text : String} {a : α} :
    readWhole ofFault read text = .ok a ↔
      ∃ value, outline text.toList = (value, false) ∧ read value = .ok a := by
  unfold readWhole
  obtain ⟨value, trailing⟩ := outline text.toList
  cases trailing <;> simp [Outcome.bind_eq_ok_iff]

theorem Json.Outline.unwanted_ne_ok {α : Type} {wanted : Wanted} {outline : Outline} {a : α} :
    outline.unwanted wanted ≠ .ok a := by
  unfold unwanted
  split <;> simp

theorem Json.Outline.readOptional_eq_ok_iff {α : Type} {read : Outline → Except ReadError α}
    {outline : Outline} {value : Option α} :
    outline.readOptional read = .ok value ↔
      (outline.isNull = true ∧ value = none) ∨
        (outline.isNull = false ∧ ∃ a, read outline = .ok a ∧ value = some a) := by
  unfold readOptional
  cases outline.isNull with
  | true => simp [eq_comm]
  | false =>
    have hread : (do return some (← read outline)) = .ok value ↔
        ∃ a, read outline = .ok a ∧ value = some a := by
      simp only [Outcome.bind_eq_ok_iff, Outcome.pure_eq_ok_iff, eq_comm (b := value)]
    simpa using hread

namespace Json.Outline

variable {outline : Outline} {room : Nat}

theorem readText_eq_ok_iff {s : String} :
    outline.readText = .ok s ↔ ∃ literal, outline = .string literal ∧ literal.text = .ok s := by
  cases outline with
  | string literal => simp [readText, ReadError.lift_eq_ok_iff]
  | _ =>
    rw [readText]
    · simp [unwanted_ne_ok]
    all_goals simp

theorem readNat_eq_ok_iff {k : Nat} : outline.readNat = .ok k ↔
    ∃ numeral, outline = .number numeral ∧ numeral.number? = some (.integer k) := by
  cases outline with
  | number numeral =>
    rw [readNat]
    split
    · next n hnumber =>
      split
      · next hn => simp [hnumber]; omega
      · next hn => simp [hnumber]; omega
    · next other hother hnumber =>
      refine iff_of_false (by simp) ?_
      rintro ⟨_, ⟨⟩, hinteger⟩
      exact hother _ (Option.some.inj (hnumber.symm.trans hinteger))
    · next hnumber => simp [hnumber]
  | _ =>
    rw [readNat]
    · simp [unwanted_ne_ok]
    all_goals simp

theorem readNumber_eq_ok_iff {x : JsonNumber} : outline.readNumber room = .ok x ↔
    ∃ numeral, outline = .number numeral ∧ numeral.number? = some x := by
  cases outline with
  | number numeral =>
    rw [readNumber]
    split <;> simp [*]
  | array items => simp [readNumber, ReadError.enter_bind_eq_ok_iff, unwanted_ne_ok]
  | object members => simp [readNumber, ReadError.enter_bind_eq_ok_iff, unwanted_ne_ok]
  | _ =>
    rw [readNumber]
    · simp [unwanted_ne_ok]
    all_goals simp

theorem readArray_eq_ok_iff {α : Type} {read : Outline → Except ReadError α} {values : List α} :
    outline.readArray room read = .ok values ↔ ∃ items inner,
      outline = .array items ∧ room = inner + 1 ∧ readItems read items = .ok values := by
  cases outline with
  | array items => simp [readArray, ReadError.enter_bind_eq_ok_iff]
  | _ =>
    rw [readArray]
    · simp [unwanted_ne_ok]
    all_goals simp

end Json.Outline

namespace Node

/-- What a member says of a node. -/
inductive Part where
  | type (type : BsonType)
  | required (names : List String)
  | properties (properties : Option Properties)
  | enumValues (values : Option (List (Option String)))
  | pattern (pattern : Option String)
  | minLength (length : Option Nat)
  | maxLength (length : Option Nat)
  | minimum (bound : Option JsonNumber)
  | maximum (bound : Option JsonNumber)
  | items (node : Option Node)

namespace Part

/-- The field that a part is about. -/
def field : Part → Field
  | .type _ => .type
  | .required _ => .required
  | .properties _ => .properties
  | .enumValues _ => .enumValues
  | .pattern _ => .pattern
  | .minLength _ => .minLength
  | .maxLength _ => .maxLength
  | .minimum _ => .minimum
  | .maximum _ => .maximum
  | .items _ => .items

/-- The node with a part in it. Properties and items that are null leave it as it is. -/
def set : Part → Node → Node
  | .type t, n => { n with type := t }
  | .required names, n => { n with required := names }
  | .properties found, n => { n with properties := found.or n.properties }
  | .enumValues values, n => { n with enumValues := values }
  | .pattern text, n => { n with keywords := { n.keywords with pattern := text } }
  | .minLength length, n => { n with keywords := { n.keywords with minLength := length } }
  | .maxLength length, n => { n with keywords := { n.keywords with maxLength := length } }
  | .minimum bound, n => { n with keywords := { n.keywords with minimum := bound } }
  | .maximum bound, n => { n with keywords := { n.keywords with maximum := bound } }
  | .items found, n => { n with items := found.or n.items }

/-- The order of two parts does not count, unless they are about the same field. -/
theorem set_comm {part other : Part} (h : part.field ≠ other.field) (n : Node) :
    part.set (other.set n) = other.set (part.set n) := by
  cases part <;> cases other <;> first | exact absurd rfl h | rfl

end Part

/-- Reads what a member says. -/
def readPart (room : Nat) (field : Field) (value : Outline) : Except ReadError Part :=
  match field with
  | .type => return .type (← BsonType.read room value)
  | .required => return .required (← value.readArray room Outline.readText)
  | .properties => return .properties (← value.readOptional (readProperties room))
  | .enumValues => do
    let readValue := Outline.readOptional Outline.readText
    return .enumValues (← value.readOptional (Outline.readArray room readValue))
  | .pattern => return .pattern (← value.readOptional Outline.readText)
  | .minLength => return .minLength (← value.readOptional Outline.readNat)
  | .maxLength => return .maxLength (← value.readOptional Outline.readNat)
  | .minimum => return .minimum (← value.readOptional (Outline.readNumber room))
  | .maximum => return .maximum (← value.readOptional (Outline.readNumber room))
  | .items => return .items (← value.readOptional (read room))

variable {room : Nat} {seen : List Field} {node n : Node} {field : Field} {value : Outline}

theorem field_of_readPart {part : Part} (h : readPart room field value = .ok part) :
    part.field = field := by
  cases field <;>
  · obtain ⟨_, -, hpart⟩ := Outcome.bind_eq_ok_iff.mp h
    cases hpart
    rfl

/-- A member sets its part. -/
theorem setField_eq (room : Nat) (node : Node) (field : Field) (value : Outline) :
    setField room node field value = do return (← readPart room field value).set node := by
  cases field
  case properties =>
    simp only [setField, readPart, Outline.readOptional]
    cases value.isNull
    · cases readProperties room value <;> rfl
    · obtain ⟨type, required, properties, enumValues, keywords, items⟩ := node
      rfl
  case items =>
    simp only [setField, readPart, Outline.readOptional]
    cases value.isNull
    · cases read room value <;> rfl
    · obtain ⟨type, required, properties, enumValues, keywords, items⟩ := node
      rfl
  all_goals
    simp only [setField, setPlain, readPart, bind_assoc, pure_bind]
    rfl

theorem setField_eq_ok_iff :
    setField room node field value = .ok n ↔
      ∃ part, readPart room field value = .ok part ∧ n = part.set node := by
  rw [setField_eq, Outcome.bind_eq_ok_iff]
  simp only [Outcome.pure_eq_ok_iff, eq_comm (b := n)]

theorem readMembers_member_eq_ok_iff {name : Literal} {rest : Json.Members} :
    readMembers room seen node (.member name value rest) = .ok n ↔
      ∃ s, name.text = .ok s ∧
        ((Field.ofName? s = none ∧ value.skim = .ok () ∧ readMembers room seen node rest = .ok n) ∨
          ∃ field part, Field.ofName? s = some field ∧ field ∉ seen ∧
            readPart room field value = .ok part ∧
            readMembers room (field :: seen) (part.set node) rest = .ok n) := by
  rw [readMembers_member_eq, Outcome.bind_eq_ok_iff]
  simp only [ReadError.lift_eq_ok_iff]
  refine exists_congr fun s => and_congr_right fun _ => ?_
  cases Field.ofName? s with
  | none => simp [Outcome.bind_eq_ok_iff, ReadError.lift_eq_ok_iff, Unique.exists_iff]
  | some field =>
    by_cases hseen : field ∈ seen
    · simp [hseen]
    · simp [hseen, Outcome.bind_eq_ok_iff, setField_eq_ok_iff]

theorem readElements_item_eq (room : Nat) (field : Field) (fields : List Field) (node : Node)
    (value : Outline) (rest : Json.Items) :
    readElements room (field :: fields) node (.item value rest) =
      setField room node field value >>= fun node => readElements room fields node rest := by
  cases field
  case properties =>
    rw [readElements, setField]
    cases value.isNull
    · cases readProperties room value <;> rfl
    · rfl
  case items =>
    rw [readElements, setField]
    cases value.isNull
    · cases read room value <;> rfl
    · rfl
  all_goals rfl

theorem readElements_item_eq_ok_iff {fields : List Field} {rest : Json.Items} :
    readElements room fields node (.item value rest) = .ok n ↔
      ∃ field later part, fields = field :: later ∧ readPart room field value = .ok part ∧
        readElements room later (part.set node) rest = .ok n := by
  cases fields with
  | nil => simp [readElements]
  | cons field later => simp [readElements_item_eq, Outcome.bind_eq_ok_iff, setField_eq_ok_iff]

end Node

namespace Document

variable {room : Nat} {n : Node}

theorem readMembers_eq_ok_iff {members : Json.Members} :
    readMembers room none members = .ok n ↔ ∃ name value,
      members = .member name value .close ∧ name.text = .ok Mismatch.documentMember ∧
        Node.read room value = .ok n := by
  have hrest : ∀ {m : Node} {rest : Json.Members}, readMembers room (some m) rest = .ok n ↔
      rest = .close ∧ m = n := by
    intro m rest
    cases rest with
    | close => simp [readMembers]
    | fault f => simp [readMembers]
    | member name value rest =>
      refine iff_of_false (fun h => ?_) (by simp)
      obtain ⟨s, -, h⟩ := Outcome.bind_eq_ok_iff.mp h
      split at h <;> cases h
  cases members with
  | close => simp [readMembers]
  | fault f => simp [readMembers]
  | member name value rest =>
    simp only [readMembers, Outcome.bind_eq_ok_iff, ReadError.lift_eq_ok_iff]
    constructor
    · rintro ⟨s, hs, h⟩
      split at h
      · cases h
      · next hname =>
        obtain ⟨m, hm, h⟩ := Outcome.bind_eq_ok_iff.mp h
        obtain ⟨rfl, rfl⟩ := hrest.mp h
        exact ⟨name, value, rfl, hs.trans (congrArg _ (not_not.mp hname)), hm⟩
    · rintro ⟨_, _, ⟨⟩, hs, hm⟩
      refine ⟨_, hs, ?_⟩
      simp only [ne_eq, not_true_eq_false, if_false, Option.isSome_none, Bool.false_eq_true]
      exact Outcome.bind_eq_ok_iff.mpr ⟨n, hm, rfl⟩

theorem readElements_eq_ok_iff {items : Json.Items} :
    readElements room items = .ok n ↔ ∃ value, items = .item value .close ∧
      Node.read room value = .ok n := by
  cases items with
  | close => simp [readElements]
  | fault f => simp [readElements]
  | item value rest =>
    rw [readElements, Outcome.bind_eq_ok_iff]
    cases rest <;> simp

/-- A document is one node, in an object with a single member or in an array. -/
theorem read_eq_ok_iff {outline : Outline} :
    read room outline = .ok n ↔ ∃ inner value, room = inner + 1 ∧ Node.read inner value = .ok n ∧
      ((∃ name : Literal, name.text = .ok Mismatch.documentMember ∧
          outline = .object (.member name value .close)) ∨
        outline = .array (.item value .close)) := by
  constructor
  · intro h
    cases outline with
    | object members =>
      obtain ⟨inner, rfl, h⟩ := ReadError.enter_bind_eq_ok_iff.mp h
      obtain ⟨name, value, rfl, hname, hread⟩ := readMembers_eq_ok_iff.mp h
      exact ⟨inner, value, rfl, hread, .inl ⟨name, hname, rfl⟩⟩
    | array items =>
      obtain ⟨inner, rfl, h⟩ := ReadError.enter_bind_eq_ok_iff.mp h
      obtain ⟨value, rfl, hread⟩ := readElements_eq_ok_iff.mp h
      exact ⟨inner, value, rfl, hread, .inr rfl⟩
    | number _ | string _ => exact absurd h Outline.unwanted_ne_ok
    | _ => cases h
  · rintro ⟨inner, value, rfl, hread, ⟨name, hname, rfl⟩ | rfl⟩
    · exact readMembers_eq_ok_iff.mpr ⟨name, value, rfl, hname, hread⟩
    · exact readElements_eq_ok_iff.mpr ⟨value, rfl, hread⟩

end Document

end CollectionSchema
