import CollectionSchema.Proofs.EmittedDocuments
import CollectionSchema.Proofs.NodeParts

/-!
# What is read can be written

A node that is read from a text is one that a text can say (`Node.Representable`), in whatever
spelling it is read, and its own text nests no deeper than the reader had room for
(`Node.fits_of_read`): where the reader opens an array or object, so does the writer at most, and
what the reader skims is not written. So the text of a document that was read is read again, and
is not refused for its depth (`Document.parse_render_of_parse`). Only reals may fail to read back.
-/

namespace CollectionSchema

open Json (Outline Literal)

/-! ## Values that are not nodes -/

namespace Json.Outline

variable {room : Nat} {outline : Outline}

theorem pos_of_readArray {α : Type} {read : Outline → Except ReadError α} {values : List α}
    (h : outline.readArray room read = .ok values) : 0 < room := by
  obtain ⟨_, inner, -, rfl, -⟩ := readArray_eq_ok_iff.mp h
  exact Nat.succ_pos inner

theorem pos_of_resolve_array {items : List Json} (h : outline.resolve room = .ok (.array items)) :
    0 < room := by
  cases outline with
  | array _ =>
    cases room with
    | zero => cases h
    | succ room => exact Nat.succ_pos room
  | object _ =>
    cases room with
    | zero => cases h
    | succ room =>
      obtain ⟨_, -, hvalue⟩ := Outcome.bind_eq_ok_iff.mp h
      cases hvalue
  | string _ =>
    obtain ⟨_, -, hvalue⟩ := Outcome.bind_eq_ok_iff.mp h
    cases hvalue
  | number n =>
    rw [resolve] at h
    split at h <;> cases h
  | _ => cases h

end Json.Outline

/-- The type is an array only where it is read from one. -/
theorem BsonType.depth_toJson_le_of_read {room : Nat} {outline : Outline} {type : BsonType}
    (h : read room outline = .ok type) : type.toJson.depth ≤ room := by
  obtain ⟨value, hvalue, htype⟩ := Outcome.bind_eq_ok_iff.mp h
  rw [ReadError.lift_eq_ok_iff] at hvalue
  obtain ⟨tag, nullable⟩ := type
  cases nullable with
  | false => exact Nat.zero_le room
  | true =>
    suffices harray : ∃ items, value = .array items by
      obtain ⟨items, rfl⟩ := harray
      exact Outline.pos_of_resolve_array hvalue
    have htype : ofJson? value = some ⟨tag, true⟩ := by
      split at htype
      · next hsome =>
        cases htype
        exact hsome
      · cases htype
    unfold ofJson? at htype
    split at htype
    · exact ⟨_, rfl⟩
    · obtain ⟨_, -, htag⟩ := Option.map_eq_some_iff.mp htype
      cases htag

/-! ## Nodes that a text can say -/

namespace Node

/-- What a text can say of a node itself, if its reals read back: the properties have distinct
names, lengths and integers fit 64 bits. -/
structure Representable (n : Node) : Prop where
  names : ∀ properties, n.properties = some properties →
    (Properties.names properties).Nodup
  lengths : ∀ k, n.keywords.minLength = some k ∨ n.keywords.maxLength = some k →
    k ≤ Json.Numeral.maxUnsigned
  integers : ∀ value : Int, n.keywords.minimum = some (.integer value) ∨
    n.keywords.maximum = some (.integer value) →
      Json.Numeral.minSigned ≤ value ∧ value ≤ Json.Numeral.maxUnsigned

/-- The reals among the bounds of a node. -/
def HasReal (n : Node) (x : Binary64) : Prop :=
  n.keywords.minimum = some (.real x) ∨ n.keywords.maximum = some (.real x)

theorem Representable.writable {n : Node} (h : n.Representable)
    (hreals : ∀ x, n.HasReal x → (JsonNumber.real x).ReadsBack) : n.Writable where
  names := h.names
  lengths := h.lengths
  numbers := by
    intro x hx
    cases x with
    | integer value =>
      obtain ⟨hleast, hlargest⟩ := h.integers value hx
      exact Json.readsBack_integer hleast hlargest
    | real value => exact hreals value hx

/-- A node that text of a depth can say, with everything in it. -/
structure Fits (room : Nat) (n : Node) : Prop where
  depth : n.toJson.depth ≤ room
  representable : ∀ place m, n.Holds place m → m.Representable

end Node

/-- A map nests one deeper than its nodes. -/
theorem Properties.depth_toJson_le_iff {room : Nat} {properties : Properties} :
    properties.toJson.depth ≤ room + 1 ↔ ∀ entry ∈ properties, entry.2.toJson.depth ≤ room := by
  rw [toJson, Json.depth, Nat.add_le_add_iff_right, Json.memberDepth_le_iff]
  constructor
  · intro h entry hentry
    exact h _ (mem_toMembers_iff.mpr ⟨entry, hentry, rfl⟩)
  · intro h member hmember
    obtain ⟨entry, hentry, rfl⟩ := mem_toMembers_iff.mp hmember
    exact h entry hentry

/-- Properties that text of a depth can say. -/
structure Properties.Fits (room : Nat) (properties : Properties) : Prop where
  names : properties.names.Nodup
  nodes : ∀ entry ∈ properties, entry.2.Fits room

namespace Properties.Fits

variable {room : Nat} {properties : Properties}

theorem nil : Properties.Fits room [] where
  names := List.nodup_nil
  nodes := by simp

theorem insert (h : properties.Fits room) (name : String) {n : Node} (hn : n.Fits room) :
    (properties.insert name n).Fits room where
  names := Properties.nodup_names_insert h.names
  nodes := by
    intro entry hentry
    rcases Properties.mem_of_mem_insert hentry with rfl | hmem
    · exact hn
    · exact h.nodes entry hmem

theorem depth_toJson_le (h : properties.Fits room) : properties.toJson.depth ≤ room + 1 :=
  Properties.depth_toJson_le_iff.mpr fun entry hentry => (h.nodes entry hentry).depth

end Properties.Fits

namespace Node

/-! ## Parts that a text can say -/

namespace Part

/-- The members that a part is written as: none where there is nothing to say. -/
def entries : Part → List (Field × Json)
  | .type t => [(.type, t.toJson)]
  | .required names => if names.isEmpty then [] else [(.required, .ofStrings names)]
  | .properties found => optionalEntry .properties Properties.toJson found
  | .enumValues values => optionalEntry .enumValues enumJson values
  | .pattern text => optionalEntry .pattern .string text
  | .minLength length => optionalEntry .minLength .ofNat length
  | .maxLength length => optionalEntry .maxLength .ofNat length
  | .minimum bound => optionalEntry .minimum .number bound
  | .maximum bound => optionalEntry .maximum .number bound
  | .items found => optionalEntry .items toJson found

/-- What a part says can be said in text, apart from how deep it is. -/
def Representable : Part → Prop
  | .properties found => ∀ properties, found = some properties →
    (Properties.names properties).Nodup ∧
      ∀ entry ∈ properties, ∀ place m, Holds entry.2 place m → Node.Representable m
  | .minLength length | .maxLength length => ∀ k, length = some k → k ≤ Json.Numeral.maxUnsigned
  | .minimum bound | .maximum bound => ∀ value : Int, bound = some (.integer value) →
    Json.Numeral.minSigned ≤ value ∧ value ≤ Json.Numeral.maxUnsigned
  | .items found => ∀ c, found = some c → ∀ place m, Holds c place m → Node.Representable m
  | .type _ | .required _ | .enumValues _ | .pattern _ => True

/-- A part that text of a depth can say. -/
structure Fits (room : Nat) (part : Part) : Prop where
  depth : ∀ entry ∈ part.entries, entry.2.depth ≤ room
  representable : part.Representable

end Part

/-- A node, part by part. -/
def parts (n : Node) : List Part :=
  [.type n.type, .required n.required, .properties n.properties, .enumValues n.enumValues,
    .pattern n.keywords.pattern, .minLength n.keywords.minLength, .maxLength n.keywords.maxLength,
    .minimum n.keywords.minimum, .maximum n.keywords.maximum, .items n.items]

theorem entries_eq_flatMap (n : Node) : n.entries = n.parts.flatMap Part.entries := by
  simp [entries, keywordEntries, parts, Part.entries]

/-- To set a part is to put it in its place, if there is anything to set. -/
theorem parts_set (part : Part) (n : Node) :
    (part.set n).parts = n.parts ∨ ∃ i, (part.set n).parts = n.parts.set i part := by
  cases part with
  | type _ => exact .inr ⟨0, rfl⟩
  | required _ => exact .inr ⟨1, rfl⟩
  | properties found =>
    cases found with
    | none => exact .inl rfl
    | some _ => exact .inr ⟨2, rfl⟩
  | enumValues _ => exact .inr ⟨3, rfl⟩
  | pattern _ => exact .inr ⟨4, rfl⟩
  | minLength _ => exact .inr ⟨5, rfl⟩
  | maxLength _ => exact .inr ⟨6, rfl⟩
  | minimum _ => exact .inr ⟨7, rfl⟩
  | maximum _ => exact .inr ⟨8, rfl⟩
  | items found =>
    cases found with
    | none => exact .inl rfl
    | some _ => exact .inr ⟨9, rfl⟩

variable {room : Nat} {n : Node}

theorem fits_set {part : Part} (hn : ∀ other ∈ n.parts, other.Fits room) (hpart : part.Fits room) :
    ∀ other ∈ (part.set n).parts, other.Fits room := by
  intro other hother
  rcases parts_set part n with hsame | ⟨i, hset⟩
  · rw [hsame] at hother
    exact hn other hother
  · rw [hset] at hother
    rcases List.mem_or_eq_of_mem_set hother with hother | rfl
    · exact hn other hother
    · exact hpart

/-- A node nests one deeper than its parts. -/
theorem fits_of_parts (h : ∀ part ∈ n.parts, part.Fits room) : n.Fits (room + 1) := by
  have hpart : ∀ {part : Part}, part ∈ n.parts → part.Representable := fun hmem =>
    (h _ hmem).representable
  constructor
  · rw [toJson_eq_object, Json.depth, Nat.add_le_add_iff_right, Json.memberDepth_le_iff]
    intro member hmember
    obtain ⟨entry, hentry, rfl⟩ := List.mem_map.mp hmember
    rw [entries_eq_flatMap] at hentry
    obtain ⟨part, hmem, hentry⟩ := List.mem_flatMap.mp hentry
    exact (h part hmem).depth entry hentry
  · have hproperties : (Part.properties n.properties).Representable := hpart (by simp [parts])
    have hitems : (Part.items n.items).Representable := hpart (by simp [parts])
    have hminLength : (Part.minLength n.keywords.minLength).Representable :=
      hpart (by simp [parts])
    have hmaxLength : (Part.maxLength n.keywords.maxLength).Representable :=
      hpart (by simp [parts])
    have hminimum : (Part.minimum n.keywords.minimum).Representable := hpart (by simp [parts])
    have hmaximum : (Part.maximum n.keywords.maximum).Representable := hpart (by simp [parts])
    rw [forall_holds_iff]
    refine ⟨⟨fun properties hsome => (hproperties properties hsome).1, ?_, ?_⟩, ?_⟩
    · intro k hk
      exact hk.elim (hminLength k) (hmaxLength k)
    · intro value hvalue
      exact hvalue.elim (hminimum value) (hmaximum value)
    · intro c hc
      cases hc with
      | property hsome hmem => exact (hproperties _ hsome).2 _ hmem
      | items hsome => exact hitems c hsome

/-! ## Reading parts -/

theorem depth_optionalEntry_le {α : Type} {field : Field} {toJson : α → Json} {value : Option α}
    (h : ∀ a, value = some a → (toJson a).depth ≤ room) :
    ∀ entry ∈ optionalEntry field toJson value, entry.2.depth ≤ room := by
  intro entry hentry
  obtain ⟨a, ha, rfl⟩ := mem_optionalEntry_iff.mp hentry
  exact h a ha

/-- A part that is read can be said with as much room, if the nodes in it can. -/
theorem fits_of_readPart {field : Field} {value : Outline} {part : Part}
    (hproperties : ∀ properties, readProperties room value = .ok properties →
      ∃ inner, room = inner + 1 ∧ Properties.Fits inner properties)
    (hitems : ∀ c, read room value = .ok c → c.Fits room)
    (h : readPart room field value = .ok part) : part.Fits room := by
  cases field with
  | type =>
    obtain ⟨type, htype, ⟨⟩⟩ := Outcome.bind_eq_ok_iff.mp h
    refine ⟨?_, trivial⟩
    intro entry hentry
    obtain rfl := List.mem_singleton.mp hentry
    exact BsonType.depth_toJson_le_of_read htype
  | required =>
    obtain ⟨names, hnames, ⟨⟩⟩ := Outcome.bind_eq_ok_iff.mp h
    refine ⟨?_, trivial⟩
    intro entry hentry
    rw [Part.entries] at hentry
    split at hentry
    · cases hentry
    · obtain rfl := List.mem_singleton.mp hentry
      have hdepth := Json.depth_array_map_le .string (fun _ => rfl) names
      exact hdepth.trans (Outline.pos_of_readArray hnames)
  | properties =>
    obtain ⟨found, hfound, ⟨⟩⟩ := Outcome.bind_eq_ok_iff.mp h
    have hfits : ∀ properties, found = some properties →
        ∃ inner, room = inner + 1 ∧ Properties.Fits inner properties := by
      rintro properties rfl
      obtain ⟨-, hnone⟩ | ⟨-, _, hread, hsome⟩ := Outline.readOptional_eq_ok_iff.mp hfound
      · cases hnone
      · cases hsome
        exact hproperties properties hread
    constructor
    · refine depth_optionalEntry_le fun properties hsome => ?_
      obtain ⟨inner, rfl, hinner⟩ := hfits properties hsome
      exact hinner.depth_toJson_le
    · intro properties hsome
      obtain ⟨inner, -, hinner⟩ := hfits properties hsome
      exact ⟨hinner.names, fun entry hentry => (hinner.nodes entry hentry).representable⟩
  | enumValues =>
    obtain ⟨found, hfound, ⟨⟩⟩ := Outcome.bind_eq_ok_iff.mp h
    refine ⟨depth_optionalEntry_le ?_, trivial⟩
    rintro values rfl
    obtain ⟨-, hnone⟩ | ⟨-, _, hread, -⟩ := Outline.readOptional_eq_ok_iff.mp hfound
    · cases hnone
    · have hdepth := Json.depth_array_map_le .ofOption (fun value => by cases value <;> rfl) values
      exact hdepth.trans (Outline.pos_of_readArray hread)
  | pattern =>
    obtain ⟨found, -, ⟨⟩⟩ := Outcome.bind_eq_ok_iff.mp h
    exact ⟨depth_optionalEntry_le fun _ _ => Nat.zero_le room, trivial⟩
  | minLength | maxLength =>
    obtain ⟨found, hfound, ⟨⟩⟩ := Outcome.bind_eq_ok_iff.mp h
    refine ⟨depth_optionalEntry_le fun _ _ => Nat.zero_le room, ?_⟩
    rintro k rfl
    obtain ⟨-, hnone⟩ | ⟨-, _, hread, hsome⟩ := Outline.readOptional_eq_ok_iff.mp hfound
    · cases hnone
    · cases hsome
      obtain ⟨numeral, -, hnumeral⟩ := Outline.readNat_eq_ok_iff.mp hread
      exact Int.ofNat_le.mp (Json.Numeral.integer_range_of_number? hnumeral).2
  | minimum | maximum =>
    obtain ⟨found, hfound, ⟨⟩⟩ := Outcome.bind_eq_ok_iff.mp h
    refine ⟨depth_optionalEntry_le fun _ _ => Nat.zero_le room, ?_⟩
    rintro value rfl
    obtain ⟨-, hnone⟩ | ⟨-, _, hread, hsome⟩ := Outline.readOptional_eq_ok_iff.mp hfound
    · cases hnone
    · cases hsome
      obtain ⟨numeral, -, hnumeral⟩ := Outline.readNumber_eq_ok_iff.mp hread
      exact Json.Numeral.integer_range_of_number? hnumeral
  | items =>
    obtain ⟨found, hfound, ⟨⟩⟩ := Outcome.bind_eq_ok_iff.mp h
    have hfits : ∀ c, found = some c → c.Fits room := by
      rintro c rfl
      obtain ⟨-, hnone⟩ | ⟨-, _, hread, hsome⟩ := Outline.readOptional_eq_ok_iff.mp hfound
      · cases hnone
      · cases hsome
        exact hitems c hread
    exact ⟨depth_optionalEntry_le fun c hsome => (hfits c hsome).depth,
      fun c hsome => (hfits c hsome).representable⟩

/-! ## Reading nodes -/

theorem fits_of_mem_parts_blank : ∀ part ∈ blank.parts, part.Fits room := by
  have hrepresentable : ∀ part ∈ blank.parts, part.Representable := by
    simp [parts, blank, ofType, Part.Representable]
  have hflat : ∀ entry ∈ blank.entries, entry.2.depth = 0 := by decide
  intro part hpart
  refine ⟨?_, hrepresentable part hpart⟩
  intro entry hentry
  have hmem : entry ∈ blank.entries := by
    rw [entries_eq_flatMap]
    exact List.mem_flatMap.mpr ⟨part, hpart, hentry⟩
  exact (hflat entry hmem).le.trans (Nat.zero_le room)

mutual

/-- **A node that is read can be said with as much room as it was read with.** -/
theorem fits_of_read : ∀ {outline : Outline} {room : Nat} {n : Node},
    read room outline = .ok n → n.Fits room
  | .object members, room, n, h => by
    obtain ⟨inner, rfl, h⟩ := ReadError.enter_bind_eq_ok_iff.mp h
    exact fits_of_parts (fits_of_readMembers fits_of_mem_parts_blank h)
  | .array items, room, n, h => by
    obtain ⟨inner, rfl, h⟩ := ReadError.enter_bind_eq_ok_iff.mp h
    exact fits_of_parts (fits_of_readElements fits_of_mem_parts_blank h)
  | .number _, _, _, h | .string _, _, _, h => absurd h Outline.unwanted_ne_ok

theorem fits_of_readMembers : ∀ {members : Json.Members} {room : Nat} {seen : List Field}
    {node n : Node}, (∀ part ∈ node.parts, part.Fits room) →
      readMembers room seen node members = .ok n → ∀ part ∈ n.parts, part.Fits room
  | .close, room, seen, node, n, hnode, h => by
    rw [readMembers] at h
    split at h
    · cases h
      exact hnode
    · cases h
  | .fault _, room, seen, node, n, hnode, h => by cases h
  | .member name value rest, room, seen, node, n, hnode, h => by
    obtain ⟨_, -, ⟨-, -, hrest⟩ | ⟨field, part, -, -, hpart, hrest⟩⟩ :=
      readMembers_member_eq_ok_iff.mp h
    · exact fits_of_readMembers hnode hrest
    · have hfits : part.Fits room :=
        fits_of_readPart (fun _ => fits_of_readProperties) (fun _ => fits_of_read) hpart
      exact fits_of_readMembers (fits_set hnode hfits) hrest

theorem fits_of_readElements : ∀ {items : Json.Items} {room : Nat} {fields : List Field}
    {node n : Node}, (∀ part ∈ node.parts, part.Fits room) →
      readElements room fields node items = .ok n → ∀ part ∈ n.parts, part.Fits room
  | .close, room, fields, node, n, hnode, h => by
    rw [readElements] at h
    split at h
    · cases h
    · cases h
      exact hnode
  | .fault _, room, fields, node, n, hnode, h => by cases h
  | .item value rest, room, fields, node, n, hnode, h => by
    obtain ⟨field, later, part, -, hpart, hrest⟩ := readElements_item_eq_ok_iff.mp h
    have hfits : part.Fits room :=
      fits_of_readPart (fun _ => fits_of_readProperties) (fun _ => fits_of_read) hpart
    exact fits_of_readElements (fits_set hnode hfits) hrest

theorem fits_of_readProperties : ∀ {outline : Outline} {room : Nat} {properties : Properties},
    readProperties room outline = .ok properties →
      ∃ inner, room = inner + 1 ∧ properties.Fits inner
  | .object members, room, properties, h => by
    obtain ⟨inner, rfl, h⟩ := ReadError.enter_bind_eq_ok_iff.mp h
    exact ⟨inner, rfl, fits_of_readEntries .nil h⟩
  | .number _, _, _, h | .string _, _, _, h => absurd h Outline.unwanted_ne_ok

theorem fits_of_readEntries : ∀ {members : Json.Members} {room : Nat}
    {before properties : Properties}, before.Fits room →
      readEntries room before members = .ok properties → properties.Fits room
  | .close, room, before, properties, hbefore, h => by
    cases h
    exact hbefore
  | .fault _, room, before, properties, hbefore, h => by cases h
  | .member name value rest, room, before, properties, hbefore, h => by
    obtain ⟨s, -, h⟩ := Outcome.bind_eq_ok_iff.mp h
    obtain ⟨c, hc, hrest⟩ := Outcome.bind_eq_ok_iff.mp h
    exact fits_of_readEntries (hbefore.insert s (fits_of_read hc)) hrest

end

end Node

/-! ## Documents -/

namespace Document

variable {n : Node}

/-- **The text of a document that was read is read again**, whatever spelling it was read from, if
the reals in it read back. It nests no deeper than the reader needed to go for the first text. -/
theorem parse_render_of_parse {t : String} (h : parse t = .ok n)
    (hreals : ∀ place m, n.Holds place m → ∀ x, m.HasReal x → (JsonNumber.real x).ReadsBack) :
    parse (render n) = .ok n ∧
      ∀ limit, Json.readWhole .spelling (read limit) t = .ok n →
        Json.nesting (render n).toList ≤ limit := by
  have hnesting : ∀ limit, Json.readWhole .spelling (read limit) t = .ok n →
      (∀ place m, n.Holds place m → m.Writable) ∧ Json.nesting (render n).toList ≤ limit := by
    intro limit hlimit
    obtain ⟨outline, -, hread⟩ := Json.readWhole_eq_ok_iff.mp hlimit
    obtain ⟨inner, outline, rfl, hnode, -⟩ := read_eq_ok_iff.mp hread
    have hfits : n.Fits inner := Node.fits_of_read hnode
    have hwritable : ∀ place m, n.Holds place m → m.Writable := fun place m hm =>
      (hfits.representable place m hm).writable (hreals place m hm)
    refine ⟨hwritable, ?_⟩
    rw [nesting_render hwritable, depth_toJson]
    exact Nat.succ_le_succ hfits.depth
  obtain ⟨hwritable, hdepth⟩ := hnesting Json.maxNesting h
  exact ⟨(parse_render n hwritable).2.1 hdepth, fun limit hlimit => (hnesting limit hlimit).2⟩

/-! ### A document in a spelling of its own -/

def half : Binary64 := ⟨false, 4503599627370496, 1021⟩

def halfNumeral : Json.Numeral := ⟨false, ['0'], ['5'], none⟩

theorem number?_halfNumeral : halfNumeral.number? = some (.real half) := by
  have hfields : (halfNumeral.number?.bind fun
      | .real x => some (x.negative, x.mantissa, x.scale)
      | .integer _ => none) = some (false, 4503599627370496, 1021) := by decide +kernel
  obtain ⟨number, hnumber, hfields⟩ := Option.bind_eq_some_iff.mp hfields
  rw [hnumber]
  cases number with
  | integer _ => cases hfields
  | real x =>
    obtain ⟨negative, mantissa, scale⟩ := x
    cases hfields
    rfl

theorem readsBack_half : (JsonNumber.real half).ReadsBack := by
  have htext : (JsonNumber.real half).text = ['0', '.', '5'] := by decide +kernel
  have hnumeral : JsonNumber.numeral? ['0', '.', '5'] = some halfNumeral := by decide
  rw [JsonNumber.ReadsBack, htext, JsonNumber.ofText?, hnumeral, Option.bind_some,
    number?_halfNumeral]

/-- A share of one half or more, or nothing. -/
def shareNode : Node :=
  { type := ⟨.number, true⟩, keywords := { minimum := some (.real half) } }

/-- The wrapper is an array and the tag an object, the type comes last, one member is null and
another is none of a node. -/
def shareText : String :=
  "[\x7b\"note\": [[1e999]], \"minimum\": 0.5, \"pattern\": null,
    \"bsonType\": [\x7b\"number\": null\x7d, \"null\"]\x7d]"

def shareMembers : Json.Members :=
  .member (.ofChars "note".toList)
      (.array (.item (.array (.item (.number ⟨false, ['1'], [], some ⟨false, ['9', '9', '9']⟩⟩)
        .close)) .close)) <|
    .member (.ofChars "minimum".toList) (.number halfNumeral) <|
    .member (.ofChars "pattern".toList) .null <|
    .member (.ofChars "bsonType".toList)
      (.array (.item (.object (.member (.ofChars "number".toList) .null .close))
        (.item (.string (.ofChars "null".toList)) .close))) .close

theorem parse_shareText : parse shareText = .ok shareNode := by
  have hwhole : (Outline.array (.item (.object shareMembers) .close)).Whole := by
    repeat' constructor
  have houtline : Json.outline shareText.toList =
      (.array (.item (.object shareMembers) .close), false) := by
    -- the characters of a literal are slow to evaluate, a list of them is not
    have htext : shareText.toList = _ := String.toList_ofList
    rw [htext]
    exact (Json.outline_eq_iff hwhole).mpr (by decide +kernel)
  have hminimum : Outline.readNumber 125 (.number halfNumeral) = .ok (.real half) := by
    rw [Outline.readNumber, number?_halfNumeral]
  have hmembers : Node.readMembers 125 [] Node.blank shareMembers = .ok shareNode := by
    refine Node.readMembers_member_eq_ok_iff.mpr ⟨"note", rfl, .inl ⟨by decide, rfl, ?_⟩⟩
    refine Node.readMembers_member_eq_ok_iff.mpr ⟨"minimum", rfl, .inr ⟨.minimum,
      .minimum (some (.real half)), by decide, by decide, ?_, ?_⟩⟩
    · exact Outcome.bind_eq_ok_iff.mpr ⟨_, Outcome.bind_eq_ok_iff.mpr ⟨_, hminimum, rfl⟩, rfl⟩
    refine Node.readMembers_member_eq_ok_iff.mpr ⟨"pattern", rfl, .inr ⟨.pattern,
      .pattern none, by decide, by decide, rfl, ?_⟩⟩
    exact Node.readMembers_member_eq_ok_iff.mpr ⟨"bsonType", rfl, .inr ⟨.type,
      .type ⟨.number, true⟩, by decide, by decide, rfl, rfl⟩⟩
  have hnode : Node.read 126 (.object shareMembers) = .ok shareNode :=
    ReadError.enter_bind_eq_ok_iff.mpr ⟨125, rfl, hmembers⟩
  refine Json.readWhole_eq_ok_iff.mpr ⟨_, houtline, ?_⟩
  refine ReadError.enter_bind_eq_ok_iff.mpr ⟨126, rfl, ?_⟩
  rw [readElements, hnode]
  rfl

theorem parse_render_shareNode : parse shareText = .ok shareNode ∧
    (∀ place m, shareNode.Holds place m → ∀ x, m.HasReal x → (JsonNumber.real x).ReadsBack) ∧
    parse (render shareNode) = .ok shareNode ∧ Json.nesting (render shareNode).toList ≤ 127 := by
  have hreals : ∀ place m, shareNode.Holds place m → ∀ x, m.HasReal x →
      (JsonNumber.real x).ReadsBack := by
    rw [Node.forall_holds_iff]
    constructor
    · intro x hx
      obtain rfl : half = x := by simpa [shareNode, Node.HasReal] using hx
      exact readsBack_half
    · intro c hc
      cases hc with
      | property hproperties _ => cases hproperties
      | items hitems => cases hitems
  obtain ⟨hparse, hnesting⟩ := parse_render_of_parse parse_shareText hreals
  exact ⟨parse_shareText, hreals, hparse, hnesting 127 parse_shareText⟩

end Document

end CollectionSchema
