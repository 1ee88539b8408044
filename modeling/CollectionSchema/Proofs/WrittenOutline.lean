import CollectionSchema.Proofs.OutlineTokens
import CollectionSchema.Proofs.WrittenTokens

/-!
# Outlines of written text

The outline of the text of a value is the value again, with its literals in place of numbers and
strings (`outline_write`). Reading it succeeds exactly if the value nests no deeper than there is
room (`resolve_toOutline`).
-/

namespace CollectionSchema

open Outcome (within within_zero within_succ within_zero_succ within_bind within_map)

namespace Json

mutual

/-- The outline that a value is written as. -/
def toOutline : Json → Outline
  | .null => .null
  | .bool b => .bool b
  | .number x => .number x.numeral
  | .string s => .string (Literal.ofChars s.toList)
  | .array items => .array (toItems items)
  | .object members => .object (toMembers members)

def toItems : List Json → Items
  | [] => .close
  | item :: rest => .item (toOutline item) (toItems rest)

def toMembers : List (String × Json) → Members
  | [] => .close
  | (name, value) :: rest =>
    .member (Literal.ofChars name.toList) (toOutline value) (toMembers rest)

end

mutual

/-- A value is written as its outline is spelled. -/
theorem tokens_toOutline : ∀ value : Json, (toOutline value).tokens = tokens value
  | .null | .bool _ | .number _ | .string _ | .array [] | .object [] => rfl
  | .array (item :: rest) => by
    rw [tokens, ← tokens_toOutline item, ← itemTokens_toItems rest]
    rfl
  | .object ((name, value) :: rest) => by
    rw [tokens, ← tokens_toOutline value, ← memberTokens_toMembers rest]
    rfl

theorem itemTokens_toItems : ∀ items : List Json,
    Outline.itemTokens [.comma] (toItems items) = itemTokens items
  | [] => rfl
  | item :: rest => by
    rw [itemTokens, ← tokens_toOutline item, ← itemTokens_toItems rest]
    rfl

theorem memberTokens_toMembers : ∀ members : List (String × Json),
    Outline.memberTokens [.comma] (toMembers members) = memberTokens members
  | [] => rfl
  | (name, value) :: rest => by
    rw [memberTokens, ← tokens_toOutline value, ← memberTokens_toMembers rest]
    rfl

end

mutual

theorem whole_toOutline : ∀ value : Json, (toOutline value).Whole
  | .null | .bool _ | .number _ => trivial
  | .string s => Literal.complete_of_text (Literal.text_ofChars s)
  | .array items => whole_toItems items
  | .object members => whole_toMembers members

theorem whole_toItems : ∀ items : List Json, Outline.WholeItems (toItems items)
  | [] => trivial
  | item :: rest => ⟨whole_toOutline item, whole_toItems rest⟩

theorem whole_toMembers : ∀ members : List (String × Json),
    Outline.WholeMembers (toMembers members)
  | [] => trivial
  | (name, value) :: rest =>
    ⟨Literal.complete_of_text (Literal.text_ofChars name), whole_toOutline value,
      whole_toMembers rest⟩

end

/-- **The outline of the text of a value.** -/
theorem outline_write {value : Json} (h : ∀ x ∈ numbers value, x.ReadsBack) :
    outline (write .pretty 0 value ++ ['\n']) = (toOutline value, false) := by
  rw [outline_eq_iff (whole_toOutline value), scan_write_lineFeed h, tokens_toOutline]

section

variable {ε α : Type} {ofFault : Fault → ε} {read : Outline → Except ε α}

/-- A reader takes a text without anything behind its value as it takes the outline. -/
theorem readWhole_of_outline {text : List Char} {value : Outline}
    (h : outline text = (value, false)) :
    readWhole ofFault read (String.ofList text) = read value := by
  rw [readWhole, String.toList_ofList, h]
  change (read value >>= fun result => .ok result) = read value
  cases read value <;> rfl

/-- A reader takes the text of a value as it takes its outline. -/
theorem readWhole_write {value : Json} (h : ∀ x ∈ numbers value, x.ReadsBack) :
    readWhole ofFault read (String.ofList (write .pretty 0 value ++ ['\n'])) =
      read (toOutline value) :=
  readWhole_of_outline (outline_write h)

/-- So it does without a line feed at the end, in any style. -/
theorem readWhole_write_of_style {value : Json} (h : ∀ x ∈ numbers value, x.ReadsBack)
    (style : Style) :
    readWhole ofFault read (String.ofList (write style 0 value)) = read (toOutline value) := by
  have hscan := scan_write style 0 value h [] (by simp [EndsNumber])
  rw [List.append_nil, Token.scan, List.append_nil, ← tokens_toOutline] at hscan
  exact readWhole_of_outline ((outline_eq_iff (whole_toOutline value)).mpr hscan)

end

/-! ## Reading the outline of a value -/

mutual

/-- **The value is read back if it nests no deeper than there is room.** -/
theorem resolve_toOutline : ∀ (value : Json), (∀ x ∈ numbers value, x.ReadsBack) → ∀ room,
    Outline.resolve room (toOutline value) = within .malformed room (depth value) value
  | .null, _, room | .bool _, _, room => (within_zero _).symm
  | .number x, h, room => by
    have hx := (h x (by simp [numbers])).number?_numeral
    rw [toOutline, Outline.resolve, hx]
    exact (within_zero _).symm
  | .string s, _, room => by
    rw [toOutline, Outline.resolve, Literal.text_ofChars]
    exact (within_zero _).symm
  | .array items, h, 0 => (within_zero_succ _).symm
  | .array items, h, room + 1 => by
    rw [toOutline, Outline.resolve, resolve_toItems items h room, within_map, depth, within_succ]
  | .object members, h, 0 => (within_zero_succ _).symm
  | .object members, h, room + 1 => by
    rw [toOutline, Outline.resolve, resolve_toMembers members h room, within_map, depth,
      within_succ]

theorem resolve_toItems : ∀ (items : List Json), (∀ x ∈ itemNumbers items, x.ReadsBack) →
    ∀ room, Outline.resolveItems room (toItems items) =
      within .malformed room (itemDepth items) items
  | [], _, room => (within_zero _).symm
  | item :: rest, h, room => by
    simp only [itemNumbers, List.forall_mem_append] at h
    rw [toItems, Outline.resolveItems, resolve_toOutline item h.1 room]
    refine within_bind ?_
    rw [resolve_toItems rest h.2 room, within_map]

theorem resolve_toMembers : ∀ (members : List (String × Json)),
    (∀ x ∈ memberNumbers members, x.ReadsBack) → ∀ room,
      Outline.resolveMembers room (toMembers members) =
        within .malformed room (memberDepth members) members
  | [], _, room => (within_zero _).symm
  | (name, value) :: rest, h, room => by
    simp only [memberNumbers, List.forall_mem_append] at h
    rw [toMembers, Outline.resolveMembers, Literal.text_ofChars, Outcome.ok_bind,
      resolve_toOutline value h.1 room]
    refine within_bind ?_
    rw [resolve_toMembers rest h.2 room, within_map]

end

end Json

end CollectionSchema
