import CollectionSchema.Proofs.WrittenOutline
import CollectionSchema.Schema.Reader

/-!
# Typed readers on written values

`ReadsAs` says of a reader what it gives for the outline of a written value: the wanted result if
the value nests no deeper than there is room, and a fault in the spelling otherwise. It is shown of
the readers for strings, numbers, arrays and types; those for nodes are put together of them.
-/

namespace CollectionSchema

open Json (Outline Literal)
open Outcome (within within_zero within_succ within_zero_succ within_bind_ok within_map)

namespace ReadError

theorem lift_within {α : Type} (room depth : Nat) (a : α) :
    lift (within .malformed room depth a) = within (.spelling .malformed) room depth a := by
  unfold within
  split <;> rfl

/-- Opening an array or object takes one level of the room. -/
theorem enter_bind {α : Type} {f : Nat → Except ReadError α} {depth : Nat} {a : α}
    (h : ∀ room, f room = within (.spelling .malformed) room depth a) (room : Nat) :
    enter room >>= f = within (.spelling .malformed) room (depth + 1) a := by
  cases room with
  | zero => exact (within_zero_succ a).symm
  | succ room =>
    rw [within_succ, ← h room]
    rfl

end ReadError

namespace Json

/-- The numbers in a value read back, and `read` gives `a` for its outline if `room` more levels
may be opened and the value nests no deeper. -/
structure ReadsAs {α : Type} (value : Json) (room : Nat) (read : Outline → Except ReadError α)
    (a : α) : Prop where
  numbers : ∀ x ∈ value.numbers, x.ReadsBack
  result : read value.toOutline = within (.spelling .malformed) room value.depth a

namespace ReadsAs

variable {α β : Type} {value : Json} {room : Nat} {read : Outline → Except ReadError α} {a : α}

theorem map (h : value.ReadsAs room read a) (f : α → β) :
    value.ReadsAs room (fun outline => do return f (← read outline)) (f a) where
  numbers := h.numbers
  result := by rw [h.result, within_map]

theorem null : Json.null.ReadsAs room (Outline.readOptional read) none where
  numbers := by simp [Json.numbers]
  result := (within_zero _).symm

/-- What is not null is present. -/
theorem present (h : value.ReadsAs room read a) (hvalue : value.toOutline.isNull = false) :
    value.ReadsAs room (Outline.readOptional read) (some a) where
  numbers := h.numbers
  result := by
    rw [Outline.readOptional, hvalue]
    exact (h.map some).result

theorem string (s : String) : (Json.string s).ReadsAs room Outline.readText s where
  numbers := by simp [Json.numbers]
  result := by
    rw [toOutline, Outline.readText, Literal.text_ofChars]
    exact (within_zero _).symm

theorem ofOption (value : Option String) :
    (Json.ofOption value).ReadsAs room (Outline.readOptional Outline.readText) value := by
  cases value with
  | none => exact null
  | some s => exact (string s).present rfl

theorem number {x : JsonNumber} (hx : x.ReadsBack) :
    (Json.number x).ReadsAs room (Outline.readNumber room) x where
  numbers := by simpa [Json.numbers] using hx
  result := by
    rw [toOutline, Outline.readNumber, hx.number?_numeral]
    exact (within_zero _).symm

theorem ofNat {n : Nat} (hn : n ≤ Numeral.maxUnsigned) :
    (Json.ofNat n).ReadsAs room Outline.readNat n := by
  have hminimum : Numeral.minSigned ≤ (n : Int) :=
    Int.le_trans (by decide) (Int.natCast_nonneg n)
  have hx : (JsonNumber.integer n).ReadsBack := readsBack_integer hminimum (by omega)
  refine ⟨by simpa [Json.ofNat, Json.numbers] using hx, ?_⟩
  rw [Json.ofNat, toOutline, Outline.readNat, hx.number?_numeral]
  simp [within, depth]

theorem readItems_map {encode : β → Json} {read : Outline → Except ReadError β}
    (h : ∀ b, read (encode b).toOutline = .ok b) (values : List β) :
    Outline.readItems read (toItems (values.map encode)) = .ok values := by
  induction values with
  | nil => rfl
  | cons b values ih =>
    rw [List.map_cons, toItems, Outline.readItems, h b, Outcome.ok_bind, ih]
    rfl

/-- An array of flat values is read item by item. -/
theorem array {encode : β → Json} {read : Outline → Except ReadError β}
    (h : ∀ b, (encode b).ReadsAs 0 read b) (hflat : ∀ b, (encode b).depth = 0)
    (values : List β) :
    (Json.array (values.map encode)).ReadsAs room (Outline.readArray room read) values := by
  have hitems : itemDepth (values.map encode) = 0 := by
    induction values with
    | nil => rfl
    | cons b values ih => simp [itemDepth, hflat, ih]
  have hnumbers : ∀ x ∈ itemNumbers (values.map encode), x.ReadsBack := by
    induction values with
    | nil => simp [itemNumbers]
    | cons b values ih =>
      have hrest := ih (by simpa [itemDepth, hflat] using hitems)
      simpa [itemNumbers, or_imp, forall_and] using And.intro (h b).numbers hrest
  refine ⟨hnumbers, ?_⟩
  rw [toOutline, Outline.readArray, depth, hitems]
  refine ReadError.enter_bind (fun _ => ?_) room
  have hread : ∀ b, read (encode b).toOutline = .ok b := by
    intro b
    rw [(h b).result, hflat, within_zero]
  rw [readItems_map hread values, within_zero]

end ReadsAs

end Json

/-! ## Types -/

theorem BsonType.ofJson?_toJson (type : BsonType) : ofJson? type.toJson = some type := by
  obtain ⟨tag, nullable⟩ := type
  cases nullable with
  | false => simp [toJson, ofJson?, TypeTag.ofJson?, TypeTag.ofName?_name]
  | true => simp [toJson, ofJson?, isNullMark, TypeTag.ofJson?, TypeTag.ofName?_name]

theorem BsonType.readsAs_toJson (type : BsonType) (room : Nat) :
    type.toJson.ReadsAs room (BsonType.read room) type := by
  have hnumbers : ∀ x ∈ type.toJson.numbers, x.ReadsBack := by
    rw [toJson]
    split <;> simp [Json.numbers, Json.itemNumbers]
  refine ⟨hnumbers, ?_⟩
  rw [read, Json.resolve_toOutline type.toJson hnumbers room, ReadError.lift_within]
  refine within_bind_ok ?_
  rw [ofJson?_toJson]
  rfl

end CollectionSchema
