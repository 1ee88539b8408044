import CollectionSchema.Json.Printer
import CollectionSchema.Proofs.WrittenNumbers

/-!
# Written text is plain

Strings escape their control characters, numbers are digits, signs, points and exponents
(`JsonNumber.numeric_text`), and between the parts of a value stand blanks and line feeds only. So
the text of a JSON value holds no other control character (`plain_write`).
-/

namespace CollectionSchema

namespace Text

/-- Every character is a line feed or no control character. -/
def Plain (text : List Char) : Prop := ∀ c ∈ text, c = '\n' ∨ 0x20 ≤ c.toNat

namespace Plain

@[simp] theorem nil : Plain [] := by simp [Plain]

@[simp] theorem cons_iff {c : Char} {text : List Char} :
    Plain (c :: text) ↔ (c = '\n' ∨ 0x20 ≤ c.toNat) ∧ Plain text := by
  simp [Plain]

@[simp] theorem append_iff {text rest : List Char} :
    Plain (text ++ rest) ↔ Plain text ∧ Plain rest := by
  simp only [Plain, List.mem_append, or_imp, forall_and]

theorem replicate {c : Char} (h : 0x20 ≤ c.toNat) (n : Nat) : Plain (List.replicate n c) := by
  intro d hd
  rw [List.eq_of_mem_replicate hd]
  exact Or.inr h

theorem flatMap {f : Char → List Char} (h : ∀ c, Plain (f c)) (text : List Char) :
    Plain (text.flatMap f) := by
  intro d hd
  obtain ⟨c, -, hd⟩ := List.mem_flatMap.mp hd
  exact h c d hd

theorem subset {text part : List Char} (h : Plain text) (hpart : part ⊆ text) : Plain part :=
  fun c hc => h c (hpart hc)

theorem carriageReturn_not_mem {text : List Char} (h : Plain text) : '\r' ∉ text := by
  intro hmem
  rcases h '\r' hmem with heq | hle
  · cases heq
  · exact absurd hle (by decide)

end Plain

theorem toNat_of_isDigit {c : Char} (h : c.isDigit = true) : 0x20 ≤ c.toNat := by
  rw [Char.isDigit, Bool.and_eq_true, decide_eq_true_iff] at h
  exact Nat.le_trans (by decide) h.1

theorem plain_hexDigit : ∀ n < 16, Plain [hexDigit n] := by
  simp only [Plain.cons_iff, Plain.nil, and_true]
  decide

/-- Every character is a digit, a sign, a point or the letter of an exponent. -/
def Numeric (text : List Char) : Prop :=
  ∀ c ∈ text, c.isDigit = true ∨ c ∈ ['-', '+', '.', 'e']

namespace Numeric

@[simp] theorem nil : Numeric [] := by simp [Numeric]

@[simp] theorem cons_iff {c : Char} {text : List Char} :
    Numeric (c :: text) ↔ (c.isDigit = true ∨ c ∈ ['-', '+', '.', 'e']) ∧ Numeric text := by
  simp [Numeric]

@[simp] theorem append_iff {text rest : List Char} :
    Numeric (text ++ rest) ↔ Numeric text ∧ Numeric rest := by
  simp only [Numeric, List.mem_append, or_imp, forall_and]

@[simp] theorem zeros (n : Nat) : Numeric (List.replicate n '0') := by
  intro c hc
  rw [List.eq_of_mem_replicate hc]
  exact Or.inl (by decide)

theorem subset {text part : List Char} (h : Numeric text) (hpart : part ⊆ text) : Numeric part :=
  fun c hc => h c (hpart hc)

theorem plain {text : List Char} (h : Numeric text) : Plain text := by
  intro c hc
  rcases h c hc with hdigit | hother
  · exact Or.inr (toNat_of_isDigit hdigit)
  · simp only [List.mem_cons, List.not_mem_nil, or_false] at hother
    rcases hother with rfl | rfl | rfl | rfl
    all_goals exact Or.inr (by decide)

theorem quote_not_mem {text : List Char} (h : Numeric text) : '"' ∉ text :=
  fun hmem => absurd (h '"' hmem) (by decide)

end Numeric

end Text

open Text (Numeric Plain)

/-! ## Numbers -/

theorem numeric_natText (n : Nat) : Numeric (natText n) := fun _ hc =>
  Or.inl (Json.isDigit_of_mem_natText hc)

theorem DecimalLayout.numeric_positional (d : Decimal) : Numeric (positional d) := by
  have hdigits := numeric_natText d.digits
  unfold positional
  split
  · simp [hdigits]
  · have hpadded := Numeric.append_iff.mpr
      ⟨hdigits, Numeric.zeros ((d.leading + 1).toNat - (natText d.digits).length)⟩
    have hwhole := hpadded.subset (List.take_subset (d.leading + 1).toNat _)
    have hfraction := hpadded.subset (List.drop_subset (d.leading + 1).toNat _)
    dsimp only
    split
    · simp [hwhole]
    · simp [hwhole, hfraction]

theorem DecimalLayout.numeric_scientific (d : Decimal) : Numeric (scientific d) := by
  have hdigits := numeric_natText d.digits
  have hwhole := hdigits.subset (List.take_subset 1 _)
  have hfraction := hdigits.subset (List.tail_sublist _).subset
  have hexponent := numeric_natText d.leading.natAbs
  unfold scientific
  dsimp only
  split <;> split <;> simp [hwhole, hfraction, hexponent]

theorem DecimalLayout.numeric_text (layout : DecimalLayout) (d : Decimal) :
    Numeric (layout.text d) := by
  unfold text
  split
  · exact numeric_positional d
  · exact numeric_scientific d

theorem Binary64.numeric_text (layout : DecimalLayout) (x : Binary64) :
    Numeric (x.text layout) := by
  have hmagnitude : Numeric (if x.isZero then DecimalLayout.positional x.shortest
      else layout.text x.shortest) := by
    split
    · exact DecimalLayout.numeric_positional x.shortest
    · exact layout.numeric_text x.shortest
  unfold text
  dsimp only
  split
  · simp [hmagnitude]
  · exact hmagnitude

theorem JsonNumber.numeric_text (x : JsonNumber) : Numeric x.text := by
  cases x with
  | integer value =>
    have hdigits := numeric_natText value.natAbs
    rw [text, intText]
    split
    · simp [hdigits]
    · exact hdigits
  | real value => exact value.numeric_text layout

namespace Json

/-! ## Values -/

theorem plain_escapeChar (c : Char) : Plain (escapeChar c) := by
  unfold escapeChar
  split
  case h_8 =>
    split
    · next hcontrol =>
      have hhigh := Text.plain_hexDigit (c.toNat / 16) (by omega)
      have hlow := Text.plain_hexDigit (c.toNat % 16) (by omega)
      simp only [Plain.cons_iff] at hhigh hlow
      simp [hhigh, hlow]
    · next hcontrol => simp only [Plain.cons_iff, Plain.nil, and_true]; omega
  all_goals simp

theorem plain_quote (value : String) : Plain (quote value) := by
  have hvalue := Plain.flatMap plain_escapeChar value.toList
  simp [quote, hvalue]

theorem Style.plain_line (style : Style) (level : Nat) : Plain (style.line level) := by
  cases style with
  | compact => exact Plain.nil
  | pretty =>
    have hblanks := Plain.replicate (c := ' ') (by decide) (2 * level)
    simp [line, hblanks]

theorem Style.plain_colon (style : Style) : Plain style.colon := by
  cases style <;> simp [colon]

mutual

/-- **The text of a value is plain.** -/
theorem plain_write (style : Style) (level : Nat) : ∀ value, Plain (write style level value)
  | .null => by simp [write]
  | .bool b => by cases b <;> simp [write, boolText]
  | .number x => by
    rw [write]
    exact x.numeric_text.plain
  | .string s => by
    rw [write]
    exact plain_quote s
  | .array [] => by simp [write]
  | .array (item :: rest) => by
    have hitem := plain_write style (level + 1) item
    have hrest := plain_writeItems style level rest
    simp [write, style.plain_line, hitem, hrest]
  | .object [] => by simp [write]
  | .object ((name, value) :: rest) => by
    have hvalue := plain_write style (level + 1) value
    have hrest := plain_writeMembers style level rest
    simp [write, style.plain_line, style.plain_colon, plain_quote, hvalue, hrest]

theorem plain_writeItems (style : Style) (level : Nat) :
    ∀ items, Plain (writeItems style level items)
  | [] => by simp [writeItems, style.plain_line]
  | item :: rest => by
    have hitem := plain_write style (level + 1) item
    have hrest := plain_writeItems style level rest
    simp [writeItems, style.plain_line, hitem, hrest]

theorem plain_writeMembers (style : Style) (level : Nat) :
    ∀ members, Plain (writeMembers style level members)
  | [] => by simp [writeMembers, style.plain_line]
  | (name, value) :: rest => by
    have hvalue := plain_write style (level + 1) value
    have hrest := plain_writeMembers style level rest
    simp [writeMembers, style.plain_line, style.plain_colon, plain_quote, hvalue, hrest]

end

end Json

end CollectionSchema
