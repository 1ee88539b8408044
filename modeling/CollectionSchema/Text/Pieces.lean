/-!
# Pieces of a text

The pieces of a text between the occurrences of a character. A text without that character
is one piece, and so is the empty text.
-/

namespace CollectionSchema.Text

/-- The pieces of a text between separators, in order. -/
def pieces (separator : Char) : List Char → List (List Char)
  | [] => [[]]
  | c :: rest =>
    if c = separator then [] :: pieces separator rest
    else match pieces separator rest with
      | [] => [[c]]
      | piece :: others => (c :: piece) :: others

@[simp]
theorem pieces_nil (separator : Char) : pieces separator [] = [[]] := rfl

@[simp]
theorem pieces_cons_self (separator : Char) (rest : List Char) :
    pieces separator (separator :: rest) = [] :: pieces separator rest :=
  if_pos rfl

/-- Any other character belongs to the first piece. -/
theorem pieces_cons_of_ne {separator c : Char} (h : c ≠ separator) {rest piece : List Char}
    {others : List (List Char)} (hrest : pieces separator rest = piece :: others) :
    pieces separator (c :: rest) = (c :: piece) :: others := by
  rw [pieces, if_neg h, hrest]

theorem pieces_ne_nil (separator : Char) (text : List Char) : pieces separator text ≠ [] := by
  induction text with
  | nil => exact List.cons_ne_nil _ _
  | cons c rest ih =>
    by_cases hc : c = separator
    · rw [hc, pieces_cons_self]
      exact List.cons_ne_nil _ _
    · obtain ⟨piece, others, hrest⟩ := List.exists_cons_of_ne_nil ih
      rw [pieces_cons_of_ne hc hrest]
      exact List.cons_ne_nil _ _

/-- The pieces with the separators between them are the text. -/
theorem intercalate_pieces (separator : Char) (text : List Char) :
    [separator].intercalate (pieces separator text) = text := by
  induction text with
  | nil => rfl
  | cons c rest ih =>
    obtain ⟨piece, others, hrest⟩ := List.exists_cons_of_ne_nil (pieces_ne_nil separator rest)
    rw [hrest] at ih
    by_cases hc : c = separator
    · rw [hc, pieces_cons_self, hrest, List.intercalate_cons_cons, ih]
      rfl
    · rw [pieces_cons_of_ne hc hrest]
      cases others <;> simp_all [List.intercalate]

theorem not_mem_of_mem_pieces {separator : Char} {text piece : List Char}
    (h : piece ∈ pieces separator text) : separator ∉ piece := by
  induction text generalizing piece with
  | nil => simp_all
  | cons c rest ih =>
    by_cases hc : c = separator
    · rw [hc, pieces_cons_self] at h
      grind
    · obtain ⟨first, others, hrest⟩ := List.exists_cons_of_ne_nil (pieces_ne_nil separator rest)
      rw [pieces_cons_of_ne hc hrest] at h
      grind

end CollectionSchema.Text
