/-!
# Blank characters

The characters of the Unicode property White_Space, and trimming by them.
-/

namespace CollectionSchema.Text

/-- White_Space: the ASCII blanks from tab to carriage return and the space, the next-line
and no-break characters, and the spaces and separators of the general punctuation. -/
def isBlank (c : Char) : Bool :=
  let n := c.toNat
  (0x09 ≤ n && n ≤ 0x0D) || n == 0x20 || n == 0x85 || n == 0xA0 || n == 0x1680 ||
    (0x2000 ≤ n && n ≤ 0x200A) || n == 0x2028 || n == 0x2029 || n == 0x202F || n == 0x205F ||
    n == 0x3000

/-- A text without the blanks at its end. Most texts have none there and stay as they are. -/
def trimEnd (text : List Char) : List Char :=
  if text.getLast?.any isBlank then (text.reverse.dropWhile isBlank).reverse else text

/-- A text without the blanks at its ends. -/
def trim (text : List Char) : List Char := trimEnd (text.dropWhile isBlank)

/-- Whether a text has no character but blanks. -/
def isAllBlank (text : List Char) : Bool := text.all isBlank

theorem isBlank_of_isWhitespace {c : Char} (h : c.isWhitespace) : isBlank c := by
  simp only [Char.isWhitespace, Bool.or_eq_true, decide_eq_true_eq] at h
  rcases h with ((h | h) | h) | h <;> subst h <;> decide

theorem trimEnd_eq (text : List Char) :
    trimEnd text = (text.reverse.dropWhile isBlank).reverse := by
  unfold trimEnd
  split
  · rfl
  · rename_i h
    rw [← List.head?_reverse] at h
    cases hr : text.reverse with
    | nil => simpa using hr
    | cons c rest =>
      rw [hr] at h
      rw [List.dropWhile_cons_of_neg (by simpa using h), ← hr, List.reverse_reverse]

/-- Trimming shortens. -/
theorem length_trim_le (text : List Char) : (trim text).length ≤ text.length := by
  have h (cs : List Char) : (cs.dropWhile isBlank).length ≤ cs.length :=
    (List.dropWhile_suffix isBlank).sublist.length_le
  have h1 := h (text.dropWhile isBlank).reverse
  have h2 := h text
  simp only [trim, trimEnd_eq, List.length_reverse] at *
  omega

end CollectionSchema.Text
