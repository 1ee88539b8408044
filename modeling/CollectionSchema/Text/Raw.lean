/-!
# Raw text

A text between delimiters that hold a run of hash signs: `r`, the run and a quote in front,
a quote and the run behind. Nothing inside is escaped; the text ends at the first quote that
is followed by as many hashes. `hashCount` is the least number of hashes, from one on, with
which the text does not end early.
-/

namespace CollectionSchema.Text

/-- The longest run of hashes right after a quote, and the run at the front if a quote stood
there: `current` is the length of the run so far. -/
def longestRun : Option Nat → List Char → Nat
  | current, [] => current.getD 0
  | current, '"' :: rest => max (current.getD 0) (longestRun (some 0) rest)
  | some n, '#' :: rest => longestRun (some (n + 1)) rest
  | current, _ :: rest => max (current.getD 0) (longestRun none rest)

section

variable {current : Option Nat} {c : Char} (n : Nat) (rest : List Char)

@[simp]
theorem longestRun_nil : longestRun current [] = current.getD 0 := rfl

@[simp]
theorem longestRun_quote :
    longestRun current ('"' :: rest) = max (current.getD 0) (longestRun (some 0) rest) :=
  rfl

@[simp]
theorem longestRun_hash :
    longestRun (some n) ('#' :: rest) = longestRun (some (n + 1)) rest :=
  rfl

/-- Any other character ends the run, a hash too where no run was open. -/
theorem longestRun_cons (hquote : c ≠ '"') (hhash : current = none ∨ c ≠ '#') :
    longestRun current (c :: rest) = max (current.getD 0) (longestRun none rest) := by
  rw [longestRun]
  · exact hquote
  · rintro n rfl rfl
    simp at hhash

end

/-- The number of hashes in the delimiters of a raw text. -/
def hashCount (text : List Char) : Nat := longestRun none text + 1

/-- The text between raw delimiters. -/
def raw (text : List Char) : List Char :=
  let hashes := List.replicate (hashCount text) '#'
  'r' :: hashes ++ '"' :: text ++ '"' :: hashes

/-- Reads a raw text after its opening delimiter with `count` hashes: the text up to the
first quote with that many hashes behind it, and what follows those. -/
def readRaw (count : Nat) : List Char → Option (List Char × List Char)
  | [] => none
  | c :: rest =>
    if c = '"' ∧ (List.replicate count '#').isPrefixOf rest then some ([], rest.drop count)
    else do
      let (text, rest) ← readRaw count rest
      some (c :: text, rest)

end CollectionSchema.Text
