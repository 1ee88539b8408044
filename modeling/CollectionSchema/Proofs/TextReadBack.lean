import CollectionSchema.Text.Quoted
import CollectionSchema.Text.Raw
import Mathlib.Data.Nat.Digits.Defs

/-!
# Quoted and raw text is read back

* `readQuoted_flatMap_escape`: a quoted text is read up to its closing quote, whichever of its
  characters show by themselves.
* `readRaw_append_delimiter`: a raw text is read up to its closing delimiter. A quote inside is
  followed by fewer hashes than the delimiter has, also where the text ends in hashes.
-/

namespace CollectionSchema.Text

/-! ## Quoted text -/

theorem hexValue?_digitChar : ∀ n < 16, hexValue? n.digitChar = some n := by decide

theorem readCodePoint_digitChar {n d : Nat} (hd : d < 16) (rest : List Char) :
    readCodePoint n (d.digitChar :: rest) = readCodePoint (n * 16 + d) rest := by
  have hbrace : d.digitChar ≠ '}' := by
    intro heq
    have hvalue := hexValue?_digitChar d hd
    rw [heq] at hvalue
    cases hvalue
  rw [readCodePoint, hexValue?_digitChar d hd]
  exact hbrace

/-- Reading the digits of a number gives the number. -/
theorem readCodePoint_hexDigits (n : Nat) (rest : List Char) :
    readCodePoint 0 (hexDigits n ++ rest) = readCodePoint n rest := by
  induction n using Nat.strongRecOn generalizing rest with
  | ind n ih =>
    by_cases hn : n < 16
    · have hdigits : hexDigits n = [n.digitChar] := Nat.toDigits_of_lt_base hn
      rw [hdigits, List.singleton_append, readCodePoint_digitChar hn, Nat.zero_mul, Nat.zero_add]
    · have hdigits : hexDigits n = hexDigits (n / 16) ++ [(n % 16).digitChar] :=
        Nat.toDigits_of_base_le (by omega) (by omega)
      have hlast : n % 16 < 16 := Nat.mod_lt _ (by omega)
      rw [hdigits, List.append_assoc, ih (n / 16) (by omega), List.singleton_append,
        readCodePoint_digitChar hlast, Nat.div_add_mod']

theorem isHexDigit_of_mem_hexDigits {n : Nat} {c : Char} (h : c ∈ hexDigits n) : isHexDigit c := by
  induction n using Nat.strongRecOn with
  | ind n ih =>
    by_cases hn : n < 16
    · have hdigits : hexDigits n = [n.digitChar] := Nat.toDigits_of_lt_base hn
      rw [hdigits, List.mem_singleton] at h
      rw [isHexDigit, h, hexValue?_digitChar n hn, Option.isSome_some]
    · have hdigits : hexDigits n = hexDigits (n / 16) ++ [(n % 16).digitChar] :=
        Nat.toDigits_of_base_le (by omega) (by omega)
      rw [hdigits, List.mem_append, List.mem_singleton] at h
      rcases h with h | h
      · exact ih (n / 16) (by omega) h
      · have hlast : n % 16 < 16 := Nat.mod_lt _ (by omega)
        rw [isHexDigit, h, hexValue?_digitChar _ hlast, Option.isSome_some]

/-- An escaped character is read back, and the rest of the text after it. -/
theorem readQuoted_escape (c : Char) (rest : List Char) :
    readQuoted (escape c ++ rest) = (readQuoted rest).map fun found => (c :: found.1, found.2) := by
  unfold escape
  split
  case h_7 _ _ _ _ _ hquote hbackslash =>
    by_cases hshows : showsItself c
    · rw [if_pos hshows, List.singleton_append, readQuoted]
      · cases readQuoted rest <;> rfl
      all_goals simp_all
    · have hvalid : c.toNat.isValidChar := c.valid
      have hbrace : readCodePoint c.toNat ('}' :: rest) = some (c.toNat, rest) := by
        simp [readCodePoint]
      rw [if_neg hshows]
      simp only [List.cons_append, List.nil_append, List.append_assoc]
      rw [readQuoted, readCodePoint_hexDigits, hbrace]
      simp only [if_pos hvalid, Char.ofNat_toNat]
      cases readQuoted rest <;> rfl
  all_goals
    simp only [List.cons_append, List.nil_append]
    rw [readQuoted]
    · simp only [letterEscape?]
      cases readQuoted rest <;> rfl
    all_goals simp

/-- **A quoted text is read back.** -/
theorem readQuoted_flatMap_escape (text rest : List Char) :
    readQuoted (text.flatMap escape ++ '"' :: rest) = some (text, rest) := by
  induction text with
  | nil => rw [List.flatMap_nil, List.nil_append, readQuoted]
  | cons c text ih =>
    rw [List.flatMap_cons, List.append_assoc, readQuoted_escape, ih, Option.map_some]

theorem carriageReturn_not_mem_escape (c : Char) : '\r' ∉ escape c := by
  unfold escape
  split
  case h_7 _ _ _ hreturn _ _ _ =>
    split
    · rw [List.mem_singleton]
      exact fun heq => hreturn heq.symm
    · have hdigits : '\r' ∉ hexDigits c.toNat := fun h =>
        absurd (isHexDigit_of_mem_hexDigits h) (by decide)
      simp [hdigits]
  all_goals decide

/-! ## Raw text -/

/-- The number of hashes at the start of a text. -/
def hashesAhead (text : List Char) : Nat := (text.takeWhile (· == '#')).length

theorem add_hashesAhead_le_longestRun (n : Nat) (text : List Char) :
    n + hashesAhead text ≤ longestRun (some n) text := by
  induction text generalizing n with
  | nil => simp [hashesAhead]
  | cons c rest ih =>
    by_cases hc : c = '#'
    · subst hc
      have hrest := ih (n + 1)
      simp only [hashesAhead, longestRun_hash, List.takeWhile_cons, beq_self_eq_true, if_true,
        List.length_cons] at hrest ⊢
      omega
    · have hahead : hashesAhead (c :: rest) = 0 := by simp [hashesAhead, hc]
      rw [hahead]
      by_cases hquote : c = '"'
      · subst hquote
        simp
      · rw [longestRun_cons rest hquote (.inr hc)]
        exact Nat.le_max_left ..

/-- What a longer run is in a part of a text it is in the whole. -/
theorem longestRun_none_le (current : Option Nat) (text : List Char) :
    longestRun none text ≤ longestRun current text := by
  cases current with
  | none => exact Nat.le_refl _
  | some n =>
    induction text generalizing n with
    | nil => exact Nat.zero_le _
    | cons c rest ih =>
      by_cases hquote : c = '"'
      · subst hquote
        simp
      · rw [longestRun_cons rest hquote (.inl rfl), Option.getD_none, Nat.zero_max]
        by_cases hc : c = '#'
        · subst hc
          exact ih (n + 1)
        · rw [longestRun_cons rest hquote (.inr hc)]
          exact Nat.le_max_right ..

theorem longestRun_none_tail_le (c : Char) (text : List Char) :
    longestRun none text ≤ longestRun none (c :: text) := by
  by_cases hquote : c = '"'
  · subst hquote
    rw [longestRun_quote]
    exact Nat.le_trans (longestRun_none_le (some 0) text) (Nat.le_max_right ..)
  · rw [longestRun_cons text hquote (.inl rfl)]
    exact Nat.le_max_right ..

/-- A text in front of a quote starts with as many hashes as the text alone does. -/
theorem hashesAhead_append_quote (text rest : List Char) :
    hashesAhead (text ++ '"' :: rest) = hashesAhead text := by
  induction text with
  | nil => rfl
  | cons c text ih =>
    by_cases hc : c = '#'
    · subst hc
      simpa [hashesAhead] using ih
    · simp [hashesAhead, hc]

theorem le_hashesAhead_of_prefix {count : Nat} {text : List Char}
    (h : List.replicate count '#' <+: text) : count ≤ hashesAhead text := by
  obtain ⟨rest, rfl⟩ := h
  simp [hashesAhead, List.takeWhile_append_of_pos]

/-- **A raw text is read back** with more hashes than follow any quote in it. -/
theorem readRaw_append_delimiter {count : Nat} {text : List Char}
    (h : longestRun none text < count) (rest : List Char) :
    readRaw count (text ++ '"' :: (List.replicate count '#' ++ rest)) = some (text, rest) := by
  induction text with
  | nil => simp [readRaw, List.isPrefixOf_iff_prefix]
  | cons c text ih =>
    have hcontinue : ¬ (c = '"' ∧ (List.replicate count '#').isPrefixOf
        (text ++ '"' :: (List.replicate count '#' ++ rest))) := by
      rintro ⟨rfl, hprefix⟩
      have hcount := le_hashesAhead_of_prefix (List.isPrefixOf_iff_prefix.mp hprefix)
      rw [hashesAhead_append_quote] at hcount
      have hrun : hashesAhead text ≤ longestRun none ('"' :: text) := by
        have hle := add_hashesAhead_le_longestRun 0 text
        rw [Nat.zero_add] at hle
        rw [longestRun_quote]
        exact Nat.le_trans hle (Nat.le_max_right ..)
      omega
    rw [List.cons_append, readRaw, if_neg hcontinue,
      ih (Nat.lt_of_le_of_lt (longestRun_none_tail_le c text) h)]
    rfl

end CollectionSchema.Text
