import CollectionSchema.Proofs.RawLiterals
import Mathlib.Data.List.Induction
import Mathlib.Order.Bounds.Defs

/-!
# The delimiters of a raw text

A raw text ends at the first quote that is followed by as many hashes as were opened. So a number
of hashes is enough for a text if no quote in it is followed by as many, and `hashCount` is the
least such number from one on.

* `Pass.Exact`: what one pass over a text knows of the runs of hashes in the part that it has read.
  `exact_read` is the step lemma and `exact_foldl_read` the run lemma.
* `firstAt_of_readRaw`: a reader of raw text stops at the first delimiter.
* `raw_least_delimiter` joins both: the delimiters of a raw text are the least that it can have,
  and the closing one is the first of its kind behind the opening one.
-/

namespace CollectionSchema.Text

variable {text : List Char}

/-- What a raw text ends with: a quote and a run of hashes. -/
def delimiter (count : Nat) : List Char := '"' :: List.replicate count '#'

theorem hasRun_iff {count : Nat} : HasRun count text ↔ delimiter count <:+: text := Iff.rfl

theorem delimiter_succ (count : Nat) : delimiter (count + 1) = delimiter count ++ ['#'] := by
  rw [delimiter, List.replicate_succ', ← List.cons_append, delimiter]

theorem HasRun.mono {m n : Nat} (h : HasRun n text) (hle : m ≤ n) : HasRun m text := by
  refine List.IsInfix.trans (List.IsPrefix.isInfix ?_) h
  obtain ⟨more, rfl⟩ := Nat.exists_eq_add_of_le hle
  exact ⟨List.replicate more '#', by simp⟩

theorem concat_suffix_concat_iff {front : List Char} {c d : Char} :
    front ++ [c] <:+ text ++ [d] ↔ front <:+ text ∧ c = d := by
  have hlength : [c].length = [d].length := rfl
  rw [List.suffix_append_inj_of_length_eq hlength, List.singleton_inj]

/-! ## One pass over a text -/

/-- What a pass over a text keeps: the longest run of hashes behind a quote so far, and the run
that it is in, if a quote stands in front of it. -/
structure Pass where
  longest : Nat
  current : Option Nat

namespace Pass

/-- The run that a pass is in after one more character. -/
def extend : Option Nat → Char → Option Nat
  | _, '"' => some 0
  | some count, '#' => some (count + 1)
  | _, _ => none

def start : Pass := ⟨0, none⟩

/-- Reads one more character. -/
def read (p : Pass) (c : Char) : Pass :=
  match extend p.current c with
  | none => ⟨p.longest, none⟩
  | some count => ⟨max p.longest count, some count⟩

/-- What a pass knows of the text that it has read. -/
structure Exact (text : List Char) (p : Pass) : Prop where
  longest : ∀ n, n < p.longest ↔ HasRun (n + 1) text
  current : ∀ n, p.current = some n ↔ delimiter n <:+ text

theorem exact_start : start.Exact [] where
  longest n := by simp [start, HasRun]
  current n := by simp [start, delimiter]

/-- The run at the end of a text goes on at a hash and begins anew at a quote. -/
theorem extend_eq_some_iff {current : Option Nat}
    (h : ∀ n, current = some n ↔ delimiter n <:+ text) (c : Char) (n : Nat) :
    extend current c = some n ↔ delimiter n <:+ text ++ [c] := by
  cases n with
  | zero =>
    have hquote : delimiter 0 <:+ text ++ [c] ↔ '"' = c := by
      rw [delimiter, List.replicate_zero, ← List.nil_append ['"'], concat_suffix_concat_iff]
      exact and_iff_right List.nil_suffix
    rw [hquote]
    unfold extend
    split <;> simp_all [eq_comm]
  | succ n =>
    rw [delimiter_succ, concat_suffix_concat_iff, ← h n]
    unfold extend
    split
    · simp
    · simp
    · next hquote hhash =>
      have hnone : ¬ (current = some n ∧ '#' = c) := fun ⟨hn, hc⟩ => hhash n hn hc.symm
      simp [hnone]

/-- **Reading a character keeps a pass exact.** -/
theorem exact_read {p : Pass} (hp : p.Exact text) (c : Char) : (p.read c).Exact (text ++ [c]) := by
  have hcurrent := extend_eq_some_iff hp.current c
  -- a run in the longer text is one in the shorter, or it is at the end
  have hrun : ∀ n, HasRun (n + 1) (text ++ [c]) ↔
      extend p.current c = some (n + 1) ∨ n < p.longest := by
    intro n
    rw [hcurrent, hp.longest, hasRun_iff, List.infix_concat_iff, hasRun_iff]
  unfold read
  cases hextend : extend p.current c with
  | none =>
    refine ⟨fun n => ?_, fun n => ?_⟩
    · simp [hrun, hextend]
    · simp [← hcurrent, hextend]
  | some count =>
    refine ⟨fun n => ?_, fun n => ?_⟩
    · rw [lt_max_iff]
      constructor
      · rintro (hlt | hlt)
        · exact (hrun n).mpr (.inr hlt)
        · have hend : HasRun count (text ++ [c]) := ((hcurrent count).mp hextend).isInfix
          exact hend.mono hlt
      · intro hlonger
        rcases (hrun n).mp hlonger with heq | hlt
        · rw [hextend, Option.some.injEq] at heq
          omega
        · exact .inl hlt
    · simp [← hcurrent, hextend]

/-- **A pass over a whole text is exact.** By induction from the end of the text. -/
theorem exact_foldl_read (text : List Char) : (text.foldl read start).Exact text := by
  induction text using List.reverseRecOn with
  | nil => exact exact_start
  | append_singleton text c ih =>
    rw [List.foldl_append]
    exact exact_read ih c

/-- The longest run is what a pass over the text finds. -/
theorem longest_foldl_read (text : List Char) :
    (text.foldl read start).longest = longestRun none text := by
  refine eq_of_forall_lt_iff fun n => ?_
  rw [(exact_foldl_read text).longest, lt_longestRun_iff]
  rfl

end Pass

/-! ## The least number of hashes -/

/-- **The number of hashes is the least** that no quote in the text is followed by. -/
theorem isLeast_hashCount (text : List Char) :
    IsLeast {count | 1 ≤ count ∧ ¬ HasRun count text} (hashCount text) := by
  have hone : 1 ≤ hashCount text := Nat.succ_pos _
  refine ⟨⟨hone, fun hrun => ?_⟩, ?_⟩
  · exact Nat.lt_irrefl _ ((lt_hashCount_iff hone).mpr hrun)
  · rintro count ⟨hpositive, hnone⟩
    by_contra hlt
    exact hnone ((lt_hashCount_iff hpositive).mp (Nat.not_le.mp hlt))

/-! ## The first delimiter -/

/-- A part stands in a text right behind `before`, and at no earlier place. -/
structure FirstAt (part before text : List Char) : Prop where
  here : before ++ part <+: text
  first : ∀ earlier, earlier ++ part <+: text → before.length ≤ earlier.length

/-- A reader of raw text stops at the first delimiter. By induction on the text. -/
theorem firstAt_of_readRaw {count : Nat} {opened text rest : List Char}
    (h : readRaw count opened = some (text, rest)) : FirstAt (delimiter count) text opened := by
  induction opened generalizing text with
  | nil => cases h
  | cons c opened ih =>
    have hhere : delimiter count <+: c :: opened ↔
        c = '"' ∧ (List.replicate count '#').isPrefixOf opened := by
      rw [delimiter, List.cons_prefix_cons, List.isPrefixOf_iff_prefix, eq_comm]
    rw [readRaw] at h
    split at h
    · next hdelimiter =>
      cases h
      exact ⟨hhere.mpr hdelimiter, fun earlier _ => Nat.zero_le _⟩
    · next hother =>
      obtain ⟨⟨text', rest'⟩, hread, hvalue⟩ := Option.bind_eq_some_iff.mp h
      cases hvalue
      have hfirst := ih hread
      refine ⟨List.cons_prefix_cons.mpr ⟨rfl, hfirst.here⟩, fun earlier hearlier => ?_⟩
      cases earlier with
      | nil => exact absurd (hhere.mp hearlier) hother
      | cons d earlier =>
        have hrest := (List.cons_prefix_cons.mp hearlier).2
        exact Nat.succ_le_succ (hfirst.first earlier hrest)

/-- The closing delimiter is the first of its kind behind the opening one, whatever follows. -/
theorem firstAt_delimiter (text rest : List Char) :
    FirstAt (delimiter (hashCount text)) text (text ++ delimiter (hashCount text) ++ rest) := by
  have hread := readRaw_append_delimiter (Nat.lt_succ_self (longestRun none text)) rest
  have hclosing : text ++ delimiter (hashCount text) ++ rest =
      text ++ '"' :: (List.replicate (hashCount text) '#' ++ rest) := by
    simp [delimiter]
  rw [hclosing]
  exact firstAt_of_readRaw hread

/-- **A raw text has the least delimiters that it can have.** The number of hashes is one more than
the longest run that a pass over the text finds. It is the least number from one on that no quote in
the text is followed by, and with it the first delimiter behind the opening one is the closing one,
whatever follows. -/
theorem raw_least_delimiter (text : List Char) : ∃ count,
    raw text = 'r' :: (List.replicate count '#' ++ '"' :: (text ++ delimiter count)) ∧
      count = (text.foldl Pass.read Pass.start).longest + 1 ∧
      IsLeast {count | 1 ≤ count ∧ ¬ HasRun count text} count ∧
      ∀ rest, FirstAt (delimiter count) text (text ++ delimiter count ++ rest) := by
  refine ⟨hashCount text, ?_, ?_, isLeast_hashCount text, firstAt_delimiter text⟩
  · simp [raw, delimiter]
  · rw [Pass.longest_foldl_read, hashCount]

example : raw "\"##".toList = "r###\"\"##\"###".toList := by decide

end CollectionSchema.Text
