import CollectionSchema.Proofs.NodeTexts
import CollectionSchema.Proofs.TableReading

/-!
# Raw literals of the document table

A raw literal may be opened with 255 hashes at most (`SourceText.maxHashes`). The text of a table
opens that of a document with one more than stand behind any quote in it. How many that are depends
on the strings of the document: an escaped quote is still a quote, and so is the one in front of a
string, while nothing else in a JSON text has a hash behind a quote.

* `Text.lt_hashCount_iff`: what the number of hashes says of a text.
* `Json.hasRun_write_iff`: a run of hashes in the text of a value is one in a string of the value,
  or at its start. By induction on the value.
* `DocumentTable.holdsRaw_sourceText_iff`: the raw literals of a table are the texts of its entries.
* `Artifacts.raw_literals_valid_iff`: they are all valid exactly if no string of a document has a
  run of 255 hashes. A pattern can have one (`raw_literal_invalid`).
-/

namespace CollectionSchema

namespace Text

/-! ## Runs of hashes -/

/-- A quote with `n` hashes behind it stands in a text. -/
def HasRun (n : Nat) (text : List Char) : Prop := ('"' :: List.replicate n '#') <:+: text

instance (n : Nat) (text : List Char) : Decidable (HasRun n text) :=
  inferInstanceAs (Decidable (('"' :: List.replicate n '#') <:+: text))

section

variable {n : Nat} {text rest : List Char}

/-- A run does not cross into a text that does not start with a hash. -/
theorem hasRun_append_iff (hrest : rest.head? ≠ some '#') :
    HasRun n (text ++ rest) ↔ HasRun n text ∨ HasRun n rest := by
  rw [HasRun, List.infix_append_iff]
  constructor
  · rintro (h | h | ⟨front, back, hsplit, hfront, hback⟩)
    · exact .inl h
    · exact .inr h
    · cases front with
      | nil =>
        rw [List.nil_append] at hsplit
        rw [HasRun, HasRun, hsplit]
        exact .inr hback.isInfix
      | cons c front =>
        -- what is behind the quote are hashes
        cases back with
        | nil =>
          rw [List.append_nil] at hsplit
          rw [HasRun, HasRun, hsplit]
          exact .inl hfront.isInfix
        | cons d back =>
          have hhashes := (List.cons.inj hsplit).2
          obtain rfl : d = '#' := List.eq_of_mem_replicate (n := n) (by rw [hhashes]; simp)
          obtain ⟨tail, rfl⟩ := hback
          exact absurd rfl hrest
  · rintro (h | h)
    · exact .inl h
    · exact .inr (.inl h)

theorem hasRun_cons_iff {c : Char} (hc : c ≠ '"') : HasRun n (c :: rest) ↔ HasRun n rest := by
  rw [HasRun, List.infix_cons_iff]
  exact or_iff_right fun hprefix => hc (List.cons_prefix_cons.mp hprefix).1.symm

/-- A text without quotes adds no run. -/
theorem hasRun_append_of_quote_not_mem (h : '"' ∉ text) :
    HasRun n (text ++ rest) ↔ HasRun n rest := by
  induction text with
  | nil => rfl
  | cons c text ih =>
    rw [List.mem_cons, not_or] at h
    rw [List.cons_append, hasRun_cons_iff (Ne.symm h.1), ih h.2]

/-- No run crosses a text without quotes that does not start with a hash. -/
theorem hasRun_between_iff {c : Char} {before part : List Char} (hpart : '"' ∉ c :: part)
    (hc : c ≠ '#') :
    HasRun n (before ++ (c :: part ++ rest)) ↔ HasRun n before ∨ HasRun n rest := by
  rw [hasRun_append_iff (by simpa using hc), hasRun_append_of_quote_not_mem hpart]

theorem not_hasRun_of_quote_not_mem (h : '"' ∉ text) : ¬ HasRun n text :=
  fun hrun => h (hrun.subset List.mem_cons_self)

theorem hash_mem_of_hasRun (hn : 0 < n) (h : HasRun n ('"' :: text)) : '#' ∈ text := by
  have hmem : '#' ∈ '"' :: text := h.subset (List.mem_cons_of_mem _ (by simp; omega))
  simpa using hmem

/-- The text that a run so far stands for. -/
def runSoFar : Option Nat → List Char
  | none => []
  | some k => '"' :: List.replicate k '#'

theorem hasRun_runSoFar_iff {current : Option Nat} :
    HasRun (n + 1) (runSoFar current) ↔ n < current.getD 0 := by
  cases current with
  | none => simp [runSoFar, HasRun]
  | some k =>
    have hinfix : ¬ ('"' :: List.replicate (n + 1) '#') <:+: List.replicate k '#' :=
      not_hasRun_of_quote_not_mem fun h => absurd (List.eq_of_mem_replicate h) (by decide)
    have hprefix : List.replicate (n + 1) '#' <+: List.replicate k '#' ↔ n < k := by
      rw [List.prefix_replicate_iff, List.length_replicate, Nat.succ_le_iff]
      exact and_iff_left rfl
    rw [runSoFar, HasRun, List.infix_cons_iff, or_iff_left hinfix, List.cons_prefix_cons, hprefix]
    simp

/-- **The longest run is longer than `n`** exactly if `n + 1` hashes stand behind a quote. -/
theorem lt_longestRun_iff {current : Option Nat} :
    n < longestRun current text ↔ HasRun (n + 1) (runSoFar current ++ text) := by
  fun_induction longestRun current text with
  | case1 current => rw [List.append_nil, hasRun_runSoFar_iff]
  | case2 current rest ih =>
    rw [hasRun_append_iff (by simp), hasRun_runSoFar_iff, lt_max_iff, ih]
    rfl
  | case3 k rest ih =>
    rw [ih]
    simp [runSoFar, List.replicate_succ']
  | case4 current c rest hquote hhash ih =>
    have hrest : HasRun (n + 1) (c :: rest) ↔ n < longestRun none rest :=
      (hasRun_cons_iff hquote).trans ih.symm
    cases current with
    | none => simp [runSoFar, hrest]
    | some k =>
      have hhead : (c :: rest).head? ≠ some '#' := fun h => hhash k rfl (Option.some.inj h)
      rw [hasRun_append_iff hhead, hasRun_runSoFar_iff, hrest, lt_max_iff]

/-- A raw text is opened with more than `n` hashes exactly if `n` hashes stand behind a quote in
it. -/
theorem lt_hashCount_iff (hn : 0 < n) : n < hashCount text ↔ HasRun n text := by
  obtain ⟨n, rfl⟩ := Nat.exists_eq_succ_of_ne_zero (Nat.ne_of_gt hn)
  rw [hashCount, Nat.succ_lt_succ_iff, lt_longestRun_iff]
  rfl

end

end Text

/-! ## Runs in a JSON text -/

namespace Json

open Text (HasRun hasRun_between_iff hasRun_append_iff hasRun_append_of_quote_not_mem
  not_hasRun_of_quote_not_mem)

variable {n : Nat}

/-- A character stands for itself, or it is escaped: the quote with a quote, all others without a
quote or hash. -/
theorem escapeChar_cases (c : Char) : escapeChar c = [c] ∨ c = '"' ∨
    c ≠ '"' ∧ c ≠ '#' ∧ ∃ more, escapeChar c = '\\' :: more ∧ '"' ∉ more := by
  unfold escapeChar
  split
  case h_1 => exact .inr (.inl rfl)
  case h_8 hquote _ _ _ _ _ _ =>
    split
    · next hcontrol =>
      have hdigit : ∀ k < 16, '"' ≠ Text.hexDigit k := by decide
      have hhash : c ≠ '#' := by
        rintro rfl
        exact absurd hcontrol (by decide)
      refine .inr (.inr ⟨hquote, hhash, _, rfl, ?_⟩)
      simp [hdigit (c.toNat / 16) (by omega), hdigit (c.toNat % 16) (by omega)]
    · exact .inl rfl
  all_goals exact .inr (.inr ⟨by decide, by decide, _, rfl, by decide⟩)

/-- An escape has the runs of the character that it stands for. -/
theorem hasRun_escapeChar_iff (c : Char) (before rest : List Char) :
    HasRun n (before ++ (escapeChar c ++ rest)) ↔ HasRun n (before ++ c :: rest) := by
  rcases escapeChar_cases c with hself | rfl | ⟨hquote, hhash, more, hescape, hmore⟩
  · rw [hself, List.singleton_append]
  · have hslash : escapeChar '"' ++ rest = ['\\'] ++ '"' :: rest := rfl
    rw [hslash, hasRun_between_iff (by decide) (by decide), hasRun_append_iff (by simp)]
  · rw [hescape, hasRun_between_iff (by simp [hmore]) (by decide), ← List.singleton_append,
      hasRun_between_iff (by simpa using hquote.symm) hhash]

/-- **The runs in the text of a string** are those in the string and the one behind the quote in
front. -/
theorem hasRun_quote_iff (hn : 0 < n) (s : String) :
    HasRun n (quote s) ↔ HasRun n ('"' :: s.toList) := by
  have (before chars : List Char) : HasRun n (before ++ (chars.flatMap escapeChar ++ ['"'])) ↔
      HasRun n (before ++ chars) := by
    induction chars generalizing before with
    | nil =>
      have hquote : ¬ HasRun n ['"'] := by
        intro hrun
        have hlength := hrun.length_le
        simp only [List.length_cons, List.length_replicate, List.length_nil] at hlength
        omega
      rw [hasRun_append_iff (by simp)]
      simp [hquote]
    | cons c chars ih =>
      rw [List.flatMap_cons, List.append_assoc, hasRun_escapeChar_iff]
      simpa using ih (before ++ [c])
  exact this ['"'] s.toList

theorem head?_line_append (style : Style) (level : Nat) {c : Char} (hc : c ≠ '#')
    (rest : List Char) : (style.line level ++ c :: rest).head? ≠ some '#' := by
  cases style <;> simp [Style.line, hc]

theorem quote_not_mem_line (style : Style) (level : Nat) : '"' ∉ style.line level := by
  cases style <;> simp [Style.line]

theorem head?_writeItems (style : Style) (level : Nat) (items : List Json) :
    (writeItems style level items).head? ≠ some '#' := by
  cases items with
  | nil => exact head?_line_append style level (by decide) []
  | cons item rest => simp [writeItems]

theorem head?_writeMembers (style : Style) (level : Nat) (members : List (String × Json)) :
    (writeMembers style level members).head? ≠ some '#' := by
  cases members with
  | nil => exact head?_line_append style level (by decide) []
  | cons item rest => simp [writeMembers]

section

variable (style : Style) (level : Nat) (rest : List Char)

/-- The runs of an item, behind a comma or bracket on a line of its own. -/
theorem hasRun_item_iff {c : Char} (hc : c ≠ '"') (item : List Char)
    (hrest : rest.head? ≠ some '#') :
    HasRun n (c :: style.line level ++ item ++ rest) ↔ HasRun n item ∨ HasRun n rest := by
  have hline : '"' ∉ c :: style.line level := by simp [quote_not_mem_line, hc.symm]
  rw [hasRun_append_iff hrest, hasRun_append_of_quote_not_mem hline]

/-- The runs of a member, likewise. -/
theorem hasRun_member_iff (hn : 0 < n) {c : Char} (hc : c ≠ '"') (name : String)
    (value : List Char) (hrest : rest.head? ≠ some '#') :
    HasRun n (c :: style.line level ++ quote name ++ style.colon ++ value ++ rest) ↔
      HasRun n ('"' :: name.toList) ∨ HasRun n value ∨ HasRun n rest := by
  have hcolon : '"' ∉ style.colon ∧ (style.colon ++ value).head? ≠ some '#' := by
    cases style <;> simp [Style.colon]
  rw [hasRun_append_iff hrest, List.append_assoc, hasRun_item_iff style level _ hc _ hcolon.2,
    hasRun_append_of_quote_not_mem hcolon.1, hasRun_quote_iff hn, or_assoc]

end

mutual

/-- **The runs in the text of a value** are those in its strings and behind the quotes in front of
them. -/
theorem hasRun_write_iff (hn : 0 < n) (style : Style) (level : Nat) : ∀ value,
    HasRun n (write style level value) ↔ ∃ s ∈ strings value, HasRun n ('"' :: s.toList)
  | .null => by simp [write, strings, not_hasRun_of_quote_not_mem]
  | .bool b => by cases b <;> simp [write, boolText, strings, not_hasRun_of_quote_not_mem]
  | .number x => by
    have hquote := x.numeric_text.quote_not_mem
    simp [write, strings, not_hasRun_of_quote_not_mem hquote]
  | .string s => by simp [write, strings, hasRun_quote_iff hn]
  | .array [] => by simp [write, strings, itemStrings, not_hasRun_of_quote_not_mem]
  | .array (item :: rest) => by
    rw [write, hasRun_item_iff style _ _ (by decide) _ (head?_writeItems style level rest),
      hasRun_write_iff hn, hasRun_writeItems_iff hn]
    simp [strings, itemStrings, or_and_right, exists_or]
  | .object [] => by simp [write, strings, memberStrings, not_hasRun_of_quote_not_mem]
  | .object ((name, value) :: rest) => by
    rw [write, hasRun_member_iff style _ _ hn (by decide) _ _ (head?_writeMembers style level rest),
      hasRun_write_iff hn, hasRun_writeMembers_iff hn]
    simp [strings, memberStrings, or_and_right, exists_or]

theorem hasRun_writeItems_iff (hn : 0 < n) (style : Style) (level : Nat) : ∀ items,
    HasRun n (writeItems style level items) ↔ ∃ s ∈ itemStrings items, HasRun n ('"' :: s.toList)
  | [] => by
    have hquote : '"' ∉ style.line level ++ [']'] := by simp [quote_not_mem_line]
    simp [writeItems, itemStrings, not_hasRun_of_quote_not_mem hquote]
  | item :: rest => by
    rw [writeItems, hasRun_item_iff style _ _ (by decide) _ (head?_writeItems style level rest),
      hasRun_write_iff hn, hasRun_writeItems_iff hn]
    simp [itemStrings, or_and_right, exists_or]

theorem hasRun_writeMembers_iff (hn : 0 < n) (style : Style) (level : Nat) : ∀ members,
    HasRun n (writeMembers style level members) ↔
      ∃ s ∈ memberStrings members, HasRun n ('"' :: s.toList)
  | [] => by
    have hquote : '"' ∉ style.line level ++ ['}'] := by simp [quote_not_mem_line]
    simp [writeMembers, memberStrings, not_hasRun_of_quote_not_mem hquote]
  | (name, value) :: rest => by
    rw [writeMembers,
      hasRun_member_iff style _ _ hn (by decide) _ _ (head?_writeMembers style level rest),
      hasRun_write_iff hn, hasRun_writeMembers_iff hn]
    simp [memberStrings, or_and_right, exists_or]

end

end Json

/-! ## Raw literals of a source text -/

namespace SourceText

/-- A raw literal that is opened with `count` hashes is among the string literals of a text. -/
inductive HoldsRaw : List Char → Nat → List Char → Prop
  | first {text more body rest : List Char} {count : Nat} :
      seek .code text = 'r' :: (List.replicate count '#' ++ '"' :: more) →
      Text.readRaw count more = some (body, rest) → HoldsRaw text count body
  | next {text value rest body : List Char} {count : Nat} :
      readLiteral? (seek .code text) = some (value, rest) → HoldsRaw rest count body →
      HoldsRaw text count body

/-- The most hashes that a raw literal may be opened with. -/
def maxHashes : Nat := 255

/-- A raw literal that is accepted. -/
structure RawValid (count : Nat) (body : List Char) : Prop where
  hashes : count ≤ maxHashes
  carriageReturn : '\r' ∉ body

/-- All raw literals of a text are accepted. -/
def RawLiteralsValid (text : List Char) : Prop :=
  ∀ count body, HoldsRaw text count body → RawValid count body

section

variable {text value rest body : List Char} {count : Nat}

theorem not_holdsRaw_of_seek_eq_nil (h : seek .code text = []) : ¬ HoldsRaw text count body := by
  rintro (⟨hseek, -⟩ | ⟨hread, -⟩)
  · rw [h] at hseek
    cases hseek
  · rw [h] at hread
    cases hread

/-- A quoted literal is none of the raw ones. -/
theorem holdsRaw_iff_of_quoted {opened : List Char} (hseek : seek .code text = '"' :: opened)
    (hread : Text.readQuoted opened = some (value, rest)) :
    HoldsRaw text count body ↔ HoldsRaw rest count body := by
  have hliteral : readLiteral? (seek .code text) = some (value, rest) := by
    rw [hseek, readLiteral?, hread]
  constructor
  · rintro (⟨hfirst, -⟩ | ⟨hnext, hrest⟩)
    · rw [hseek] at hfirst
      cases hfirst
    · obtain ⟨-, rfl⟩ := Prod.mk.inj (Option.some.inj (hnext.symm.trans hliteral))
      exact hrest
  · exact .next hliteral

/-- The hashes of a literal end at its quote. -/
theorem opening_inj {more more' : List Char} {count' : Nat}
    (h : List.replicate count '#' ++ '"' :: more = List.replicate count' '#' ++ '"' :: more') :
    count = count' ∧ more = more' := by
  have hcount (k : Nat) (rest : List Char) :
      ((List.replicate k '#' ++ '"' :: rest).takeWhile (· == '#')).length = k := by
    rw [List.takeWhile_append_of_pos (by simp)]
    simp
  obtain rfl : count = count' := by rw [← hcount count more, h, hcount]
  exact ⟨rfl, (List.cons.inj (List.append_cancel_left h)).2⟩

/-- A raw text is the first of the raw literals. -/
theorem holdsRaw_iff_of_raw (hseek : seek .code text = Text.raw value ++ rest)
    (hvalue : '\r' ∉ value) : HoldsRaw text count body ↔
      (body = value ∧ count = Text.hashCount value) ∨ HoldsRaw rest count body := by
  have hopened : Text.raw value ++ rest = 'r' :: (List.replicate (Text.hashCount value) '#' ++
      '"' :: (value ++ '"' :: (List.replicate (Text.hashCount value) '#' ++ rest))) := by
    simp [Text.raw]
  have hread := Text.readRaw_append_delimiter (Nat.lt_succ_self (Text.longestRun none value)) rest
  have hliteral : readLiteral? (seek .code text) = some (value, rest) := by
    rw [hseek]
    exact readRawLiteral_raw hvalue rest
  constructor
  · rintro (⟨hfirst, hbody⟩ | ⟨hnext, hrest⟩)
    · rw [hseek, hopened] at hfirst
      obtain ⟨rfl, rfl⟩ := opening_inj (List.cons.inj hfirst).2
      obtain ⟨rfl, -⟩ := Prod.mk.inj (Option.some.inj (hbody.symm.trans hread))
      exact .inl ⟨rfl, rfl⟩
    · obtain ⟨-, rfl⟩ := Prod.mk.inj (Option.some.inj (hnext.symm.trans hliteral))
      exact .inr hrest
  · rintro (⟨rfl, rfl⟩ | h)
    · exact .first (hseek.trans hopened) hread
    · exact .next hliteral h

end

end SourceText

namespace DocumentTable

open SourceText

/-- The raw literals behind a header or an entry are the texts of the entries that follow. -/
theorem holdsRaw_entries_iff {entries : List (String × String)}
    (h : ∀ entry ∈ entries, '\r' ∉ entry.2.toList) {before body : List Char} {count : Nat}
    (hbefore : LeadsToEntry before) :
    HoldsRaw (before ++ (entries.flatMap entryText ++ footer.toList)) count body ↔
      ∃ entry ∈ entries, body = entry.2.toList ∧ count = Text.hashCount entry.2.toList := by
  induction entries generalizing before with
  | nil =>
    rw [List.flatMap_nil, List.nil_append]
    simp [not_holdsRaw_of_seek_eq_nil (seek_footer hbefore)]
  | cons entry rest ih =>
    obtain ⟨hentry, hrest⟩ := List.forall_mem_cons.mp h
    obtain ⟨opened, afterName, hseek, hread, hraw⟩ :=
      seek_entry hbefore entry (rest.flatMap entryText ++ footer.toList)
    rw [List.flatMap_cons, List.append_assoc, holdsRaw_iff_of_quoted hseek hread,
      holdsRaw_iff_of_raw hraw hentry, ih hrest leadsToEntry_entryClosing]
    simp

/-- **The raw literals of a table** are the texts of its entries, each opened with the hashes that
it needs. -/
theorem holdsRaw_sourceText_iff {table : DocumentTable}
    (h : ∀ entry ∈ table.entries, '\r' ∉ entry.2.toList) {body : List Char} {count : Nat} :
    HoldsRaw table.sourceText.toList count body ↔
      ∃ entry ∈ table.entries, body = entry.2.toList ∧ count = Text.hashCount entry.2.toList := by
  rw [sourceText, String.toList_ofList, List.append_assoc]
  exact holdsRaw_entries_iff h leadsToEntry_header

end DocumentTable

namespace Document

/-- The text of a document has the runs of its strings. -/
theorem hasRun_render_iff {n : Nat} (hn : 0 < n) (node : Node) :
    Text.HasRun n (render node).toList ↔
      ∃ s ∈ (toJson node).strings, Text.HasRun n ('"' :: s.toList) := by
  have hend : ¬ Text.HasRun n ['\n'] := Text.not_hasRun_of_quote_not_mem (by decide)
  rw [render, String.toList_ofList, Text.hasRun_append_iff (by decide), or_iff_left hend,
    Json.hasRun_write_iff hn]

end Document

namespace Artifacts

open SourceText

variable {suffix : String} {forest : List CompiledSchema} {artifacts : Artifacts}
  {table : DocumentTable}

theorem entries_of_emit (hemit : emit suffix forest = .ok artifacts)
    (htable : artifacts.table = some table) : table.entries =
      forest.map fun schema => (schema.collection, Document.render schema.node) := by
  obtain ⟨rfl, -⟩ := emit_eq_ok_iff.mp hemit
  obtain ⟨-, rfl⟩ : ¬ forest = [] ∧ _ := by simpa [tableOf] using htable
  simp [document]

/-- The raw literals of a table are the documents. -/
theorem holdsRaw_iff_of_emit (hemit : emit suffix forest = .ok artifacts)
    (htable : artifacts.table = some table) (count : Nat) (body : List Char) :
    HoldsRaw table.sourceText.toList count body ↔ ∃ schema ∈ forest,
      body = (Document.render schema.node).toList ∧ count = Text.hashCount body := by
  have hentries := entries_of_emit hemit htable
  have hreturn : ∀ entry ∈ table.entries, '\r' ∉ entry.2.toList := by
    simp [hentries, DocumentTable.carriageReturn_not_mem_render]
  rw [DocumentTable.holdsRaw_sourceText_iff hreturn, hentries]
  simp only [List.mem_map, exists_exists_and_eq_and]
  refine exists_congr fun schema => and_congr_right fun _ => and_congr_right fun hbody => ?_
  rw [hbody]

/-- A document is opened with few enough hashes if its strings have no run as long as a literal
allows. -/
theorem hashCount_render_le_iff (node : Node) :
    Text.hashCount (Document.render node).toList ≤ maxHashes ↔
      ∀ s ∈ (Document.toJson node).strings, ¬ Text.HasRun maxHashes ('"' :: s.toList) := by
  have hpositive : 0 < maxHashes := by decide
  rw [← Nat.not_lt, Text.lt_hashCount_iff hpositive, Document.hasRun_render_iff hpositive]
  simp

/-- **When the raw literals of a table are valid.** They are the texts of the documents and have no
carriage returns. All of them are opened with few enough hashes exactly if no string of a document
has a run of hashes, or starts with one, that is as long as a literal allows. So they are if no
name, pattern or value of the graph has one. -/
theorem raw_literals_valid_iff {g : Graph} {c : Compiled} (hg : g.compile = .ok c)
    (hemit : emit suffix c.forest = .ok artifacts) (htable : artifacts.table = some table) :
    (∀ count body, HoldsRaw table.sourceText.toList count body ↔ ∃ schema ∈ c.forest,
      body = (Document.render schema.node).toList ∧ count = Text.hashCount body) ∧
    (∀ count body, HoldsRaw table.sourceText.toList count body → '\r' ∉ body) ∧
    (RawLiteralsValid table.sourceText.toList ↔ ∀ schema ∈ c.forest,
      ∀ s ∈ (Document.toJson schema.node).strings, ¬ Text.HasRun maxHashes ('"' :: s.toList)) ∧
    ((∀ s ∈ g.texts, ¬ Text.HasRun maxHashes ('"' :: s.toList)) →
      RawLiteralsValid table.sourceText.toList) := by
  have hliterals := holdsRaw_iff_of_emit hemit htable
  have hreturn : ∀ count body, HoldsRaw table.sourceText.toList count body → '\r' ∉ body := by
    intro count body h
    obtain ⟨schema, -, rfl, -⟩ := (hliterals count body).mp h
    exact DocumentTable.carriageReturn_not_mem_render schema.node
  have hvalid : RawLiteralsValid table.sourceText.toList ↔ ∀ schema ∈ c.forest,
      ∀ s ∈ (Document.toJson schema.node).strings, ¬ Text.HasRun maxHashes ('"' :: s.toList) := by
    constructor
    · intro hvalid schema hschema
      have hliteral := (hliterals _ _).mpr ⟨schema, hschema, rfl, rfl⟩
      exact (hashCount_render_le_iff schema.node).mp (hvalid _ _ hliteral).hashes
    · intro hstrings count body h
      obtain ⟨schema, hschema, rfl, rfl⟩ := (hliterals count body).mp h
      exact ⟨(hashCount_render_le_iff schema.node).mpr (hstrings schema hschema), hreturn _ _ h⟩
  refine ⟨hliterals, hreturn, hvalid, fun htexts => hvalid.mpr ?_⟩
  intro schema hschema s hs hrun
  have hhash : '#' ∈ s.toList := Text.hash_mem_of_hasRun (by decide) hrun
  exact htexts s (Graph.mem_texts_of_mem_strings hg hschema hs hhash) hrun

end Artifacts

/-! ### Tags -/

/-- A tag whose mark has a pattern. -/
def tag (pattern : String) : Record where
  name := "Tag"
  root := some ⟨some "tags"⟩
  properties := [⟨"mark", .primitive .string, false, [⟨"Pattern", [("pattern", .string pattern)]⟩]⟩]

def tagNode (pattern : String) : Node :=
  .object ["mark"] [("mark", { type := ⟨.string, false⟩, keywords := .ofPattern pattern })]

def tags (pattern : String) : Graph := ⟨[tag pattern], [], []⟩

section

variable {pattern : String}

theorem collect_tags (h : pattern ≠ "") :
    Registry.collect (tags pattern) = .ok ⟨[(⟨"Tag", "mark"⟩, .ofPattern pattern)], []⟩ := by
  have hconstraint : Annotation.constraint ⟨"Pattern", [("pattern", .string pattern)]⟩ =
      .ok (.pattern pattern) :=
    Annotation.constraint_eq_ok_iff.mpr
      (.inr (.inl ⟨rfl, Annotation.pattern_eq_ok_iff.mpr ⟨pattern, rfl, h, rfl⟩⟩))
  simp only [Registry.collect, tags, Registry.addRecord, tag, List.foldlM_cons, List.foldlM_nil,
    Registry.addProperty, Property.keywords?, Annotation.collect, hconstraint]
  rfl

def tagSchema (pattern : String) : CompiledSchema :=
  ⟨"Tag", (tag pattern).simpleName, "tags", tagNode pattern⟩

theorem compile_tags (h : pattern ≠ "") :
    ∃ c, (tags pattern).compile = .ok c ∧ c.forest = [tagSchema pattern] := by
  have hcheck : (tags pattern).check = .ok () := by rfl
  have hbuild : (tags pattern).build ⟨[(⟨"Tag", "mark"⟩, .ofPattern pattern)], []⟩ (tag pattern) =
      .ok (tagNode pattern) := by
    rw [Graph.build, Builder.buildFrom_eq]
    rfl
  have hsettle := Graph.settle_eq_compiled_iff.mpr ⟨rfl, "tags", _, rfl, hbuild, rfl⟩
  exact ⟨⟨[tagSchema pattern], [], _⟩, Graph.compile_eq_ok_iff.mpr
    ⟨Graph.check_eq_ok_iff.mp hcheck, collect_tags h, _, .cons hsettle .nil, rfl, rfl⟩, rfl⟩

theorem emit_tags (pattern : String) : Artifacts.emit "Schema" [tagSchema pattern] =
    .ok ⟨[Artifacts.document "Schema" (tagSchema pattern)],
      some ⟨[("tags", Document.render (tagNode pattern))]⟩⟩ :=
  Artifacts.emit_eq_ok_iff.mpr ⟨rfl, List.pairwise_singleton ..⟩

theorem strings_tagNode : (Document.toJson (tagNode pattern)).strings =
    ["$jsonSchema", "bsonType", "object", "required", "mark", "properties", "mark", "bsonType",
      "string", "pattern", pattern] := by
  rfl

end

/-- The table of a tag whose pattern has a quote and a few hashes is valid. -/
theorem raw_literals_valid_iff_tags :
    ∃ c artifacts table, (tags "^\"##[a-z]+$").compile = .ok c ∧
      Artifacts.emit "Schema" c.forest = .ok artifacts ∧ artifacts.table = some table ∧
      SourceText.RawLiteralsValid table.sourceText.toList := by
  have hne : "^\"##[a-z]+$" ≠ "" := by decide
  obtain ⟨c, hc, hforest⟩ := compile_tags hne
  have hemit := emit_tags "^\"##[a-z]+$"
  rw [← hforest] at hemit
  obtain ⟨-, -, -, hvalid⟩ := Artifacts.raw_literals_valid_iff hc hemit rfl
  exact ⟨c, _, _, hc, hemit, rfl, hvalid (by decide +kernel)⟩

/-- A quote and as many hashes as a raw literal may be opened with. -/
def longPattern : String := String.ofList ('"' :: List.replicate SourceText.maxHashes '#')

/-- The table of a tag with such a pattern opens a raw literal with one hash more. -/
theorem raw_literal_invalid :
    ∃ c artifacts table, (tags longPattern).compile = .ok c ∧
      Artifacts.emit "Schema" c.forest = .ok artifacts ∧ artifacts.table = some table ∧
      ¬ SourceText.RawLiteralsValid table.sourceText.toList := by
  have hpattern : longPattern.toList = '"' :: List.replicate SourceText.maxHashes '#' :=
    String.toList_ofList
  have hne : longPattern ≠ "" := by
    intro heq
    rw [heq] at hpattern
    cases hpattern
  obtain ⟨c, hc, hforest⟩ := compile_tags hne
  have hemit := emit_tags longPattern
  rw [← hforest] at hemit
  have hliteral := (Artifacts.holdsRaw_iff_of_emit hemit rfl _ _).mpr
    ⟨tagSchema longPattern, by simp [hforest], rfl, rfl⟩
  refine ⟨c, _, _, hc, hemit, rfl, fun hvalid => ?_⟩
  have hhashes := (hvalid _ _ hliteral).hashes
  refine (Artifacts.hashCount_render_le_iff _).mp hhashes longPattern ?_ ?_
  · simp [tagSchema, strings_tagNode]
  · rw [hpattern]
    exact List.infix_cons (List.infix_refl _)

end CollectionSchema
