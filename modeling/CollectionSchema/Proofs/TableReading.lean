import CollectionSchema.Artifact.Table
import CollectionSchema.Proofs.PlainText
import CollectionSchema.Proofs.TextReadBack
import CollectionSchema.Schema.Document

/-!
# The document table is read back

A reader of source text that knows its lexical rules only: what comments, words, character
literals, quoted and raw string literals are. `SourceText.entries?` takes the string literals of
a text in pairs. `entries?_sourceText` says that it finds exactly the entries of a table in the
table's text, so different tables have different texts.
-/

namespace CollectionSchema

namespace SourceText

/-- The text with a line feed for every carriage return and line feed. -/
def lineFeeds : List Char → List Char
  | [] => []
  | '\r' :: '\n' :: rest => '\n' :: lineFeeds rest
  | c :: rest => c :: lineFeeds rest

/-- What stands between string literals. Block comments nest. -/
inductive Region where
  | code
  | word
  | character
  | lineComment
  | blockComment (depth : Nat)
deriving DecidableEq, Repr

def isWordChar (c : Char) : Bool := c.isAlphanum || c == '_' || 0x80 ≤ c.toNat

/-- Whether a raw literal goes on like this behind its first letter. -/
def opensRaw (text : List Char) : Bool := (text.dropWhile (· == '#')).head? == some '"'

/-- The text from its next string literal on. -/
def seek : Region → List Char → List Char
  | _, [] => []
  | .lineComment, c :: rest => seek (if c = '\n' then .code else .lineComment) rest
  | .blockComment depth, '/' :: '*' :: rest => seek (.blockComment (depth + 1)) rest
  | .blockComment 0, '*' :: '/' :: rest => seek .code rest
  | .blockComment (depth + 1), '*' :: '/' :: rest => seek (.blockComment depth) rest
  | .blockComment depth, _ :: rest => seek (.blockComment depth) rest
  | .character, c :: rest => seek (if c = '\'' then .code else .character) rest
  | _, '/' :: '/' :: rest => seek .lineComment rest
  | _, '/' :: '*' :: rest => seek (.blockComment 0) rest
  | _, '\'' :: '\\' :: _ :: rest => seek .character rest
  | _, '\'' :: _ :: '\'' :: rest => seek .code rest
  | region, c :: rest =>
    if c = '"' ∨ c = 'r' ∧ region = .code ∧ opensRaw rest then c :: rest
    else seek (if isWordChar c then .word else .code) rest

theorem seek_of_opensRaw {rest : List Char} (h : opensRaw rest = true) :
    seek .code ('r' :: rest) = 'r' :: rest :=
  if_pos (.inr ⟨rfl, rfl, h⟩)

/-- Reads a raw literal behind its first letter. It may not hold a carriage return. -/
def readRawLiteral (text : List Char) : Option (List Char × List Char) := do
  let count := (text.takeWhile (· == '#')).length
  let (value, rest) ← Text.readRaw count (text.drop (count + 1))
  if '\r' ∈ value then none else some (value, rest)

/-- Reads the string literal that a text starts with: its value, and what follows. -/
def readLiteral? : List Char → Option (List Char × List Char)
  | [] => none
  | '"' :: rest => Text.readQuoted rest
  | _ :: rest => readRawLiteral rest

/-! ## Readers take text off -/

theorem length_seek_le (region : Region) (text : List Char) :
    (seek region text).length ≤ text.length := by
  fun_induction seek region text <;> simp only [List.length_cons, List.length_nil] at * <;> omega

theorem length_lt_of_bind {c : Char} {tail value rest : List Char}
    (h : (do let (value, rest) ← Text.readQuoted tail; some (c :: value, rest)) =
      some (value, rest))
    (ih : ∀ value rest, Text.readQuoted tail = some (value, rest) → rest.length < tail.length) :
    rest.length < tail.length := by
  obtain ⟨⟨value', rest'⟩, hread, hvalue⟩ := Option.bind_eq_some_iff.mp h
  cases hvalue
  exact ih value' rest hread

theorem length_readQuoted_lt {text value rest : List Char}
    (h : Text.readQuoted text = some (value, rest)) : rest.length < text.length := by
  induction text using Text.readQuoted.induct generalizing value rest with
  | case1 => simp [Text.readQuoted] at h
  | case2 tail =>
    rw [Text.readQuoted] at h
    cases h
    simp
  | case3 tail n tail' hcode hvalid ih =>
    rw [Text.readQuoted, hcode] at h
    simp only [if_pos hvalid] at h
    have hlength := Text.length_readCodePoint_lt hcode
    have hrest := length_lt_of_bind h fun _ _ => ih
    simp only [List.length_cons]
    omega
  | case4 tail n tail' hcode hvalid =>
    rw [Text.readQuoted, hcode] at h
    simp [hvalid] at h
  | case5 tail hcode =>
    rw [Text.readQuoted, hcode] at h
    cases h
  | case6 c tail hunit escaped hescape ih =>
    rw [Text.readQuoted, hescape] at h
    · have hrest := length_lt_of_bind h fun _ _ => ih
      simp only [List.length_cons]
      omega
    · exact hunit
  | case7 c tail hunit hescape =>
    rw [Text.readQuoted, hescape] at h
    · cases h
    · exact hunit
  | case8 c tail hquote hunit hescape ih =>
    rw [Text.readQuoted] at h
    · have hrest := length_lt_of_bind h fun _ _ => ih
      simp only [List.length_cons]
      omega
    · exact hquote
    · exact hunit
    · exact hescape

theorem length_readRaw_lt {count : Nat} {text value rest : List Char}
    (h : Text.readRaw count text = some (value, rest)) : rest.length < text.length := by
  induction text generalizing value rest with
  | nil => cases h
  | cons c tail ih =>
    rw [Text.readRaw] at h
    split at h
    · cases h
      simp only [List.length_cons, List.length_drop]
      omega
    · obtain ⟨⟨value', rest'⟩, hread, hvalue⟩ := Option.bind_eq_some_iff.mp h
      cases hvalue
      have hrest := ih hread
      simp only [List.length_cons]
      omega

theorem length_readRawLiteral_lt {text value rest : List Char}
    (h : readRawLiteral text = some (value, rest)) : rest.length < text.length := by
  obtain ⟨⟨value', rest'⟩, hread, hvalue⟩ := Option.bind_eq_some_iff.mp h
  have hlength := length_readRaw_lt hread
  rw [List.length_drop] at hlength
  dsimp only at hvalue
  split at hvalue
  · cases hvalue
  · obtain ⟨-, rfl⟩ := Prod.mk.inj (Option.some.inj hvalue)
    omega

theorem length_readLiteral?_lt {text value rest : List Char}
    (h : readLiteral? text = some (value, rest)) : rest.length < text.length := by
  unfold readLiteral? at h
  split at h
  · cases h
  · have hlength := length_readQuoted_lt h
    simp only [List.length_cons]
    omega
  · have hlength := length_readRawLiteral_lt h
    simp only [List.length_cons]
    omega

/-! ## String literals -/

/-- The values of the string literals of a text, in order. -/
def literals? (text : List Char) : Option (List (List Char)) :=
  if seek .code text = [] then some []
  else match _hread : readLiteral? (seek .code text) with
    | none => none
    | some (value, rest) => (literals? rest).map (value :: ·)
termination_by text.length
decreasing_by exact Nat.lt_of_lt_of_le (length_readLiteral?_lt _hread) (length_seek_le .code text)

/-- The literals of a list in pairs. -/
def pairs? : List (List Char) → Option (List (String × String))
  | [] => some []
  | [_] => none
  | name :: value :: rest => (pairs? rest).map ((String.ofList name, String.ofList value) :: ·)

/-- The string literals of a source text, in pairs. -/
def entries? (text : String) : Option (List (String × String)) :=
  (literals? (lineFeeds text.toList)).bind pairs?

theorem literals?_of_seek_eq_nil {text : List Char} (h : seek .code text = []) :
    literals? text = some [] := by
  rw [literals?, if_pos h]

theorem literals?_of_readLiteral? {text value rest : List Char}
    (h : readLiteral? (seek .code text) = some (value, rest)) :
    literals? text = (literals? rest).map (value :: ·) := by
  have hne : seek .code text ≠ [] := by
    intro hnil
    rw [hnil] at h
    cases h
  rw [literals?, if_neg hne]
  split
  · next hnone =>
    rw [h] at hnone
    cases hnone
  · next hsome =>
    rw [h] at hsome
    cases hsome
    rfl

/-! ## The text of a table -/

theorem lineFeeds_of_not_mem {text : List Char} (h : '\r' ∉ text) : lineFeeds text = text := by
  induction text with
  | nil => rfl
  | cons c rest ih =>
    simp only [List.mem_cons, not_or] at h
    rw [lineFeeds, ih h.2]
    rintro tail rfl
    exact absurd rfl h.1

/-- A raw text is a raw literal, if it has no carriage return. -/
theorem readRawLiteral_raw {text : List Char} (h : '\r' ∉ text) (rest : List Char) :
    readRawLiteral ((Text.raw text).tail ++ rest) = some (text, rest) := by
  have hdelimiter : (Text.raw text).tail ++ rest =
      List.replicate (Text.hashCount text) '#' ++
        '"' :: (text ++ '"' :: (List.replicate (Text.hashCount text) '#' ++ rest)) := by
    simp [Text.raw]
  have hcount : (((Text.raw text).tail ++ rest).takeWhile (· == '#')).length =
      Text.hashCount text := by
    rw [hdelimiter, List.takeWhile_append_of_pos (by simp)]
    simp
  have hdrop : ((Text.raw text).tail ++ rest).drop (Text.hashCount text + 1) =
      text ++ '"' :: (List.replicate (Text.hashCount text) '#' ++ rest) := by
    rw [hdelimiter, List.drop_append]
    simp
  have hread := Text.readRaw_append_delimiter (Nat.lt_succ_self (Text.longestRun none text)) rest
  simp only [readRawLiteral, hcount, hdrop]
  rw [Text.hashCount, hread]
  simp [h]

end SourceText

namespace DocumentTable

open SourceText

/-- What stands in front of an entry: the header or the end of another entry. -/
def LeadsToEntry (text : List Char) : Prop := text = header.toList ∨ text = entryClosing.toList

theorem leadsToEntry_header : LeadsToEntry header.toList := Or.inl (Eq.refl _)

theorem leadsToEntry_entryClosing : LeadsToEntry entryClosing.toList := Or.inr (Eq.refl _)

/-- The characters of a text that is put together from literals. -/
theorem toList_append_eq {text more : String} {chars moreChars : List Char}
    (h : text.toList = chars) (hmore : more.toList = moreChars) :
    (text ++ more).toList = chars ++ moreChars := by
  rw [String.toList_append, h, hmore]

theorem exists_header : ∃ chars, header.toList = chars ∧ '\r' ∉ chars ∧
    ∀ rest, seek .code (chars ++ rest) = seek .code rest := by
  have hheader : header.toList = _ := toList_append_eq String.toList_ofList String.toList_ofList
  exact ⟨_, hheader, by decide, fun _ => rfl⟩

theorem exists_footer : ∃ chars, footer.toList = chars ∧ '\r' ∉ chars ∧ seek .code chars = [] := by
  -- literal by literal, since a string put together of them is slow to evaluate
  have hfooter : footer.toList = _ :=
    toList_append_eq (toList_append_eq (toList_append_eq (toList_append_eq (toList_append_eq
      (toList_append_eq (toList_append_eq String.toList_ofList String.toList_ofList)
        String.toList_ofList) String.toList_ofList) String.toList_ofList) String.toList_ofList)
          String.toList_ofList) String.toList_ofList
  exact ⟨_, hfooter, by decide, by decide +kernel⟩

/-- In front of an entry stands no string literal. -/
theorem seek_before {before : List Char} (h : LeadsToEntry before) (rest : List Char) :
    seek .code (before ++ rest) = seek .code rest := by
  rcases h with rfl | rfl
  · obtain ⟨chars, hchars, -, hseek⟩ := exists_header
    rw [hchars, hseek]
  · rfl

theorem seek_quoted {before : List Char} (h : LeadsToEntry before) (rest : List Char) :
    seek .code (before ++ (entryOpening.toList ++ '"' :: rest)) = '"' :: rest :=
  seek_before h _

theorem seek_footer {before : List Char} (h : LeadsToEntry before) :
    seek .code (before ++ footer.toList) = [] := by
  obtain ⟨chars, hchars, -, hseek⟩ := exists_footer
  rw [seek_before h, hchars, hseek]

theorem seek_raw (text rest : List Char) :
    seek .code (entryMiddle.toList ++ (Text.raw text ++ rest)) = Text.raw text ++ rest := by
  have hopens : opensRaw ((Text.raw text).tail ++ rest) = true := by
    have hdrop : ((Text.raw text).tail ++ rest).dropWhile (· == '#') =
        '"' :: (text ++ '"' :: (List.replicate (Text.hashCount text) '#' ++ rest)) := by
      simp only [Text.raw, List.cons_append, List.tail_cons, List.append_assoc]
      rw [List.dropWhile_append_of_pos (by simp)]
      simp
    simp [opensRaw, hdrop]
  have hraw : Text.raw text = 'r' :: (Text.raw text).tail := rfl
  have hmiddle : ∀ more, seek .code (entryMiddle.toList ++ more) = seek .code more := fun _ => rfl
  rw [hmiddle, hraw, List.cons_append, seek_of_opensRaw hopens]

/-- The two literals of an entry: its quoted name, and its raw text. -/
theorem seek_entry {before : List Char} (hbefore : LeadsToEntry before) (entry : String × String)
    (after : List Char) : ∃ opened afterName,
      seek .code (before ++ (entryText entry ++ after)) = '"' :: opened ∧
      Text.readQuoted opened = some (entry.1.toList, afterName) ∧
      seek .code afterName = Text.raw entry.2.toList ++ (entryClosing.toList ++ after) := by
  let afterName := entryMiddle.toList ++
    (Text.raw entry.2.toList ++ (entryClosing.toList ++ after))
  have hsplit : before ++ (entryText entry ++ after) = before ++ (entryOpening.toList ++
      '"' :: (entry.1.toList.flatMap Text.escape ++ '"' :: afterName)) := by
    simp [entryText, Text.quoted, afterName, List.append_assoc]
  refine ⟨_, afterName, ?_, Text.readQuoted_flatMap_escape _ _, seek_raw _ _⟩
  rw [hsplit, seek_quoted hbefore]

/-- The string literals behind a header or an entry are the names and texts of the entries that
follow. -/
theorem literals?_entries {entries : List (String × String)}
    (h : ∀ entry ∈ entries, '\r' ∉ entry.2.toList) {before : List Char}
    (hbefore : LeadsToEntry before) :
    literals? (before ++ (entries.flatMap entryText ++ footer.toList)) =
      some (entries.flatMap fun entry => [entry.1.toList, entry.2.toList]) := by
  induction entries generalizing before with
  | nil =>
    rw [List.flatMap_nil, List.nil_append]
    exact literals?_of_seek_eq_nil (seek_footer hbefore)
  | cons entry rest ih =>
    obtain ⟨hentry, hrest⟩ := List.forall_mem_cons.mp h
    let after := rest.flatMap entryText ++ footer.toList
    obtain ⟨opened, afterName, hseek, hread, hraw⟩ := seek_entry hbefore entry after
    have hname : literals? (before ++ (entryText entry ++ after)) =
        (literals? afterName).map (entry.1.toList :: ·) := by
      refine literals?_of_readLiteral? ?_
      rw [hseek, readLiteral?, hread]
    have htext : literals? afterName =
        (literals? (entryClosing.toList ++ after)).map (entry.2.toList :: ·) := by
      refine literals?_of_readLiteral? ?_
      rw [hraw]
      exact readRawLiteral_raw hentry _
    rw [List.flatMap_cons, List.append_assoc, hname, htext, ih hrest leadsToEntry_entryClosing]
    rfl

theorem pairs?_flatMap (entries : List (String × String)) :
    pairs? (entries.flatMap fun entry => [entry.1.toList, entry.2.toList]) = some entries := by
  induction entries with
  | nil => rfl
  | cons entry rest ih =>
    simp only [List.flatMap_cons, List.cons_append, List.nil_append, pairs?, ih]
    simp

/-! ## Carriage returns -/

theorem carriageReturn_not_mem_entryText {entry : String × String}
    (h : '\r' ∉ entry.2.toList) : '\r' ∉ entryText entry := by
  have hopening : '\r' ∉ entryOpening.toList := by decide
  have hmiddle : '\r' ∉ entryMiddle.toList := by decide
  have hclosing : '\r' ∉ entryClosing.toList := by decide
  have hname : ∀ c ∈ entry.1.toList, '\r' ∉ Text.escape c := fun c _ =>
    Text.carriageReturn_not_mem_escape c
  simpa [entryText, Text.quoted, Text.raw, hopening, hmiddle, hclosing, h] using hname

theorem carriageReturn_not_mem_sourceText {table : DocumentTable}
    (h : ∀ entry ∈ table.entries, '\r' ∉ entry.2.toList) : '\r' ∉ table.sourceText.toList := by
  obtain ⟨_, hheaderChars, hheader, -⟩ := exists_header
  obtain ⟨_, hfooterChars, hfooter, -⟩ := exists_footer
  have hentries : '\r' ∉ table.entries.flatMap entryText := by
    rw [List.mem_flatMap]
    rintro ⟨entry, hentry, hmem⟩
    exact carriageReturn_not_mem_entryText (h entry hentry) hmem
  rw [sourceText, String.toList_ofList, hheaderChars, hfooterChars, List.mem_append,
    List.mem_append]
  rintro ((hmem | hmem) | hmem)
  · exact hheader hmem
  · exact hentries hmem
  · exact hfooter hmem

/-! ## The entries of a table -/

theorem entries?_sourceText_eq {table : DocumentTable}
    (h : ∀ entry ∈ table.entries, '\r' ∉ entry.2.toList) :
    entries? table.sourceText = some table.entries := by
  have hlines : lineFeeds table.sourceText.toList = table.sourceText.toList :=
    lineFeeds_of_not_mem (carriageReturn_not_mem_sourceText h)
  have hliterals := literals?_entries h leadsToEntry_header
  rw [entries?, hlines, sourceText, String.toList_ofList, List.append_assoc, hliterals,
    Option.bind_some, pairs?_flatMap]

theorem carriageReturn_not_mem_render (node : Node) : '\r' ∉ (Document.render node).toList := by
  have hplain : Text.Plain (Json.write .pretty 0 (Document.toJson node) ++ ['\n']) := by
    simp [Json.plain_write]
  rw [Document.render, String.toList_ofList]
  exact hplain.carriageReturn_not_mem

/-- **The text of a table is read back.** A reader of source text finds exactly the entries, in
order, so different tables have different texts. The condition on carriage returns is met by the
texts of documents. -/
theorem entries?_sourceText (table : DocumentTable)
    (h : ∀ entry ∈ table.entries, '\r' ∉ entry.2.toList) :
    entries? table.sourceText = some table.entries ∧
      (∀ other : DocumentTable, (∀ entry ∈ other.entries, '\r' ∉ entry.2.toList) →
        other.sourceText = table.sourceText → other = table) ∧
      ∀ node, '\r' ∉ (Document.render node).toList := by
  refine ⟨entries?_sourceText_eq h, ?_, carriageReturn_not_mem_render⟩
  intro other hother heq
  have hentries : some other.entries = some table.entries := by
    rw [← entries?_sourceText_eq hother, ← entries?_sourceText_eq h, heq]
  cases other
  cases table
  cases hentries
  rfl

/-- Texts that hold delimiters of their own, and a name that is escaped. -/
def delimiterTable : DocumentTable :=
  ⟨[("say \"hi\"\n\u202e", "\"##,\n    ),\n];"), ("orders", "r#\"[]\"#")]⟩

theorem entries?_sourceText_delimiterTable :
    (∀ entry ∈ delimiterTable.entries, '\r' ∉ entry.2.toList) ∧
      entries? delimiterTable.sourceText = some delimiterTable.entries := by
  have h : ∀ entry ∈ delimiterTable.entries, '\r' ∉ entry.2.toList := by decide
  exact ⟨h, (entries?_sourceText delimiterTable h).1⟩

end DocumentTable

end CollectionSchema
