import CollectionSchema.Json.Printer
import CollectionSchema.Proofs.WrittenNumbers

/-!
# Tokens of written text

The text of a value is scanned into the tokens of the value (`scan_write`), if its numbers read
back. How deep arrays and objects nest in a text is counted over its tokens, so the text of a value
nests as deep as the value does (`nesting_write`).
-/

namespace CollectionSchema.Json

/-! ## Strings -/

namespace Literal

/-- Whether a character is written as four hex digits: it is a control character without a short
escape. -/
def isUnit (c : Char) : Bool :=
  decide (c.toNat < 0x20 ∧ c ∉ ['\x08', '\x0c', '\n', '\r', '\t'])

/-- A character as it is written, in front of a literal. -/
def written (c : Char) (rest : Literal) : Literal :=
  if isUnit c then .unit c.toNat rest else .char c rest

/-- The literal that characters are written as. -/
def ofChars : List Char → Literal
  | [] => .close
  | c :: rest => written c (ofChars rest)

theorem hexUnit?_hexDigit {n : Nat} (h : n < 0x100) :
    hexUnit? '0' '0' (Text.hexDigit (n / 16)) (Text.hexDigit (n % 16)) = some n := by
  have hzero : Text.hexValue? '0' = some 0 := by decide
  have hhigh := Text.hexValue?_hexDigit (n / 16) (by omega)
  have hlow := Text.hexValue?_hexDigit (n % 16) (by omega)
  have hvalue : ((0 * 16 + 0) * 16 + n / 16) * 16 + n % 16 = n := by omega
  simp only [hexUnit?, hzero, hhigh, hlow, Option.bind_eq_bind, Option.bind_some, hvalue,
    Option.pure_def]

theorem scan_escapeChar (c : Char) (text : List Char) :
    scan (escapeChar c ++ text) = (written c (scan text).1, (scan text).2) := by
  unfold escapeChar
  split
  case h_8 hquote hbackslash hb hf hn hr ht =>
    split
    · next hcontrol =>
      have hunit : isUnit c = true := by simp_all [isUnit]
      simp only [List.cons_append, List.nil_append]
      rw [scan, hexUnit?_hexDigit (by omega), written, if_pos hunit]
    · next hcontrol =>
      have hunit : isUnit c = false := by simp [isUnit, hcontrol]
      rw [List.singleton_append, scan, if_neg hcontrol, written, hunit]
      · rfl
      all_goals simp_all
  all_goals
    simp only [List.cons_append, List.nil_append]
    rw [scan]
    · rfl
    all_goals simp

theorem scan_flatMap_escapeChar (chars text : List Char) :
    scan (chars.flatMap escapeChar ++ '"' :: text) = (ofChars chars, text) := by
  induction chars with
  | nil => rw [List.flatMap_nil, List.nil_append, scan_quote, ofChars]
  | cons c chars ih => rw [List.flatMap_cons, List.append_assoc, scan_escapeChar, ih, ofChars]

theorem decode_written (c : Char) (rest : Literal) :
    (written c rest).decode = do return c :: (← rest.decode) := by
  rw [written]
  split
  · next hunit =>
    have hcontrol : c.toNat < 0x20 := by
      rw [isUnit, decide_eq_true_iff] at hunit
      exact hunit.1
    have hlow : isLowSurrogate c.toNat = false := by simp [isLowSurrogate]; omega
    have hhigh : isHighSurrogate c.toNat = false := by simp [isHighSurrogate]; omega
    rw [decode_unit hlow hhigh, Char.ofNat_toNat]
  · rw [decode_char]

/-- Characters are read back from the literal that they are written as. -/
theorem decode_ofChars (chars : List Char) : (ofChars chars).decode = .ok chars := by
  induction chars with
  | nil => rfl
  | cons c chars ih =>
    rw [ofChars, decode_written, ih]
    rfl

theorem text_ofChars (value : String) : (ofChars value.toList).text = .ok value := by
  rw [text, decode_ofChars, Outcome.ok_bind, String.ofList_toList]
  rfl

theorem complete_of_decode {literal : Literal} {chars : List Char}
    (h : literal.decode = .ok chars) : literal.complete = .ok () := by
  fun_induction decode literal generalizing chars
  case case1 => rfl
  case case3 c rest ih | case5 value _ _ low rest _ ih | case9 value rest _ _ ih =>
    obtain ⟨decoded, hdecoded, -⟩ := Outcome.bind_eq_ok_iff.mp h
    exact ih hdecoded
  all_goals cases h

/-- A literal that stands for a string is complete. -/
theorem complete_of_text {literal : Literal} {s : String} (h : literal.text = .ok s) :
    literal.complete = .ok () := by
  obtain ⟨chars, hchars, -⟩ := Outcome.bind_eq_ok_iff.mp h
  exact complete_of_decode hchars

end Literal

/-! ## Tokens of a value -/

mutual

/-- The tokens that a value is written as. -/
def tokens : Json → List Token
  | .null => [.null]
  | .bool b => [.bool b]
  | .number x => [.number x.numeral]
  | .string s => [.string (Literal.ofChars s.toList)]
  | .array [] => [.openArray, .closeArray]
  | .array (item :: rest) => .openArray :: tokens item ++ itemTokens rest
  | .object [] => [.openObject, .closeObject]
  | .object ((name, value) :: rest) =>
    .openObject :: .string (Literal.ofChars name.toList) :: .colon :: tokens value ++
      memberTokens rest

/-- The tokens of the items after the first, and of the closing bracket. -/
def itemTokens : List Json → List Token
  | [] => [.closeArray]
  | item :: rest => .comma :: tokens item ++ itemTokens rest

/-- The tokens of the members after the first, and of the closing brace. -/
def memberTokens : List (String × Json) → List Token
  | [] => [.closeObject]
  | (name, value) :: rest =>
    .comma :: .string (Literal.ofChars name.toList) :: .colon :: tokens value ++ memberTokens rest

end

mutual

/-- The numbers in a value. -/
def numbers : Json → List JsonNumber
  | .number x => [x]
  | .array items => itemNumbers items
  | .object members => memberNumbers members
  | _ => []

def itemNumbers : List Json → List JsonNumber
  | [] => []
  | item :: rest => numbers item ++ itemNumbers rest

def memberNumbers : List (String × Json) → List JsonNumber
  | [] => []
  | (_, value) :: rest => numbers value ++ memberNumbers rest

end

namespace Token

theorem scan_blanks {blanks : List Char} (h : ∀ c ∈ blanks, isBlank c = true) (text : List Char) :
    scan (blanks ++ text) = scan text := by
  induction blanks with
  | nil => rfl
  | cons c blanks ih =>
    obtain ⟨hc, hblanks⟩ := List.forall_mem_cons.mp h
    rw [List.cons_append, scan_blank hc, ih hblanks]

theorem scan_line (style : Style) (level : Nat) (text : List Char) :
    scan (style.line level ++ text) = scan text := by
  refine scan_blanks (fun c hc => ?_) text
  cases style with
  | compact => cases hc
  | pretty =>
    rcases List.mem_cons.mp hc with rfl | hc
    · rfl
    · rw [List.eq_of_mem_replicate hc]
      rfl

theorem scan_colon (style : Style) (text : List Char) :
    scan (style.colon ++ text) = .colon :: scan text := by
  cases style with
  | compact => exact scan_single rfl rfl text
  | pretty =>
    rw [Style.colon, List.cons_append, scan_single rfl rfl, List.singleton_append, scan_blank rfl]

theorem scan_literal {text rest : List Char} {literal : Literal}
    (h : Literal.scan text = (literal, rest)) :
    scan ('"' :: text) = .string literal :: scan rest := by
  have hblank : isBlank '"' = false := rfl
  have hsingle : single? '"' = none := rfl
  rw [scan, hblank]
  simp [hsingle, h]

theorem scan_quote (value : String) (text : List Char) :
    scan (quote value ++ text) = .string (Literal.ofChars value.toList) :: scan text := by
  have hquote : quote value ++ text =
      '"' :: (value.toList.flatMap escapeChar ++ '"' :: text) := by simp [quote]
  rw [hquote]
  exact scan_literal (Literal.scan_flatMap_escapeChar value.toList text)

theorem scanWord_append (word text : List Char) : scanWord word (word ++ text) = .ok text := by
  induction word with
  | nil => rfl
  | cons c word ih => rw [List.cons_append, scanWord, if_pos rfl, ih]

theorem scan_word {c : Char} {word : List Char} {token : Token} (h : word? c = some (word, token))
    (text : List Char) : scan (c :: (word ++ text)) = token :: scan text := by
  have hother : isBlank c = false ∧ single? c = none ∧ c ≠ '"' := by
    unfold word? at h
    split at h
    case h_4 => cases h
    all_goals exact ⟨rfl, rfl, by decide⟩
  obtain ⟨hblank, hsingle, hquote⟩ := hother
  rw [scan, hblank]
  simp only [Bool.false_eq_true, if_false, hsingle, hquote, h]
  split
  · next rest hrest =>
    rw [scanWord_append] at hrest
    cases hrest
    rfl
  · next f hf =>
    rw [scanWord_append] at hf
    cases hf

theorem scan_boolText (b : Bool) (text : List Char) :
    scan (boolText b ++ text) = .bool b :: scan text := by
  cases b with
  | false => exact scan_word rfl text
  | true => exact scan_word rfl text

/-- A text that starts with a number literal starts with no other token. -/
theorem scan_numeral {c : Char} {text rest : List Char} {n : Numeral}
    (h : scanNumeral? c text = some (.ok (n, rest))) :
    scan (c :: text) = .number n :: scan rest := by
  have hstart : c = '-' ∨ c.isDigit = true := by
    by_contra hneither
    obtain ⟨hminus, hdigit⟩ := not_or.mp hneither
    rw [scanNumeral?, if_neg hminus, if_neg hdigit] at h
    cases h
  have hother : isBlank c = false ∧ single? c = none ∧ c ≠ '"' ∧ word? c = none := by
    rcases hstart with rfl | hdigit
    · exact ⟨rfl, rfl, by decide, rfl⟩
    · have hne : ∀ d, d.isDigit = false → c ≠ d := by
        rintro d hd rfl
        rw [hdigit] at hd
        cases hd
      refine ⟨?_, ?_, hne _ rfl, ?_⟩
      · simp [isBlank, hne]
      · simp [single?, hne]
      · simp [word?, hne]
  obtain ⟨hblank, hsingle, hquote, hword⟩ := hother
  rw [scan, hblank]
  simp only [Bool.false_eq_true, if_false, hsingle, hquote, hword]
  split
  · next hsome =>
    rw [h] at hsome
    cases hsome
    rfl
  · next hfault =>
    rw [h] at hfault
    cases hfault
  · next hnone =>
    rw [h] at hnone
    cases hnone

theorem scan_number {x : JsonNumber} (hx : x.ReadsBack) {text : List Char}
    (htext : EndsNumber text) : scan (x.text ++ text) = .number x.numeral :: scan text := by
  obtain ⟨c, rest, hc, hscan⟩ := JsonNumber.numeral?_eq_some hx.numeral?_text
  rw [hc, List.cons_append, scan_numeral (scanNumeral?_append hscan fun _ => htext),
    List.nil_append]

end Token

/-! ## Scanning the text of a value -/

theorem endsNumber_line {style : Style} {level : Nat} {text : List Char} (h : EndsNumber text) :
    EndsNumber (style.line level ++ text) := by
  cases style with
  | compact => exact h
  | pretty => exact endsNumber_cons rfl (by decide) (by decide) (by decide)

theorem endsNumber_writeItems (style : Style) (level : Nat) (items : List Json)
    (text : List Char) : EndsNumber (writeItems style level items ++ text) := by
  cases items with
  | nil =>
    rw [writeItems, List.append_assoc]
    exact endsNumber_line (endsNumber_cons rfl (by decide) (by decide) (by decide))
  | cons item rest =>
    rw [writeItems]
    exact endsNumber_cons rfl (by decide) (by decide) (by decide)

theorem endsNumber_writeMembers (style : Style) (level : Nat) (members : List (String × Json))
    (text : List Char) : EndsNumber (writeMembers style level members ++ text) := by
  cases members with
  | nil =>
    rw [writeMembers, List.append_assoc]
    exact endsNumber_line (endsNumber_cons rfl (by decide) (by decide) (by decide))
  | cons member rest =>
    rw [writeMembers]
    exact endsNumber_cons rfl (by decide) (by decide) (by decide)

mutual

/-- **The text of a value is scanned into its tokens.** -/
theorem scan_write (style : Style) (level : Nat) : ∀ value : Json,
    (∀ x ∈ numbers value, x.ReadsBack) → ∀ text, EndsNumber text →
      Token.scan (write style level value ++ text) = tokens value ++ Token.scan text
  | .null, _, text, _ => Token.scan_word rfl text
  | .bool b, _, text, _ => Token.scan_boolText b text
  | .number x, hx, text, htext => by
    rw [write, tokens]
    exact Token.scan_number (hx x (by simp [numbers])) htext
  | .string s, _, text, _ => Token.scan_quote s text
  | .array [], _, text, _ => by
    rw [write, tokens, List.cons_append, List.cons_append, Token.scan_single rfl rfl,
      Token.scan_single rfl rfl]
    rfl
  | .array (item :: rest), h, text, _ => by
    simp only [numbers, itemNumbers, List.forall_mem_append] at h
    have hrest := scan_writeItems style level rest h.2 text
    have hitem := scan_write style (level + 1) item h.1 _
      (endsNumber_writeItems style level rest text)
    simp only [write, tokens, List.cons_append, List.append_assoc]
    rw [Token.scan_single rfl rfl, Token.scan_line, hitem, hrest]
  | .object [], _, text, _ => by
    rw [write, tokens, List.cons_append, List.cons_append, Token.scan_single rfl rfl,
      Token.scan_single rfl rfl]
    rfl
  | .object ((name, value) :: rest), h, text, _ => by
    simp only [numbers, memberNumbers, List.forall_mem_append] at h
    have hrest := scan_writeMembers style level rest h.2 text
    have hvalue := scan_write style (level + 1) value h.1 _
      (endsNumber_writeMembers style level rest text)
    simp only [write, tokens, List.cons_append, List.append_assoc]
    rw [Token.scan_single rfl rfl, Token.scan_line, Token.scan_quote, Token.scan_colon, hvalue,
      hrest]

theorem scan_writeItems (style : Style) (level : Nat) : ∀ items : List Json,
    (∀ x ∈ itemNumbers items, x.ReadsBack) → ∀ text,
      Token.scan (writeItems style level items ++ text) = itemTokens items ++ Token.scan text
  | [], _, text => by
    rw [writeItems, itemTokens, List.append_assoc, Token.scan_line]
    exact Token.scan_single rfl rfl text
  | item :: rest, h, text => by
    simp only [itemNumbers, List.forall_mem_append] at h
    have hrest := scan_writeItems style level rest h.2 text
    have hitem := scan_write style (level + 1) item h.1 _
      (endsNumber_writeItems style level rest text)
    simp only [writeItems, itemTokens, List.cons_append, List.append_assoc]
    rw [Token.scan_single rfl rfl, Token.scan_line, hitem, hrest]

theorem scan_writeMembers (style : Style) (level : Nat) : ∀ members : List (String × Json),
    (∀ x ∈ memberNumbers members, x.ReadsBack) → ∀ text,
      Token.scan (writeMembers style level members ++ text) =
        memberTokens members ++ Token.scan text
  | [], _, text => by
    rw [writeMembers, memberTokens, List.append_assoc, Token.scan_line]
    exact Token.scan_single rfl rfl text
  | (name, value) :: rest, h, text => by
    simp only [memberNumbers, List.forall_mem_append] at h
    have hrest := scan_writeMembers style level rest h.2 text
    have hvalue := scan_write style (level + 1) value h.1 _
      (endsNumber_writeMembers style level rest text)
    simp only [writeMembers, memberTokens, List.cons_append, List.append_assoc]
    rw [Token.scan_single rfl rfl, Token.scan_line, Token.scan_quote, Token.scan_colon, hvalue,
      hrest]

end

/-! ## Nesting -/

/-- How deep arrays and objects nest in tokens, where `opened` of them are open. -/
def nestingFrom (opened : Nat) : List Token → Nat
  | [] => opened
  | .openArray :: rest | .openObject :: rest => nestingFrom (opened + 1) rest
  | .closeArray :: rest | .closeObject :: rest => max opened (nestingFrom (opened - 1) rest)
  | _ :: rest => nestingFrom opened rest

/-- How deep the arrays and objects of a text nest. -/
def nesting (text : List Char) : Nat := nestingFrom 0 (Token.scan text)

mutual

/-- How deep arrays and objects nest in a value. -/
def depth : Json → Nat
  | .array items => itemDepth items + 1
  | .object members => memberDepth members + 1
  | _ => 0

def itemDepth : List Json → Nat
  | [] => 0
  | item :: rest => max (depth item) (itemDepth rest)

def memberDepth : List (String × Json) → Nat
  | [] => 0
  | (_, value) :: rest => max (depth value) (memberDepth rest)

end

theorem le_nestingFrom (opened : Nat) (tokens : List Token) :
    opened ≤ nestingFrom opened tokens := by
  fun_induction nestingFrom opened tokens <;> omega

mutual

theorem nestingFrom_tokens : ∀ (value : Json) (opened : Nat) (more : List Token),
    nestingFrom opened (tokens value ++ more) =
      max (opened + depth value) (nestingFrom opened more)
  | .null, opened, more | .bool _, opened, more | .number _, opened, more
  | .string _, opened, more => by
    have hle := le_nestingFrom opened more
    simp only [tokens, List.singleton_append, nestingFrom, depth]
    omega
  | .array [], opened, more | .object [], opened, more => by
    simp only [tokens, List.cons_append, List.nil_append, nestingFrom, depth, itemDepth,
      memberDepth, Nat.add_sub_cancel]
  | .array (item :: rest), opened, more => by
    simp only [tokens, List.cons_append, List.append_assoc, nestingFrom, depth, itemDepth]
    rw [nestingFrom_tokens item, nestingFrom_itemTokens rest]
    omega
  | .object ((name, value) :: rest), opened, more => by
    simp only [tokens, List.cons_append, List.append_assoc, nestingFrom, depth, memberDepth]
    rw [nestingFrom_tokens value, nestingFrom_memberTokens rest]
    omega

theorem nestingFrom_itemTokens : ∀ (items : List Json) (opened : Nat) (more : List Token),
    nestingFrom (opened + 1) (itemTokens items ++ more) =
      max (opened + 1 + itemDepth items) (nestingFrom opened more)
  | [], opened, more => by
    simp only [itemTokens, List.singleton_append, nestingFrom, itemDepth, Nat.add_sub_cancel]
  | item :: rest, opened, more => by
    simp only [itemTokens, List.cons_append, List.append_assoc, nestingFrom, itemDepth]
    rw [nestingFrom_tokens item, nestingFrom_itemTokens rest]
    omega

theorem nestingFrom_memberTokens : ∀ (members : List (String × Json)) (opened : Nat)
    (more : List Token),
    nestingFrom (opened + 1) (memberTokens members ++ more) =
      max (opened + 1 + memberDepth members) (nestingFrom opened more)
  | [], opened, more => by
    simp only [memberTokens, List.singleton_append, nestingFrom, memberDepth, Nat.add_sub_cancel]
  | (name, value) :: rest, opened, more => by
    simp only [memberTokens, List.cons_append, List.append_assoc, nestingFrom, memberDepth]
    rw [nestingFrom_tokens value, nestingFrom_memberTokens rest]
    omega

end

theorem scan_write_lineFeed {value : Json} (h : ∀ x ∈ numbers value, x.ReadsBack) :
    Token.scan (write .pretty 0 value ++ ['\n']) = tokens value := by
  have hend : EndsNumber ['\n'] := endsNumber_cons rfl (by decide) (by decide) (by decide)
  rw [scan_write .pretty 0 value h ['\n'] hend, Token.scan_blank rfl, Token.scan, List.append_nil]

/-- **A text nests as deep as the value that it is the text of.** -/
theorem nesting_write {value : Json} (h : ∀ x ∈ numbers value, x.ReadsBack) :
    nesting (write .pretty 0 value ++ ['\n']) = depth value := by
  have htokens := nestingFrom_tokens value 0 []
  rw [List.append_nil, nestingFrom] at htokens
  rw [nesting, scan_write_lineFeed h, htokens]
  omega

end CollectionSchema.Json
