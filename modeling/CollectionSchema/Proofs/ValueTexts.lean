import CollectionSchema.Proofs.JoinedTexts
import CollectionSchema.Proofs.WrittenOutline

/-!
# Texts of values

The text of a value (`ValueText`) is spelled with the tokens of an outline that has no fault, and
blanks around them. The texts of members, joined by commas between two braces, are the text of the
object with these members (`ValueText.object`), and those of items are the text of an array
(`ValueText.array`), whatever blanks there are.
-/

namespace CollectionSchema.Json

/-- The text of a value. -/
structure ValueText where
  text : List Char
  value : Outline
  scan_text : Token.scan text = value.tokens
  whole : value.Whole

/-- The text of a name: a string literal that stands for a string. -/
structure NameText where
  text : List Char
  literal : Literal
  scan_text : Token.scan text = [.string literal]
  name : String
  text_literal : literal.text = .ok name

/-- The text of a member of an object. -/
structure MemberText where
  name : NameText
  value : ValueText

def MemberText.text (m : MemberText) : List Char := m.name.text ++ ':' :: m.value.text

abbrev NamedOutline : Type := Literal × Outline

/-- The name and the value of a member. -/
def MemberText.entry (m : MemberText) : NamedOutline := (m.name.literal, m.value.value)

def Items.ofList (items : List Outline) : Items := items.foldr .item .close

def Members.ofList (entries : List NamedOutline) : Members :=
  entries.foldr (fun entry rest => .member entry.1 entry.2 rest) .close

/-! ## Tokens -/

namespace Outline

mutual

/-- No token of a value is broken off, unless the value is. -/
theorem whole_of_mem_tokens : ∀ {value : Outline}, value.Whole →
    ∀ token ∈ value.tokens, token.Whole
  | .null, _ | .bool _, _ | .number _, _ => by simp [tokens, Token.Whole]
  | .string literal, h => by
    rw [tokens, List.forall_mem_singleton]
    exact h
  | .array items, h => by
    rw [tokens, List.forall_mem_cons]
    exact ⟨trivial, whole_of_mem_itemTokens h (by simp)⟩
  | .object members, h => by
    rw [tokens, List.forall_mem_cons]
    exact ⟨trivial, whole_of_mem_memberTokens h (by simp)⟩

theorem whole_of_mem_itemTokens : ∀ {items : Items} {separator : List Token},
    WholeItems items → (∀ token ∈ separator, token.Whole) →
      ∀ token ∈ itemTokens separator items, token.Whole
  | .close, _, _, _ => by simp [itemTokens, Token.Whole]
  | .item value rest, separator, h, hseparator => by
    rw [itemTokens, List.forall_mem_append, List.forall_mem_append]
    exact ⟨⟨hseparator, whole_of_mem_tokens h.1⟩,
      whole_of_mem_itemTokens h.2 (by simp [Token.Whole])⟩

theorem whole_of_mem_memberTokens : ∀ {members : Members} {separator : List Token},
    WholeMembers members → (∀ token ∈ separator, token.Whole) →
      ∀ token ∈ memberTokens separator members, token.Whole
  | .close, _, _, _ => by simp [memberTokens, Token.Whole]
  | .member name value rest, separator, h, hseparator => by
    rw [memberTokens, List.forall_mem_append, List.forall_mem_append, List.forall_mem_cons,
      List.forall_mem_cons]
    exact ⟨⟨hseparator, h.1, trivial, whole_of_mem_tokens h.2.1⟩,
      whole_of_mem_memberTokens h.2.2 (by simp [Token.Whole])⟩

end

/-- The tokens of a member. -/
def entryTokens (entry : NamedOutline) : List Token :=
  .string entry.1 :: .colon :: entry.2.tokens

theorem itemTokens_cons (separator : List Token) (value : Outline) (items : List Outline) :
    itemTokens separator (Items.ofList (value :: items)) =
      separator ++ [.comma].intercalate ((value :: items).map tokens) ++ [.closeArray] := by
  induction items generalizing separator value with
  | nil => simp [Items.ofList, itemTokens]
  | cons next items ih =>
    show separator ++ value.tokens ++ itemTokens [.comma] (Items.ofList (next :: items)) = _
    rw [ih]
    simp

theorem itemTokens_ofList (items : List Outline) : itemTokens [] (Items.ofList items) =
    [.comma].intercalate (items.map tokens) ++ [.closeArray] := by
  cases items with
  | nil => rfl
  | cons value items => exact itemTokens_cons [] value items

theorem memberTokens_cons (separator : List Token) (entry : NamedOutline)
    (entries : List NamedOutline) :
    memberTokens separator (Members.ofList (entry :: entries)) =
      separator ++ [.comma].intercalate ((entry :: entries).map entryTokens) ++
        [.closeObject] := by
  induction entries generalizing separator entry with
  | nil => simp [Members.ofList, memberTokens, entryTokens]
  | cons next entries ih =>
    show separator ++ entryTokens entry ++
      memberTokens [.comma] (Members.ofList (next :: entries)) = _
    rw [ih]
    simp

theorem memberTokens_ofList (entries : List NamedOutline) :
    memberTokens [] (Members.ofList entries) =
      [.comma].intercalate (entries.map entryTokens) ++ [.closeObject] := by
  cases entries with
  | nil => rfl
  | cons entry entries => exact memberTokens_cons [] entry entries

theorem wholeItems_ofList {items : List Outline} :
    WholeItems (Items.ofList items) ↔ ∀ value ∈ items, value.Whole := by
  induction items with
  | nil => simp [Items.ofList, WholeItems]
  | cons value items ih =>
    rw [List.forall_mem_cons, ← ih]
    rfl

theorem wholeMembers_ofList {entries : List NamedOutline} :
    WholeMembers (Members.ofList entries) ↔
      ∀ entry ∈ entries, entry.1.complete = .ok () ∧ entry.2.Whole := by
  induction entries with
  | nil => simp [Members.ofList, WholeMembers]
  | cons entry entries ih =>
    rw [List.forall_mem_cons, ← ih, and_assoc]
    rfl

end Outline

/-! ## Values of texts -/

/-- The text that a name is written as. -/
def NameText.written (name : String) : NameText where
  text := quote name
  literal := Literal.ofChars name.toList
  scan_text := by
    have hscan := Token.scan_quote name []
    rwa [List.append_nil, Token.scan] at hscan
  name := name
  text_literal := Literal.text_ofChars name

theorem NameText.complete (name : NameText) : name.literal.complete = .ok () :=
  Literal.complete_of_text name.text_literal

theorem MemberText.scan_text (m : MemberText) :
    Token.scan m.text = Outline.entryTokens m.entry := by
  have hname : ∀ token ∈ Token.scan m.name.text, token.Whole := by
    rw [m.name.scan_text, List.forall_mem_singleton]
    exact m.name.complete
  have hcolon : Token.single? ':' = some .colon := rfl
  rw [text, Token.scan_append_single hname hcolon, m.name.scan_text, m.value.scan_text]
  rfl

theorem MemberText.whole_text (m : MemberText) : ∀ token ∈ Token.scan m.text, token.Whole := by
  rw [m.scan_text, Outline.entryTokens, List.forall_mem_cons, List.forall_mem_cons]
  exact ⟨m.name.complete, trivial, Outline.whole_of_mem_tokens m.value.whole⟩

namespace ValueText

theorem outline_text (v : ValueText) : outline v.text = (v.value, false) :=
  (outline_eq_iff v.whole).mpr v.scan_text

theorem whole_text (v : ValueText) : ∀ token ∈ Token.scan v.text, token.Whole := by
  rw [v.scan_text]
  exact Outline.whole_of_mem_tokens v.whole

/-- The text that a value is written as. -/
def written (value : Json) (h : ∀ x ∈ numbers value, x.ReadsBack) : ValueText where
  text := write .compact 0 value
  value := toOutline value
  scan_text := by
    have hscan := scan_write .compact 0 value h [] (by simp [EndsNumber])
    rwa [List.append_nil, Token.scan, List.append_nil, ← tokens_toOutline] at hscan
  whole := whole_toOutline value

/-- The text of an array. -/
def array (spacing : Spacing) (items : List ValueText) : ValueText where
  text := bracketed '[' ']' spacing (items.map ValueText.text)
  value := .array (Items.ofList (items.map ValueText.value))
  scan_text := by
    have hitems : ∀ text ∈ items.map ValueText.text, ∀ token ∈ Token.scan text, token.Whole :=
      List.forall_mem_map.mpr fun item _ => item.whole_text
    rw [Token.scan_bracketed rfl rfl spacing hitems, Outline.tokens,
      Outline.itemTokens_ofList, List.map_map, List.map_map]
    congr 3
    exact List.map_congr_left fun item _ => item.scan_text
  whole := by
    show Outline.WholeItems _
    rw [Outline.wholeItems_ofList, List.forall_mem_map]
    exact fun item _ => item.whole

/-- The text of an object. -/
def object (spacing : Spacing) (members : List MemberText) : ValueText where
  text := bracketed '{' '}' spacing (members.map MemberText.text)
  value := .object (Members.ofList (members.map MemberText.entry))
  scan_text := by
    have hmembers : ∀ text ∈ members.map MemberText.text, ∀ token ∈ Token.scan text,
        token.Whole := List.forall_mem_map.mpr fun m _ => m.whole_text
    rw [Token.scan_bracketed rfl rfl spacing hmembers, Outline.tokens,
      Outline.memberTokens_ofList, List.map_map, List.map_map]
    congr 3
    exact List.map_congr_left fun m _ => m.scan_text
  whole := by
    show Outline.WholeMembers _
    rw [Outline.wholeMembers_ofList, List.forall_mem_map]
    exact fun m _ => ⟨m.name.complete, m.value.whole⟩

end ValueText

/-! ## Texts of values -/

theorem exists_items_eq_ofList : ∀ {items : Items}, Outline.WholeItems items →
    ∃ values, items = .ofList values
  | .close, _ => ⟨[], rfl⟩
  | .item value rest, h => by
    obtain ⟨values, rfl⟩ := exists_items_eq_ofList h.2
    exact ⟨value :: values, rfl⟩

theorem exists_members_eq_ofList : ∀ {members : Members}, Outline.WholeMembers members →
    ∃ entries, members = .ofList entries
  | .close, _ => ⟨[], rfl⟩
  | .member name value rest, h => by
    obtain ⟨entries, rfl⟩ := exists_members_eq_ofList h.2.2
    exact ⟨(name, value) :: entries, rfl⟩

/-- Values that agree one by one have a list of common origins. -/
theorem exists_map_of_map_eq {α β γ δ : Type} {f : α → δ} {g : β → δ} {p : γ → α} {q : γ → β}
    {as : List α} {bs : List β} (h : as.map f = bs.map g)
    (hcommon : ∀ a, ∀ b ∈ bs, f a = g b → ∃ c, p c = a ∧ q c = b) :
    ∃ cs : List γ, cs.map p = as ∧ cs.map q = bs := by
  induction bs generalizing as with
  | nil =>
    obtain rfl := List.map_eq_nil_iff.mp h
    exact ⟨[], rfl, rfl⟩
  | cons b bs ih =>
    obtain ⟨a, as, rfl, hb, hbs⟩ := List.map_eq_cons_iff.mp h
    obtain ⟨c, rfl, rfl⟩ := hcommon a b List.mem_cons_self hb
    obtain ⟨cs, rfl, rfl⟩ := ih hbs fun a b hb => hcommon a b (List.mem_cons_of_mem _ hb)
    exact ⟨c :: cs, rfl, rfl⟩

theorem MemberText.exists_of_scan {text : List Char} {entry : NamedOutline}
    (h : Token.scan text = Outline.entryTokens entry) (hname : ∃ name, entry.1.text = .ok name)
    (hwhole : entry.1.complete = .ok () ∧ entry.2.Whole) :
    ∃ m : MemberText, m.text = text ∧ m.entry = entry := by
  obtain ⟨literal, value⟩ := entry
  obtain ⟨name, hname⟩ := hname
  have hliteral : ∀ token ∈ [Token.string literal], token.Whole :=
    List.forall_mem_singleton.mpr hwhole.1
  have hcolon : Token.single? ':' = some .colon := rfl
  obtain ⟨first, rest, rfl, hfirst, hrest⟩ := Token.exists_piece_of_scan hliteral hcolon h
  exact ⟨⟨⟨first, literal, hfirst, name, hname⟩, ⟨rest, value, hrest, hwhole.2⟩⟩, rfl, rfl⟩

namespace ValueText

@[ext]
theorem ext {v w : ValueText} (htext : v.text = w.text) (hvalue : v.value = w.value) : v = w := by
  cases v; cases w; cases htext; cases hvalue; rfl

/-- **The text of an array** is made of texts of its items. -/
theorem exists_array {v : ValueText} {items : Items} (h : v.value = .array items) :
    ∃ spacing items, v = array spacing items := by
  have hwhole : Outline.WholeItems items := by simpa [h, Outline.Whole] using v.whole
  obtain ⟨values, rfl⟩ := exists_items_eq_ofList hwhole
  rw [Outline.wholeItems_ofList] at hwhole
  have hscan := v.scan_text
  rw [h, Outline.tokens, Outline.itemTokens_ofList] at hscan
  have hpieces : ∀ piece ∈ values.map Outline.tokens, ∀ token ∈ piece, token.Whole :=
    List.forall_mem_map.mpr fun value hvalue => Outline.whole_of_mem_tokens (hwhole value hvalue)
  have hfirst : Token.single? '[' = some .openArray := rfl
  have hlast : Token.single? ']' = some .closeArray := rfl
  obtain ⟨spacing, texts, htext, htexts⟩ :=
    Token.exists_bracketed_of_scan hfirst hlast hpieces hscan
  obtain ⟨items, rfl, rfl⟩ := exists_map_of_map_eq htexts fun text value hvalue htext =>
    (⟨⟨text, value, htext, hwhole value hvalue⟩, rfl, rfl⟩ :
      ∃ item : ValueText, item.text = text ∧ item.value = value)
  exact ⟨spacing, items, ext htext h⟩

/-- **The text of an object** whose names stand for strings is made of texts of its members. -/
theorem exists_object {v : ValueText} {entries : List NamedOutline}
    (h : v.value = .object (.ofList entries)) (hnames : ∀ entry ∈ entries, ∃ name,
      entry.1.text = .ok name) :
    ∃ spacing members, v = object spacing members := by
  have hwhole : Outline.WholeMembers (.ofList entries) := by
    simpa [h, Outline.Whole] using v.whole
  rw [Outline.wholeMembers_ofList] at hwhole
  have hscan := v.scan_text
  rw [h, Outline.tokens, Outline.memberTokens_ofList] at hscan
  have hpieces : ∀ piece ∈ entries.map Outline.entryTokens, ∀ token ∈ piece, token.Whole := by
    rw [List.forall_mem_map]
    intro entry hentry
    rw [Outline.entryTokens, List.forall_mem_cons, List.forall_mem_cons]
    exact ⟨(hwhole entry hentry).1, trivial,
      Outline.whole_of_mem_tokens (hwhole entry hentry).2⟩
  have hfirst : Token.single? '{' = some .openObject := rfl
  have hlast : Token.single? '}' = some .closeObject := rfl
  obtain ⟨spacing, texts, htext, htexts⟩ :=
    Token.exists_bracketed_of_scan hfirst hlast hpieces hscan
  obtain ⟨members, rfl, rfl⟩ := exists_map_of_map_eq htexts fun text entry hentry htext =>
    MemberText.exists_of_scan htext (hnames entry hentry) (hwhole entry hentry)
  exact ⟨spacing, members, ext htext h⟩

end ValueText

end CollectionSchema.Json
