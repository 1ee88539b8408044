import CollectionSchema.Json.Reader
import CollectionSchema.Proofs.Outcome

/-!
# Tokens of outlines

An outline without a fault (`Outline.Whole`) says which tokens it is spelled with
(`Outline.tokens`), and a text has such an outline exactly if it consists of these tokens
(`outline_eq_iff`). That the tokens are enough is an induction over the outline
(`Outline.foldl_tokens`); that they are needed is an invariant of the fold: a state that has not
failed spells what was read (`Outline.State.Spells`).
-/

namespace CollectionSchema.Json

namespace Outline

mutual

/-- An outline of a text that does not break off. -/
def Whole : Outline → Prop
  | .null | .bool _ | .number _ => True
  | .string literal => literal.complete = .ok ()
  | .array items => WholeItems items
  | .object members => WholeMembers members
  | .brokenNumber _ | .fault _ => False

def WholeItems : Items → Prop
  | .close => True
  | .fault _ => False
  | .item value rest => Whole value ∧ WholeItems rest

def WholeMembers : Members → Prop
  | .close => True
  | .fault _ => False
  | .member name value rest => name.complete = .ok () ∧ Whole value ∧ WholeMembers rest

end

mutual

/-- A value that is only skimmed may be any that does not break off. -/
theorem skim_eq_ok_iff : ∀ outline : Outline, skim outline = .ok () ↔ Whole outline
  | .null | .bool _ | .number _ => by simp [skim, Whole]
  | .string _ => .rfl
  | .array items => skimItems_eq_ok_iff items
  | .object members => skimMembers_eq_ok_iff members
  | .brokenNumber _ | .fault _ => by simp [skim, Whole]

theorem skimItems_eq_ok_iff : ∀ items : Items, skimItems items = .ok () ↔ WholeItems items
  | .close => by simp [skimItems, WholeItems]
  | .fault _ => by simp [skimItems, WholeItems]
  | .item value rest => by
    simp only [skimItems, WholeItems, Outcome.bind_eq_ok_iff, skim_eq_ok_iff value,
      skimItems_eq_ok_iff rest, Unique.exists_iff]

theorem skimMembers_eq_ok_iff : ∀ members : Members,
    skimMembers members = .ok () ↔ WholeMembers members
  | .close => by simp [skimMembers, WholeMembers]
  | .fault _ => by simp [skimMembers, WholeMembers]
  | .member name value rest => by
    simp only [skimMembers, WholeMembers, Outcome.bind_eq_ok_iff, skim_eq_ok_iff value,
      skimMembers_eq_ok_iff rest, Unique.exists_iff]

end

mutual

/-- The tokens that an outline is spelled with. -/
def tokens : Outline → List Token
  | .null => [.null]
  | .bool b => [.bool b]
  | .number n => [.number n]
  | .brokenNumber f => [.brokenNumber f]
  | .string literal => [.string literal]
  | .array items => .openArray :: itemTokens [] items
  | .object members => .openObject :: memberTokens [] members
  | .fault f => [.brokenWord f]

/-- The tokens of items and of the closing bracket, where `separator` stands before the next. -/
def itemTokens (separator : List Token) : Items → List Token
  | .close => [.closeArray]
  | .fault _ => []
  | .item value rest => separator ++ tokens value ++ itemTokens [.comma] rest

/-- The tokens of members and of the closing brace, where `separator` stands before the next. -/
def memberTokens (separator : List Token) : Members → List Token
  | .close => [.closeObject]
  | .fault _ => []
  | .member name value rest =>
    separator ++ .string name :: .colon :: tokens value ++ memberTokens [.comma] rest

end

/-! ## The tokens are enough -/

theorem exists_tokens_eq_cons (outline : Outline) :
    ∃ token rest, outline.tokens = token :: rest ∧ token ≠ .closeArray := by
  cases outline <;> exact ⟨_, _, rfl, by simp⟩

/-- The first token of an item is not the closing bracket, so it starts a value. -/
theorem foldl_firstItem (outline : Outline) (stack : List Slot) :
    outline.tokens.foldl step (.firstItem stack) =
      outline.tokens.foldl step (.value (.item [] :: stack)) := by
  obtain ⟨token, rest, htokens, htoken⟩ := exists_tokens_eq_cons outline
  have hstep : step (.firstItem stack) token = step (.value (.item [] :: stack)) token := by
    cases token <;> first | rfl | exact absurd rfl htoken
  rw [htokens, List.foldl_cons, List.foldl_cons, hstep]

mutual

/-- **The tokens of an outline put it where a value must follow.** -/
theorem foldl_tokens : ∀ outline : Outline, outline.Whole → ∀ stack : List Slot,
    outline.tokens.foldl step (.value stack) = place outline stack
  | .null, _, _ | .bool _, _, _ | .number _, _, _ | .string _, _, _ => rfl
  | .array .close, _, _ | .object .close, _, _ => rfl
  | .array (.item value rest), h, stack => by
    have hvalue := foldl_tokens value h.1 (.item [] :: stack)
    have hrest := foldl_itemTokens rest h.2 [value] stack
    have hopen : step (.value stack) .openArray = .firstItem stack := rfl
    rw [tokens, itemTokens, List.nil_append, List.foldl_cons, hopen, List.foldl_append,
      foldl_firstItem, hvalue, place, hrest]
    rfl
  | .object (.member name value rest), h, stack => by
    have hvalue := foldl_tokens value h.2.1 (.member [] name :: stack)
    have hrest := foldl_memberTokens rest h.2.2 [(name, value)] stack
    have hopen : step (step (step (.value stack) .openObject) (.string name)) .colon =
        .value (.member [] name :: stack) := rfl
    simp only [tokens, memberTokens, List.nil_append, List.cons_append, List.foldl_cons]
    rw [hopen, List.foldl_append, hvalue, place, hrest]
    rfl

theorem foldl_itemTokens : ∀ items : Items, WholeItems items →
    ∀ (before : List Outline) (stack : List Slot),
      (itemTokens [.comma] items).foldl step (.afterItem before stack) =
        place (.array (Items.ofReversed before items)) stack
  | .close, _, _, _ => rfl
  | .item value rest, h, before, stack => by
    have hvalue := foldl_tokens value h.1 (.item before :: stack)
    have hrest := foldl_itemTokens rest h.2 (value :: before) stack
    have hcomma : step (.afterItem before stack) .comma = .value (.item before :: stack) := rfl
    simp only [itemTokens, List.cons_append, List.nil_append, List.foldl_cons]
    rw [hcomma, List.foldl_append, hvalue, place, hrest]
    rfl

theorem foldl_memberTokens : ∀ members : Members, WholeMembers members →
    ∀ (before : List (Literal × Outline)) (stack : List Slot),
      (memberTokens [.comma] members).foldl step (.afterMember before stack) =
        place (.object (Members.ofReversed before members)) stack
  | .close, _, _, _ => rfl
  | .member name value rest, h, before, stack => by
    have hvalue := foldl_tokens value h.2.1 (.member before name :: stack)
    have hrest := foldl_memberTokens rest h.2.2 ((name, value) :: before) stack
    have hcomma : step (step (step (.afterMember before stack) .comma) (.string name)) .colon =
        .value (.member before name :: stack) := rfl
    simp only [memberTokens, List.cons_append, List.nil_append, List.foldl_cons]
    rw [hcomma, List.foldl_append, hvalue, place, hrest]
    rfl

end

/-! ## The tokens are needed -/

/-- The tokens of items with a comma behind each. -/
def followedItems (before : List Outline) : List Token :=
  before.reverse.flatMap fun value => value.tokens ++ [.comma]

/-- The tokens of members with a comma behind each. -/
def followedMembers (before : List (Literal × Outline)) : List Token :=
  before.reverse.flatMap fun entry => .string entry.1 :: .colon :: entry.2.tokens ++ [.comma]

/-- The tokens that lead to a place for a value. -/
def openTokens : List Slot → List Token
  | [] => []
  | .item before :: stack => openTokens stack ++ .openArray :: followedItems before
  | .member before name :: stack =>
    openTokens stack ++ .openObject :: followedMembers before ++ [.string name, .colon]

/-- A state that tokens lead to, if none of them is out of place. -/
def State.Spells (read : List Token) : State → Prop
  | .value stack => read = openTokens stack
  | .firstItem stack => read = openTokens stack ++ [.openArray]
  | .afterItem items stack => ∃ value before, items = value :: before ∧
      read = openTokens (.item before :: stack) ++ value.tokens
  | .firstName stack => read = openTokens stack ++ [.openObject]
  | .name members stack => read = openTokens stack ++ .openObject :: followedMembers members
  | .colon members literal stack =>
    read = openTokens stack ++ .openObject :: followedMembers members ++ [.string literal]
  | .afterMember members stack => ∃ literal value before, members = (literal, value) :: before ∧
      read = openTokens (.member before literal :: stack) ++ value.tokens
  | .done outline trailing => trailing = false ∧ read = outline.tokens

/-- The text broke off, or more stands behind the value. -/
def State.Failed : State → Prop
  | .done outline trailing => trailing = true ∨ ¬ outline.Whole
  | _ => False

theorem spells_place (outline : Outline) (stack : List Slot) :
    (place outline stack).Spells (openTokens stack ++ outline.tokens) := by
  cases stack with
  | nil => exact ⟨rfl, rfl⟩
  | cons slot stack =>
    cases slot with
    | item before => exact ⟨outline, before, rfl, rfl⟩
    | member before name => exact ⟨name, outline, before, rfl, rfl⟩

theorem wholeItems_of_ofReversed {before : List Outline} {tail : Items}
    (h : WholeItems (Items.ofReversed before tail)) : WholeItems tail := by
  induction before generalizing tail with
  | nil => exact h
  | cons value before ih => exact (ih h).2

theorem wholeMembers_of_ofReversed {before : List (Literal × Outline)} {tail : Members}
    (h : WholeMembers (Members.ofReversed before tail)) : WholeMembers tail := by
  induction before generalizing tail with
  | nil => exact h
  | cons entry before ih => exact (ih h).2.2

theorem not_whole_array (before : List Outline) (f : Fault) :
    ¬ (array (Items.ofReversed before (.fault f))).Whole :=
  fun h => (wholeItems_of_ofReversed h : WholeItems (.fault f))

theorem not_whole_object (before : List (Literal × Outline)) (f : Fault) :
    ¬ (object (Members.ofReversed before (.fault f))).Whole :=
  fun h => (wholeMembers_of_ofReversed h : WholeMembers (.fault f))

theorem not_whole_enclose {f : Fault} {outline : Outline} (h : ¬ outline.Whole)
    (stack : List Slot) : ¬ (enclose f outline stack).Whole := by
  induction stack generalizing outline with
  | nil => exact h
  | cons slot stack ih =>
    cases slot with
    | item before => exact ih (not_whole_array _ f)
    | member before name => exact ih (not_whole_object _ f)

theorem not_whole_abandon {f : Fault} {state : State} (h : ∀ outline trailing,
    state ≠ .done outline trailing) : ¬ (abandon f state).Whole := by
  cases state with
  | value stack => exact not_whole_enclose id stack
  | firstItem stack => exact not_whole_enclose (not_whole_array [] f) stack
  | afterItem items stack => exact not_whole_enclose (not_whole_array items f) stack
  | firstName stack => exact not_whole_enclose (not_whole_object [] f) stack
  | name members stack => exact not_whole_enclose (not_whole_object members f) stack
  | colon members name stack =>
    exact not_whole_enclose (not_whole_object ((name, .fault f) :: members) f) stack
  | afterMember members stack => exact not_whole_enclose (not_whole_object members f) stack
  | done outline trailing => exact absurd rfl (h outline trailing)

theorem itemTokens_ofReversed (value : Outline) (before : List Outline) (tail : Items) :
    itemTokens [] (Items.ofReversed (value :: before) tail) =
      followedItems before ++ value.tokens ++ itemTokens [.comma] tail := by
  induction before generalizing value tail with
  | nil => rfl
  | cons previous before ih =>
    refine (ih previous (.item value tail)).trans ?_
    simp [itemTokens, followedItems]

theorem memberTokens_ofReversed (name : Literal) (value : Outline)
    (before : List (Literal × Outline)) (tail : Members) :
    memberTokens [] (Members.ofReversed ((name, value) :: before) tail) =
      followedMembers before ++ .string name :: .colon :: value.tokens ++
        memberTokens [.comma] tail := by
  induction before generalizing name value tail with
  | nil => rfl
  | cons previous before ih =>
    refine (ih previous.1 previous.2 (.member name value tail)).trans ?_
    simp [memberTokens, followedMembers]

theorem spells_start (stack : List Slot) (token : Token) :
    (start stack token).Failed ∨ (start stack token).Spells (openTokens stack ++ [token]) := by
  cases token with
  | null => exact .inr (spells_place .null stack)
  | bool b => exact .inr (spells_place (.bool b) stack)
  | number n => exact .inr (spells_place (.number n) stack)
  | string literal => exact .inr (spells_place (.string literal) stack)
  | brokenNumber f => exact .inr (spells_place (.brokenNumber f) stack)
  | brokenWord f => exact .inr (spells_place (.fault f) stack)
  | openArray | openObject => exact .inr (.refl _)
  | closeArray | closeObject | comma | colon | stray =>
    exact .inl (.inr (not_whole_abandon (by simp)))

/-- **What a token makes of a state.** -/
theorem spells_step {state : State} {read : List Token} (h : state.Spells read) (token : Token) :
    (step state token).Failed ∨ (step state token).Spells (read ++ [token]) := by
  have hplaced : ∀ outline stack, openTokens stack ++ outline.tokens = read ++ [token] →
      (place outline stack).Spells (read ++ [token]) :=
    fun outline stack htokens => htokens ▸ spells_place outline stack
  cases state with
  | value stack =>
    obtain rfl : read = _ := h
    exact spells_start stack token
  | firstItem stack =>
    obtain rfl : read = _ := h
    by_cases hclose : token = .closeArray
    · subst hclose
      exact .inr (hplaced (.array .close) stack (by simp [tokens, itemTokens]))
    · have hstart : step (.firstItem stack) token = start (.item [] :: stack) token := by
        cases token <;> first | rfl | exact absurd rfl hclose
      rw [hstart]
      exact spells_start (.item [] :: stack) token
  | afterItem items stack =>
    obtain ⟨value, before, rfl, rfl⟩ := h
    cases token
    case comma => exact .inr (by simp [step, State.Spells, openTokens, followedItems])
    case closeArray =>
      refine .inr (hplaced (.array (Items.ofReversed (value :: before) .close)) stack ?_)
      rw [tokens, itemTokens_ofReversed]
      simp [openTokens, itemTokens]
    all_goals exact .inl (.inr (not_whole_abandon (by simp)))
  | firstName stack =>
    obtain rfl : read = _ := h
    cases token
    case closeObject => exact .inr (hplaced (.object .close) stack (by simp [tokens, memberTokens]))
    case string name => exact .inr (by simp [step, State.Spells, followedMembers])
    all_goals exact .inl (.inr (not_whole_abandon (by simp)))
  | name members stack =>
    obtain rfl : read = _ := h
    cases token
    case string name => exact .inr (.refl _)
    all_goals exact .inl (.inr (not_whole_abandon (by simp)))
  | colon members name stack =>
    obtain rfl : read = _ := h
    cases token
    case colon => exact .inr (by simp [step, State.Spells, openTokens])
    all_goals exact .inl (.inr (not_whole_abandon (by simp)))
  | afterMember members stack =>
    obtain ⟨name, value, before, rfl, rfl⟩ := h
    cases token
    case comma => exact .inr (by simp [step, State.Spells, openTokens, followedMembers])
    case closeObject =>
      refine .inr (hplaced (.object (Members.ofReversed ((name, value) :: before) .close)) stack ?_)
      rw [tokens, memberTokens_ofReversed]
      simp [openTokens, memberTokens]
    all_goals exact .inl (.inr (not_whole_abandon (by simp)))
  | done outline trailing =>
    have hstep : step (.done outline trailing) token = .done outline true := by cases token <;> rfl
    rw [hstep]
    exact .inl (.inl rfl)

theorem failed_foldl {state : State} (h : state.Failed) (more : List Token) :
    (more.foldl step state).Failed := by
  induction more generalizing state with
  | nil => exact h
  | cons token more ih =>
    cases state with
    | done outline trailing =>
      have hstep : step (.done outline trailing) token = .done outline true := by
        cases token <;> rfl
      rw [List.foldl_cons, hstep]
      exact ih (.inl rfl)
    | _ => exact h.elim

/-- **What has been read is spelled by the state**, unless the text broke off. -/
theorem spells_foldl {state : State} {read : List Token} (h : state.Spells read)
    (more : List Token) :
    (more.foldl step state).Failed ∨ (more.foldl step state).Spells (read ++ more) := by
  induction more generalizing state read with
  | nil => exact .inr ((List.append_nil read).symm ▸ h)
  | cons token more ih =>
    rw [List.foldl_cons]
    rcases spells_step h token with hfailed | hspells
    · exact .inl (failed_foldl hfailed more)
    · have hmore := ih hspells
      rwa [List.append_assoc, List.singleton_append] at hmore

end Outline

/-- **A text has an outline without a fault exactly if it is spelled with the tokens of that.** -/
theorem outline_eq_iff {value : Outline} (h : value.Whole) {text : List Char} :
    outline text = (value, false) ↔ Token.scan text = value.tokens := by
  constructor
  · intro houtline
    have hstart : Outline.State.Spells [] (.value []) := .refl []
    have hspells := Outline.spells_foldl hstart (Token.scan text)
    unfold outline at houtline
    split at houtline
    · next hdone =>
      cases houtline
      rw [hdone] at hspells
      rcases hspells with (htrailing | hbroken) | ⟨-, htokens⟩
      · cases htrailing
      · exact absurd h hbroken
      · exact htokens
    · next hopen =>
      cases houtline
      exact absurd h (Outline.not_whole_abandon hopen)
  · intro htokens
    have hfold := Outline.foldl_tokens value h []
    rw [Outline.place] at hfold
    rw [outline, htokens, hfold]

end CollectionSchema.Json
