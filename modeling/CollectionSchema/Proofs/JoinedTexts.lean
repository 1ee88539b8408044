import CollectionSchema.Proofs.WrittenTokens

/-!
# Tokens of texts that are joined

A text is scanned token by token. A whole token takes the same off every text that starts alike,
unless it is a number that goes on (`Token.takes_token`). So the tokens of two texts, one behind the
other, are those of the first and those of the second (`Token.scan_append`), and a text can be cut
between any two of its tokens (`Token.exists_cut`).

The tokens of texts that are joined by commas between brackets are the tokens of the texts between
those of the commas and brackets (`Token.scan_bracketed`), and every text with such tokens is joined
like that (`Token.exists_bracketed_of_scan`).
-/

namespace CollectionSchema.Json

namespace Literal

/-- The scanner goes from a text to what is behind a literal. -/
abbrev Scans (literal : Literal) (text rest : List Char) : Prop := scan text = (literal, rest)

theorem takes_lead (lead : List Char) {text rest : List Char} {wrap : Literal → Literal}
    {literal : Literal} (hlead : ∀ more, scan (lead ++ more) = (wrap (scan more).1, (scan more).2))
    (h : Takes (Scans literal) (fun _ => True) text rest) :
    Takes (Scans (wrap literal)) (fun _ => True) (lead ++ text) rest := by
  obtain ⟨used, rfl, hscans⟩ := h
  refine ⟨lead ++ used, (List.append_assoc ..).symm, fun more hmore => ?_⟩
  show scan (lead ++ used ++ more) = _
  rw [List.append_assoc, hlead, hscans more hmore]

/-- A complete literal takes the same off every text that starts with it. -/
theorem takes_scan {text rest : List Char} {literal : Literal} (h : scan text = (literal, rest))
    (hcomplete : literal.complete = .ok ()) : Takes (Scans literal) (fun _ => True) text rest := by
  fun_induction scan text generalizing literal rest
  case case2 rest' =>
    cases h
    exact ⟨['"'], rfl, fun more _ => rfl⟩
  case case3 a b c d text value hvalue literal' rest' hscan ih =>
    cases h
    refine takes_lead ['\\', 'u', a, b, c, d] (fun more => ?_) (ih hscan hcomplete)
    simp only [List.cons_append, List.nil_append]
    rw [scan, hvalue]
  case case6 c text hunit hletter escaped hescaped literal' rest' hscan ih =>
    cases h
    refine takes_lead ['\\', c] (fun more => ?_) (ih hscan hcomplete)
    simp only [List.cons_append, List.nil_append]
    rw [scan, hescaped]
    all_goals simp [show c ≠ 'u' from hletter]
  case case10 c text hquote hunit hletter hescape hlast hcontrol literal' rest' hscan ih =>
    cases h
    have hbackslash : c ≠ '\\' := by
      rintro rfl
      cases text with
      | nil => exact hlast rfl rfl
      | cons d text => exact hescape d text rfl rfl
    refine takes_lead [c] (fun more => ?_) (ih hscan hcomplete)
    rw [List.singleton_append, scan, if_neg hcontrol]
    all_goals simp_all
  all_goals
    cases h
    cases hcomplete

end Literal

namespace Token

/-- A token that is not broken off. -/
def Whole : Token → Prop
  | .string literal => literal.complete = .ok ()
  | .brokenNumber _ | .brokenWord _ | .stray => False
  | _ => True

theorem eq_append_of_scanWord {word text rest : List Char} (h : scanWord word text = .ok rest) :
    text = word ++ rest := by
  fun_induction scanWord word text with
  | case1 text => exact Except.ok.inj h
  | case2 c word => cases h
  | case3 c word text ih => rw [List.cons_append, ← ih h]
  | case4 c word d text hne => cases h

/-- **What a whole token takes off a text** it takes off every text that starts alike and goes on
alike, or as no number does. -/
theorem takes_token {text : List Char} {token : Token} {tokens : List Token}
    (h : scan text = token :: tokens) (hwhole : token.Whole) :
    ∃ rest, scan rest = tokens ∧
      Takes (fun text rest => scan text = token :: scan rest) EndsNumber text rest := by
  induction text with
  | nil => simp [scan] at h
  | cons c text ih =>
    rw [scan] at h
    split at h
    · next hblank =>
      obtain ⟨rest, hrest, used, rfl, hscans⟩ := ih h
      refine ⟨rest, hrest, c :: used, rfl, fun more hmore => ?_⟩
      exact (scan_blank hblank _).trans (hscans more hmore)
    · next hblank =>
      split at h
      · next single hsingle =>
        cases h
        refine ⟨text, rfl, [c], rfl, fun more _ => ?_⟩
        exact scan_single (eq_false_of_ne_true hblank) hsingle more
      · split at h
        · next hquote =>
          subst hquote
          split at h
          next literal rest hliteral =>
          cases h
          obtain ⟨used, rfl, hscans⟩ := Literal.takes_scan hliteral hwhole
          refine ⟨rest, rfl, '"' :: used, rfl, fun more _ => ?_⟩
          exact scan_literal (hscans more (.inr trivial))
        · split at h
          · next word wordToken hword =>
            split at h
            · next rest hrest =>
              cases h
              obtain rfl := eq_append_of_scanWord hrest
              exact ⟨rest, rfl, c :: word, rfl, fun more _ => scan_word hword more⟩
            · cases h
              exact hwhole.elim
          · split at h
            · next n rest hnumeral =>
              cases h
              obtain ⟨used, rfl, hscans⟩ := takes_numeral hnumeral
              refine ⟨rest, rfl, c :: used, rfl, fun more hmore => ?_⟩
              exact scan_numeral (hscans more hmore)
            · cases h
              exact hwhole.elim
            · cases h
              exact hwhole.elim

theorem scan_eq_nil_iff {text : List Char} : scan text = [] ↔ ∀ c ∈ text, isBlank c = true := by
  induction text with
  | nil => simp [scan]
  | cons c text ih =>
    rw [List.forall_mem_cons]
    by_cases hblank : isBlank c = true
    · rw [scan_blank hblank, ih, and_iff_right hblank]
    · refine iff_of_false (fun h => ?_) fun h => hblank h.1
      rw [scan, if_neg hblank] at h
      repeat' split at h
      all_goals cases h

/-- **The tokens of a text and of another behind it.** -/
theorem scan_append {text more : List Char} (h : ∀ token ∈ scan text, token.Whole)
    (hmore : EndsNumber more) : scan (text ++ more) = scan text ++ scan more := by
  generalize htokens : scan text = tokens at h
  induction tokens generalizing text with
  | nil =>
    rw [scan_blanks (scan_eq_nil_iff.mp htokens), List.nil_append]
  | cons token tokens ih =>
    obtain ⟨hwhole, hrest⟩ := List.forall_mem_cons.mp h
    obtain ⟨rest, hscan, htakes⟩ := takes_token htokens hwhole
    rw [htakes.scans_append fun _ => hmore, ih hscan hrest, List.cons_append]

/-- A text can be cut between two of its tokens. -/
theorem exists_cut {text : List Char} {before after : List Token}
    (h : scan text = before ++ after) (hwhole : ∀ token ∈ before, token.Whole) :
    ∃ first second, text = first ++ second ∧ scan first = before ∧ scan second = after := by
  induction before generalizing text with
  | nil => exact ⟨[], text, rfl, by rw [scan], h⟩
  | cons token before ih =>
    obtain ⟨htoken, hbefore⟩ := List.forall_mem_cons.mp hwhole
    obtain ⟨rest, hrest, used, rfl, hscans⟩ := takes_token h htoken
    obtain ⟨first, second, rfl, hfirst, hsecond⟩ := ih hrest hbefore
    refine ⟨used ++ first, second, (List.append_assoc ..).symm, ?_, hsecond⟩
    rw [hscans first ?_, hfirst]
    cases first with
    | nil => exact .inr (by simp [EndsNumber])
    | cons c first => exact .inl rfl

end Token

/-! ## Texts between brackets -/

/-- Blanks, or nothing. -/
def Blanks : Type := { text : List Char // ∀ c ∈ text, Token.isBlank c = true }

/-- The blanks around brackets that are not part of what stands between them. -/
structure Spacing where
  before : Blanks
  inside : Blanks
  behind : Blanks

/-- Texts that are joined by commas between brackets. -/
def bracketed (opening closing : Char) (spacing : Spacing) (texts : List (List Char)) :
    List Char :=
  spacing.before.val ++ opening :: (spacing.inside.val ++
    ([','].intercalate texts ++ closing :: spacing.behind.val))

namespace Token

theorem endsNumber_single {c : Char} {token : Token} (h : single? c = some token)
    (more : List Char) : isBlank c = false ∧ EndsNumber (c :: more) := by
  unfold single? at h
  split at h
  case h_7 => cases h
  all_goals exact ⟨rfl, endsNumber_cons rfl (by decide) (by decide) (by decide)⟩

/-- A text in front of a bracket, a comma or a colon. -/
theorem scan_append_single {text : List Char} (h : ∀ token ∈ scan text, token.Whole) {c : Char}
    {token : Token} (hsingle : single? c = some token) (more : List Char) :
    scan (text ++ c :: more) = scan text ++ token :: scan more := by
  obtain ⟨hblank, hends⟩ := endsNumber_single hsingle more
  rw [scan_append h hends, scan_single hblank hsingle]

/-- Texts that are joined by commas, in front of a bracket. -/
theorem scan_intercalate {texts : List (List Char)}
    (h : ∀ text ∈ texts, ∀ token ∈ scan text, token.Whole) {c : Char} {token : Token}
    (hsingle : single? c = some token) (more : List Char) :
    scan ([','].intercalate texts ++ c :: more) =
      [.comma].intercalate (texts.map scan) ++ token :: scan more := by
  induction texts with
  | nil => exact scan_single (endsNumber_single hsingle more).1 hsingle more
  | cons text texts ih =>
    obtain ⟨htext, htexts⟩ := List.forall_mem_cons.mp h
    cases texts with
    | nil =>
      rw [List.intercalate_singleton, scan_append_single htext hsingle, List.map_singleton,
        List.intercalate_singleton]
    | cons next texts =>
      have hcomma : single? ',' = some .comma := rfl
      rw [List.intercalate_cons_cons, List.append_assoc, List.append_assoc, List.singleton_append,
        scan_append_single htext hcomma, ih htexts]
      simp

theorem scan_bracketed {opening closing : Char} {first last : Token}
    (hfirst : single? opening = some first) (hlast : single? closing = some last)
    (spacing : Spacing) {texts : List (List Char)}
    (h : ∀ text ∈ texts, ∀ token ∈ scan text, token.Whole) :
    scan (bracketed opening closing spacing texts) =
      first :: ([.comma].intercalate (texts.map scan) ++ [last]) := by
  rw [bracketed, scan_blanks spacing.before.property,
    scan_single (endsNumber_single hfirst []).1 hfirst, scan_blanks spacing.inside.property,
    scan_intercalate h hlast, scan_eq_nil_iff.mpr spacing.behind.property]

theorem scan_append_blanks {text : List Char} (h : ∀ token ∈ scan text, token.Whole)
    (blanks : Blanks) : scan (text ++ blanks.val) = scan text := by
  have hends : EndsNumber blanks.val := by
    intro c hc
    have hblank := blanks.property c (List.mem_of_mem_head? hc)
    unfold isBlank at hblank
    simp only [Bool.or_eq_true, beq_iff_eq] at hblank
    rcases hblank with ((rfl | rfl) | rfl) | rfl <;> simp
  rw [scan_append h hends, scan_eq_nil_iff.mpr blanks.property, List.append_nil]

theorem eq_of_single? {c d : Char} {token : Token} (hc : single? c = some token)
    (hd : single? d = some token) : c = d := by
  unfold single? at hc hd
  split at hc <;> cases hc <;> split at hd <;> first | rfl | cases hd

theorem mem_of_single? {c : Char} {token : Token} (h : single? c = some token) :
    token ∈ [openArray, closeArray, openObject, closeObject, comma, colon] := by
  unfold single? at h
  split at h <;> cases h <;> simp

/-- A text that starts with a bracket, a comma or a colon as a token starts with it as a
character. -/
theorem single?_of_scan {c d : Char} {token : Token} (hsingle : single? c = some token)
    {text : List Char} {tokens : List Token} (hblank : ¬ isBlank d = true)
    (h : scan (d :: text) = token :: tokens) : single? d = some token := by
  have hmem := mem_of_single? hsingle
  rw [scan, if_neg hblank] at h
  split at h
  · next found hfound =>
    cases h
    exact hfound
  · split at h
    · split at h
      cases h
      simp at hmem
    · split at h
      · next word found hword =>
        split at h
        · cases h
          unfold word? at hword
          split at hword <;> cases hword <;> simp at hmem
        · cases h
          simp at hmem
      · split at h <;> cases h <;> simp at hmem

/-- A text up to its first token, if that is a bracket, a comma or a colon. -/
theorem exists_single_of_scan {c : Char} {token : Token} (hsingle : single? c = some token)
    {text : List Char} {tokens : List Token} (h : scan text = token :: tokens) :
    ∃ (lead : Blanks) (rest : List Char), text = lead.val ++ c :: rest ∧ scan rest = tokens := by
  induction text with
  | nil => simp [scan] at h
  | cons d text ih =>
    by_cases hblank : isBlank d = true
    · rw [scan_blank hblank] at h
      obtain ⟨lead, rest, rfl, hrest⟩ := ih h
      exact ⟨⟨d :: lead.val, List.forall_mem_cons.mpr ⟨hblank, lead.property⟩⟩, rest, rfl, hrest⟩
    · have hd := single?_of_scan hsingle hblank h
      obtain rfl := eq_of_single? hsingle hd
      rw [scan_single (eq_false_of_ne_true hblank) hd] at h
      exact ⟨⟨[], by simp⟩, text, rfl, (List.cons.inj h).2⟩

/-- A text up to a bracket, a comma or a colon. The blanks in front of that go with the text. -/
theorem exists_piece_of_scan {piece more : List Token} (hpiece : ∀ token ∈ piece, token.Whole)
    {c : Char} {token : Token} (hsingle : single? c = some token) {text : List Char}
    (h : scan text = piece ++ token :: more) :
    ∃ first rest, text = first ++ c :: rest ∧ scan first = piece ∧ scan rest = more := by
  obtain ⟨first, second, rfl, hfirst, hsecond⟩ := exists_cut h hpiece
  obtain ⟨lead, rest, rfl, hrest⟩ := exists_single_of_scan hsingle hsecond
  refine ⟨first ++ lead.val, rest, (List.append_assoc ..).symm, ?_, hrest⟩
  rw [scan_append_blanks (hfirst ▸ hpiece), hfirst]

/-- A text of pieces with commas between them, up to a bracket. -/
theorem exists_intercalate_of_scan {c : Char} {last : Token} (hlast : single? c = some last)
    {pieces : List (List Token)} (hpieces : ∀ piece ∈ pieces, ∀ token ∈ piece, token.Whole)
    (hne : pieces ≠ []) {text : List Char}
    (h : scan text = [.comma].intercalate pieces ++ [last]) :
    ∃ (texts : List (List Char)) (behind : Blanks),
      text = [','].intercalate texts ++ c :: behind.val ∧ texts.map scan = pieces := by
  induction pieces generalizing text with
  | nil => exact absurd rfl hne
  | cons piece pieces ih =>
    obtain ⟨hpiece, hpieces⟩ := List.forall_mem_cons.mp hpieces
    cases pieces with
    | nil =>
      rw [List.intercalate_singleton] at h
      obtain ⟨first, rest, rfl, hfirst, hrest⟩ := exists_piece_of_scan hpiece hlast h
      exact ⟨[first], ⟨rest, scan_eq_nil_iff.mp hrest⟩, by simp, by simp [hfirst]⟩
    | cons next pieces =>
      have hcomma : single? ',' = some .comma := rfl
      rw [List.intercalate_cons_cons, List.append_assoc, List.append_assoc,
        List.singleton_append] at h
      obtain ⟨first, rest, rfl, hfirst, hrest⟩ := exists_piece_of_scan hpiece hcomma h
      obtain ⟨texts, behind, rfl, htexts⟩ := ih hpieces (by simp) hrest
      cases texts with
      | nil => cases htexts
      | cons second texts =>
        refine ⟨first :: second :: texts, behind, by simp, ?_⟩
        rw [List.map_cons, hfirst, htexts]

theorem exists_bracketed_of_scan {opening closing : Char} {first last : Token}
    (hfirst : single? opening = some first) (hlast : single? closing = some last)
    {pieces : List (List Token)} (hpieces : ∀ piece ∈ pieces, ∀ token ∈ piece, token.Whole)
    {text : List Char} (h : scan text = first :: ([.comma].intercalate pieces ++ [last])) :
    ∃ (spacing : Spacing) (texts : List (List Char)),
      text = bracketed opening closing spacing texts ∧ texts.map scan = pieces := by
  obtain ⟨before, rest, rfl, hrest⟩ := exists_single_of_scan hfirst h
  cases pieces with
  | nil =>
    obtain ⟨inside, rest, rfl, hbehind⟩ := exists_single_of_scan hlast hrest
    exact ⟨⟨before, inside, ⟨rest, scan_eq_nil_iff.mp hbehind⟩⟩, [], rfl, rfl⟩
  | cons piece pieces =>
    obtain ⟨texts, behind, rfl, htexts⟩ :=
      exists_intercalate_of_scan hlast hpieces (List.cons_ne_nil piece pieces) hrest
    exact ⟨⟨before, ⟨[], by simp⟩, behind⟩, texts, rfl, htexts⟩

end Token

end CollectionSchema.Json
