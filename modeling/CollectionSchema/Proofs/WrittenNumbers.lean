import CollectionSchema.Json.Token
import CollectionSchema.Proofs.Outcome
import Mathlib.Data.List.TakeWhile
import Mathlib.Data.Nat.Digits.Defs

/-!
# Numbers in written text

A number reads back if its text is one literal that stands for it (`JsonNumber.ReadsBack`).

* `scanNumeral?_append`: a literal is found the same where other text follows that cannot go on
  with it.
* `readsBack_integer`: integers of 64 bits read back.
-/

namespace CollectionSchema

namespace Json

/-- A text that no number literal can go on with. -/
def EndsNumber (text : List Char) : Prop :=
  ∀ c ∈ text.head?, c.isDigit = false ∧ c ≠ '.' ∧ c ≠ 'e' ∧ c ≠ 'E'

theorem endsNumber_cons {c : Char} {rest : List Char} (hdigit : c.isDigit = false)
    (hpoint : c ≠ '.') (hsmall : c ≠ 'e') (hlarge : c ≠ 'E') : EndsNumber (c :: rest) := by
  simp [EndsNumber, hdigit, hpoint, hsmall, hlarge]

/-! ## What a scanner takes off a text -/

/-- A scanner that gets from a text to the rest of it gets from every text that starts alike to its
rest, if that goes on with the same character or in a way that ends what is scanned. -/
def Takes (scans : List Char → List Char → Prop) (ends : List Char → Prop)
    (text rest : List Char) : Prop :=
  ∃ used, text = used ++ rest ∧
    ∀ more, more.head? = rest.head? ∨ ends more → scans (used ++ more) more

namespace Takes

variable {scans scansNext : List Char → List Char → Prop} {ends endsNext : List Char → Prop}
  {text middle rest more : List Char}

theorem scans_append (h : Takes scans ends text rest) (hmore : rest = [] → ends more) :
    scans (text ++ more) (rest ++ more) := by
  obtain ⟨used, rfl, hscans⟩ := h
  rw [List.append_assoc]
  refine hscans (rest ++ more) ?_
  cases rest with
  | nil => exact .inr (hmore rfl)
  | cons c rest => exact .inl rfl

/-- One scanner behind another. -/
theorem comp (h : Takes scans ends text middle) (hnext : Takes scansNext endsNext middle rest)
    (hends : ∀ more, endsNext more → ends more) :
    Takes (Relation.Comp scans scansNext) endsNext text rest := by
  obtain ⟨used, rfl, hscans⟩ := h
  obtain ⟨usedNext, rfl, hscansNext⟩ := hnext
  refine ⟨used ++ usedNext, (List.append_assoc ..).symm, fun more hmore => ?_⟩
  refine ⟨usedNext ++ more, ?_, hscansNext more hmore⟩
  rw [List.append_assoc]
  refine hscans (usedNext ++ more) ?_
  cases usedNext with
  | nil => exact hmore.imp_right (hends more)
  | cons c usedNext => exact .inl rfl

end Takes

namespace Numeral

/-! ### Parts of a number literal -/

/-- A text that does not go on with a digit. -/
def EndsDigits (text : List Char) : Prop := ∀ c ∈ text.head?, c.isDigit = false

/-- A text that goes on neither with a digit nor with a point. -/
def EndsFraction (text : List Char) : Prop := ∀ c ∈ text.head?, c.isDigit = false ∧ c ≠ '.'

/-- What follows a literal does not change it, if the literal reaches the end of its own text
only in front of text that ends a number. -/
def Continues (rest more : List Char) : Prop := rest = [] → EndsNumber more

variable {text digits rest : List Char}

theorem endsDigits_dropWhile (text : List Char) : EndsDigits (text.dropWhile Char.isDigit) := by
  intro c hc
  have hstop := List.head?_dropWhile_not Char.isDigit text
  rw [Option.mem_def.mp hc] at hstop
  simpa using hstop

theorem takes_digits (h : scanDigits text = .ok (digits, rest)) :
    Takes (fun text rest => scanDigits text = .ok (digits, rest)) EndsDigits text rest := by
  unfold scanDigits at h
  split at h
  · cases h
  · next hdigits =>
    cases h
    refine ⟨_, List.takeWhile_append_dropWhile.symm, fun more hmore => ?_⟩
    have hends : EndsDigits more := by
      refine hmore.elim (fun hhead c hc => ?_) id
      exact endsDigits_dropWhile text c (hhead ▸ hc)
    have hstop : more.takeWhile Char.isDigit = [] ∧ more.dropWhile Char.isDigit = more := by
      cases more with
      | nil => exact ⟨rfl, rfl⟩
      | cons c more => simp [hends c rfl]
    have hall : ∀ c ∈ text.takeWhile Char.isDigit, c.isDigit = true :=
      fun c hc => List.mem_takeWhile_imp hc
    show scanDigits (text.takeWhile Char.isDigit ++ more) = _
    rw [scanDigits, List.takeWhile_append_of_pos hall, List.dropWhile_append_of_pos hall, hstop.1,
      hstop.2, List.append_nil, if_neg hdigits]

theorem takes_whole (h : scanWhole text = .ok (digits, rest)) :
    Takes (fun text rest => scanWhole text = .ok (digits, rest)) EndsDigits text rest := by
  have hzero : ∀ {more}, EndsDigits more → scanWhole ('0' :: more) = .ok (['0'], more) := by
    intro more hmore
    cases more with
    | nil => rfl
    | cons c more => simp [scanWhole, hmore c rfl]
  have hother : ∀ {c more}, c ≠ '0' → scanWhole (c :: more) = scanDigits (c :: more) := by
    intro c more hc
    rw [scanWhole] <;> simp [hc]
  cases text with
  | nil => cases h
  | cons c tail =>
    by_cases hc : c = '0'
    · subst hc
      have htail : EndsDigits tail := by
        cases tail with
        | nil => simp [EndsDigits]
        | cons d tail =>
          rw [scanWhole] at h
          split at h
          · cases h
          · next hdigit => simpa [EndsDigits] using hdigit
      rw [hzero htail] at h
      cases h
      refine ⟨['0'], rfl, fun more hmore => hzero (hmore.elim (fun hhead => ?_) id)⟩
      show EndsDigits more
      rwa [EndsDigits, hhead]
    · rw [hother hc] at h
      obtain ⟨used, htext, hscans⟩ := takes_digits h
      refine ⟨used, htext, fun more hmore => ?_⟩
      have hscan := hscans more hmore
      cases used with
      | nil =>
        have hlt := length_scanDigits_lt hscan
        exact absurd hlt (Nat.lt_irrefl _)
      | cons d used =>
        obtain ⟨rfl, -⟩ := List.cons.inj htext
        exact (hother hc).trans hscan

theorem takes_fraction (h : scanFraction text = .ok (digits, rest)) :
    Takes (fun text rest => scanFraction text = .ok (digits, rest)) EndsFraction text rest := by
  have hother : ∀ {more : List Char}, (∀ c ∈ more.head?, c ≠ '.') →
      scanFraction more = .ok ([], more) := by
    intro more hmore
    cases more with
    | nil => rfl
    | cons c more => simp [scanFraction, hmore c rfl]
  by_cases hpoint : ∃ tail, text = '.' :: tail
  · obtain ⟨tail, rfl⟩ := hpoint
    obtain ⟨used, rfl, hscans⟩ := takes_digits h
    refine ⟨'.' :: used, rfl, fun more hmore => ?_⟩
    exact hscans more (hmore.imp_right fun hends c hc => (hends c hc).1)
  · have htext : ∀ c ∈ text.head?, c ≠ '.' := by
      rintro c hc rfl
      obtain ⟨tail, rfl⟩ := List.head?_eq_some_iff.mp hc
      exact hpoint ⟨tail, rfl⟩
    rw [hother htext] at h
    cases h
    refine ⟨[], rfl, fun more hmore => hother ?_⟩
    show ∀ c ∈ more.head?, c ≠ '.'
    rcases hmore with hhead | hends
    · rwa [hhead]
    · exact fun c hc => (hends c hc).2

/-- A sign that is not written is known by what stands in its place. -/
theorem exists_sign (text : List Char) : ∃ sign, text = sign ++ (scanSign text).2 ∧
    ∀ more : List Char, more.head? = (scanSign text).2.head? →
      scanSign (sign ++ more) = ((scanSign text).1, more) := by
  unfold scanSign
  split
  · exact ⟨['+'], rfl, fun more _ => rfl⟩
  · exact ⟨['-'], rfl, fun more _ => rfl⟩
  · next hplus hminus =>
    refine ⟨[], rfl, fun more hhead => ?_⟩
    cases more with
    | nil => rfl
    | cons c more =>
      obtain ⟨tail, rfl⟩ := List.head?_eq_some_iff.mp hhead.symm
      have hc : c ≠ '+' ∧ c ≠ '-' :=
        ⟨fun heq => hplus tail (heq ▸ rfl), fun heq => hminus tail (heq ▸ rfl)⟩
      simp [hc]

theorem takes_exponent {exponent : Option Exponent} (h : scanExponent text = .ok (exponent, rest)) :
    Takes (fun text rest => scanExponent text = .ok (exponent, rest)) EndsNumber text rest := by
  have hother : ∀ {more : List Char}, (∀ c ∈ more.head?, c ≠ 'e' ∧ c ≠ 'E') →
      scanExponent more = .ok (none, more) := by
    intro more hmore
    cases more with
    | nil => rfl
    | cons c more => simp [scanExponent, hmore c rfl]
  by_cases hletter : ∃ c tail, text = c :: tail ∧ (c = 'e' ∨ c = 'E')
  · obtain ⟨c, tail, rfl, hc⟩ := hletter
    rw [scanExponent, if_pos hc] at h
    obtain ⟨⟨digits, rest'⟩, hdigits, hresult⟩ := Outcome.bind_eq_ok_iff.mp h
    cases hresult
    obtain ⟨sign, hsign, hscansSign⟩ := exists_sign tail
    obtain ⟨used, hused, hscans⟩ := takes_digits hdigits
    have htail : tail = sign ++ used ++ rest := by rw [List.append_assoc, ← hused, ← hsign]
    refine ⟨c :: (sign ++ used), congrArg (c :: ·) htail, fun more hmore => ?_⟩
    have hscan := hscans more (hmore.imp_right fun hends c hc => (hends c hc).1)
    have hhead : (used ++ more).head? = (scanSign tail).2.head? := by
      cases used with
      | nil => exact absurd (length_scanDigits_lt hscan) (Nat.lt_irrefl _)
      | cons d used => rw [hused]; rfl
    have hsigned : scanSign (sign ++ used ++ more) = ((scanSign tail).1, used ++ more) := by
      rw [List.append_assoc]
      exact hscansSign _ hhead
    show scanExponent (c :: (sign ++ used ++ more)) = _
    rw [scanExponent, if_pos hc, hsigned, hscan]
    rfl
  · have htext : ∀ c ∈ text.head?, c ≠ 'e' ∧ c ≠ 'E' := by
      rintro c hc
      obtain ⟨tail, rfl⟩ := List.head?_eq_some_iff.mp hc
      exact not_or.mp fun hletter' => hletter ⟨c, tail, rfl, hletter'⟩
    rw [hother htext] at h
    cases h
    refine ⟨[], rfl, fun more hmore => hother ?_⟩
    show ∀ c ∈ more.head?, c ≠ 'e' ∧ c ≠ 'E'
    rcases hmore with hhead | hends
    · rwa [hhead]
    · exact fun c hc => (hends c hc).2.2

theorem takes_scan {negative : Bool} {n : Numeral} (h : scan negative text = .ok (n, rest)) :
    Takes (fun text rest => scan negative text = .ok (n, rest)) EndsNumber text rest := by
  obtain ⟨⟨whole, afterWhole⟩, hwhole, h⟩ := Outcome.bind_eq_ok_iff.mp h
  obtain ⟨⟨fraction, afterFraction⟩, hfraction, h⟩ := Outcome.bind_eq_ok_iff.mp h
  obtain ⟨⟨exponent, afterExponent⟩, hexponent, h⟩ := Outcome.bind_eq_ok_iff.mp h
  cases h
  have hparts := ((takes_whole hwhole).comp (takes_fraction hfraction)
    fun more hends c hc => (hends c hc).1).comp (takes_exponent hexponent)
    fun more hends c hc => ⟨(hends c hc).1, (hends c hc).2.1⟩
  obtain ⟨used, htext, hscans⟩ := hparts
  refine ⟨used, htext, fun more hmore => ?_⟩
  obtain ⟨afterFraction', ⟨afterWhole', hwhole', hfraction'⟩, hexponent'⟩ := hscans more hmore
  show scan negative (used ++ more) = _
  rw [scan, hwhole']
  simp only [Outcome.ok_bind]
  rw [hfraction']
  simp only [Outcome.ok_bind]
  rw [hexponent']
  rfl

/-! ## Integers -/

theorem integer_range_of_integer? {n : Numeral} {value : Int} (h : n.integer? = some value) :
    minSigned ≤ value ∧ value ≤ maxUnsigned := by
  have hsigned : minSigned ≤ 0 := by decide
  simp only [integer?] at h
  split at h
  · cases h
  · split at h <;> split at h
    · next hvalue =>
      cases h
      omega
    · cases h
    · next hvalue =>
      cases h
      omega
    · cases h

/-- The integers that numerals stand for fit 64 bits. -/
theorem integer_range_of_number? {n : Numeral} {value : Int}
    (h : n.number? = some (.integer value)) : minSigned ≤ value ∧ value ≤ maxUnsigned := by
  rw [number?] at h
  cases hinteger : n.integer? with
  | none => simp [hinteger] at h
  | some found =>
    obtain rfl : found = value := by simpa [hinteger] using h
    exact integer_range_of_integer? hinteger

end Numeral

theorem takes_numeral {c : Char} {text rest : List Char} {n : Numeral}
    (h : Token.scanNumeral? c text = some (.ok (n, rest))) :
    Takes (fun text rest => Token.scanNumeral? c text = some (.ok (n, rest))) EndsNumber text
      rest := by
  unfold Token.scanNumeral? at h
  split at h
  · next hminus =>
    obtain ⟨used, htext, hscans⟩ := Numeral.takes_scan (Option.some.inj h)
    refine ⟨used, htext, fun more hmore => ?_⟩
    show Token.scanNumeral? c (used ++ more) = _
    rw [Token.scanNumeral?, if_pos hminus, hscans more hmore]
  · next hminus =>
    split at h
    · next hdigit =>
      obtain ⟨used, hdigits, hscans⟩ := Numeral.takes_scan (Option.some.inj h)
      cases used with
      | nil => exact absurd (Numeral.length_scan_lt (hscans rest (.inl rfl))) (Nat.lt_irrefl _)
      | cons d used =>
        obtain ⟨rfl, htext⟩ := List.cons.inj hdigits
        refine ⟨used, htext, fun more hmore => ?_⟩
        show Token.scanNumeral? c (used ++ more) = _
        rw [Token.scanNumeral?, if_neg hminus, if_pos hdigit, ← List.cons_append,
          hscans more hmore]
    · cases h

theorem scanNumeral?_append {c : Char} {text rest more : List Char} {n : Numeral}
    (h : Token.scanNumeral? c text = some (.ok (n, rest))) (hmore : Numeral.Continues rest more) :
    Token.scanNumeral? c (text ++ more) = some (.ok (n, rest ++ more)) :=
  (takes_numeral h).scans_append hmore

end Json

/-! ## Numbers that read back -/

namespace JsonNumber

/-- The number literal that a text is, if it is one and nothing else. -/
def numeral? : List Char → Option Json.Numeral
  | [] => none
  | c :: rest =>
    match Json.Token.scanNumeral? c rest with
    | some (.ok (n, [])) => some n
    | _ => none

/-- The number that a text stands for. -/
def ofText? (text : List Char) : Option JsonNumber := (numeral? text).bind (·.number?)

/-- The text of a number stands for the number. -/
def ReadsBack (x : JsonNumber) : Prop := ofText? x.text = some x

/-- The literal that a number is written as. -/
def numeral (x : JsonNumber) : Json.Numeral := (numeral? x.text).getD ⟨false, [], [], none⟩

theorem numeral?_eq_some {text : List Char} {n : Json.Numeral} (h : numeral? text = some n) :
    ∃ c rest, text = c :: rest ∧ Json.Token.scanNumeral? c rest = some (.ok (n, [])) := by
  unfold numeral? at h
  split at h
  · cases h
  · next c rest =>
    refine ⟨c, rest, rfl, ?_⟩
    split at h
    · next hscan =>
      cases h
      exact hscan
    · cases h

namespace ReadsBack

variable {x : JsonNumber}

theorem numeral?_text (h : x.ReadsBack) : numeral? x.text = some x.numeral := by
  obtain ⟨n, hn, -⟩ := Option.bind_eq_some_iff.mp h
  rw [numeral, hn, Option.getD_some]

theorem number?_numeral (h : x.ReadsBack) : x.numeral.number? = some x := by
  obtain ⟨n, hn, hnumber⟩ := Option.bind_eq_some_iff.mp h
  rwa [numeral, hn, Option.getD_some]

end ReadsBack

end JsonNumber

namespace Json

/-! ## Integers -/

theorem natValue_natText (n : Nat) : Numeral.natValue (natText n) = n := by
  have hfold : Numeral.natValue (natText n) = Nat.ofDigitChars 10 (natText n) 0 := by
    simp only [Numeral.natValue, Nat.ofDigitChars, Numeral.digitValue, Nat.mul_comm 10]
  rw [hfold]
  exact Nat.ofDigitChars_toDigits (by decide) (by decide)

theorem isDigit_of_mem_natText {n : Nat} {c : Char} (h : c ∈ natText n) : c.isDigit = true :=
  Nat.isDigit_of_mem_toDigits (by decide) (by decide) h

/-- The first digit of a positive number is not a zero. -/
theorem natText_eq_cons {n : Nat} (hn : n ≠ 0) : ∃ c rest, natText n = c :: rest ∧ c ≠ '0' := by
  induction n using Nat.strongRecOn with
  | ind n ih =>
    by_cases hsmall : n < 10
    · have hdigit : ∀ n < 10, n ≠ 0 → n.digitChar ≠ '0' := by decide
      exact ⟨n.digitChar, [], Nat.toDigits_of_lt_base hsmall, hdigit n hsmall hn⟩
    · obtain ⟨c, rest, htext, hc⟩ := ih (n / 10) (by omega) (by omega)
      have hsplit : natText n = natText (n / 10) ++ [(n % 10).digitChar] :=
        Nat.toDigits_of_base_le (by decide) (by omega)
      exact ⟨c, rest ++ [(n % 10).digitChar], by rw [hsplit, htext, List.cons_append], hc⟩

theorem scanWhole_natText (n : Nat) : Numeral.scanWhole (natText n) = .ok (natText n, []) := by
  by_cases hn : n = 0
  · subst hn
    rfl
  · obtain ⟨c, rest, htext, hc⟩ := natText_eq_cons hn
    have hdigits : ∀ d ∈ c :: rest, d.isDigit = true := fun d hd =>
      isDigit_of_mem_natText (htext ▸ hd)
    have htake : (c :: rest).takeWhile Char.isDigit = c :: rest :=
      List.takeWhile_eq_self_iff.mpr hdigits
    have hdrop : (c :: rest).dropWhile Char.isDigit = [] :=
      List.dropWhile_eq_nil_iff.mpr hdigits
    rw [htext, Numeral.scanWhole]
    · rw [Numeral.scanDigits, htake, hdrop]
      rfl
    · simp [hc]
    · simp [hc]

theorem scan_natText (negative : Bool) (n : Nat) :
    Numeral.scan negative (natText n) = .ok (⟨negative, natText n, [], none⟩, []) := by
  rw [Numeral.scan, scanWhole_natText]
  rfl

/-- **Integers of 64 bits read back.** -/
theorem readsBack_integer {value : Int} (hleast : Numeral.minSigned ≤ value)
    (hlargest : value ≤ Numeral.maxUnsigned) : (JsonNumber.integer value).ReadsBack := by
  unfold JsonNumber.ReadsBack JsonNumber.ofText?
  by_cases hnegative : value < 0
  · have htext : (JsonNumber.integer value).text = '-' :: natText value.natAbs := by
      simp [JsonNumber.text, intText, hnegative]
    have habs : -(value.natAbs : Int) = value := by omega
    have hvalue : value.natAbs ≠ 0 ∧ Numeral.minSigned ≤ -(value.natAbs : Int) := by omega
    have hnumeral : JsonNumber.numeral? ('-' :: natText value.natAbs) =
        some ⟨true, natText value.natAbs, [], none⟩ := by
      simp [JsonNumber.numeral?, Token.scanNumeral?, scan_natText]
    have hinteger : (⟨true, natText value.natAbs, [], none⟩ : Numeral).integer? = some value := by
      simp only [Numeral.integer?, Numeral.isWhole, natValue_natText, List.isEmpty_nil,
        Option.isNone_none, Bool.and_self, Bool.not_true, Bool.false_eq_true, if_false, if_true]
      rw [if_pos hvalue, habs]
    rw [htext, hnumeral, Option.bind_some, Numeral.number?, hinteger]
  · have htext : (JsonNumber.integer value).text = natText value.natAbs := by
      simp [JsonNumber.text, intText, hnegative]
    have habs : (value.natAbs : Int) = value := by omega
    have hvalue : value.natAbs ≤ Numeral.maxUnsigned := by omega
    have hnumeral : JsonNumber.numeral? (natText value.natAbs) =
        some ⟨false, natText value.natAbs, [], none⟩ := by
      cases hdigits : natText value.natAbs with
      | nil => exact absurd hdigits Nat.toDigits_ne_nil
      | cons c rest =>
        have hc : c.isDigit = true := isDigit_of_mem_natText (hdigits ▸ List.mem_cons_self)
        have hminus : c ≠ '-' := by
          rintro rfl
          cases hc
        have hscan := scan_natText false value.natAbs
        rw [hdigits] at hscan
        simp [JsonNumber.numeral?, Token.scanNumeral?, hminus, hc, hscan]
    have hinteger : (⟨false, natText value.natAbs, [], none⟩ : Numeral).integer? = some value := by
      simp only [Numeral.integer?, Numeral.isWhole, natValue_natText, List.isEmpty_nil,
        Option.isNone_none, Bool.and_self, Bool.not_true, Bool.false_eq_true, if_false]
      rw [if_pos hvalue, habs]
    rw [htext, hnumeral, Option.bind_some, Numeral.number?, hinteger]

end Json

end CollectionSchema
