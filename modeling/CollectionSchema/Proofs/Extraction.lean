import CollectionSchema.Proofs.Outcome
import CollectionSchema.Schema.Registry

/-!
# What annotations state

The constraint of an annotation is read from its arguments. Each kind is accepted exactly if its
arguments have the right form and its bounds are in order (`fixedLength_eq_ok_iff`,
`pattern_eq_ok_iff`, `lengthBounds_eq_ok_iff`, `numericBounds_eq_ok_iff`). The keywords of an
accepted constraint are those that the arguments spell out
(`states_of_constraint_eq_ok`, `States.unique`). A property states at
most one constraint, by one annotation (`Property.keywords?_eq_ok`).
-/

namespace CollectionSchema

theorem Json.ofNat_inj {m n : Nat} : Json.ofNat m = Json.ofNat n ↔ m = n := by
  simp only [ofNat, number.injEq, JsonNumber.integer.injEq]
  omega

namespace Constraint

/-- The upper bound is not below the lower one; numbers are compared as binary64 numbers. -/
def Ordered : Constraint → Prop
  | fixedLength _ | pattern _ => True
  | lengthBounds min max => ∀ bound, max = some bound → min ≤ bound
  | numericBounds min max => ∀ low high, min = some low → max = some high →
      Annotation.below high low = false

theorem ordered_lengthBounds_iff {min bound : Nat} :
    (lengthBounds min (some bound)).Ordered ↔ ¬ bound < min := by
  simp [Ordered]

theorem ordered_numericBounds_iff {low high : JsonNumber} :
    (numericBounds (some low) (some high)).Ordered ↔ ¬ Annotation.below high low = true := by
  simp [Ordered]

end Constraint

namespace Annotation

variable {a : Annotation} {c : Constraint}

/-! ## Arguments -/

theorem natural?_eq_some_iff {value : Json} {n : Nat} :
    natural? value = some n ↔ value = .ofNat n := by
  unfold natural?
  split
  · next m =>
    by_cases hm : 0 ≤ m
    · simp only [hm, if_true, Option.some.injEq, Json.ofNat, Json.number.injEq,
        JsonNumber.integer.injEq]
      omega
    · simp only [hm, if_false, reduceCtorEq, Json.ofNat, Json.number.injEq,
        JsonNumber.integer.injEq, false_iff]
      omega
  · next hother =>
    constructor
    · intro h
      cases h
    · intro h
      exact absurd h (hother n)

/-- A natural argument is accepted exactly if it is absent or a natural. -/
theorem naturalArg_eq_ok_iff {name : String} {bound : Option Nat} :
    a.naturalArg name = .ok bound ↔ a.arg? name = bound.map .ofNat := by
  unfold naturalArg
  cases a.arg? name with
  | none => cases bound <;> simp
  | some value =>
    cases bound with
    | none => cases hvalue : natural? value <;> simp [hvalue]
    | some n =>
      rw [Option.map_some, Option.some.injEq, ← natural?_eq_some_iff]
      cases hvalue : natural? value <;> simp [hvalue]

theorem numberArg_eq_ok_iff {name : String} {bound : Option JsonNumber} :
    a.numberArg name = .ok bound ↔ a.arg? name = bound.map .number := by
  unfold numberArg
  cases a.arg? name with
  | none => cases bound <;> simp
  | some value => cases value <;> cases bound <;> simp

/-! ## Kinds of constraints -/

theorem fixedLength_eq_ok_iff :
    a.fixedLength = .ok c ↔ ∃ length, a.arg? "len" = some (.ofNat length) ∧ 0 < length ∧
      length ≤ maxFixedLength ∧ c = .fixedLength length := by
  unfold fixedLength
  cases a.arg? "len" with
  | none => simp
  | some value =>
    simp only [Option.some.injEq, ← natural?_eq_some_iff]
    cases hvalue : natural? value with
    | none => simp
    | some n =>
      by_cases hn : 0 < n ∧ n ≤ maxFixedLength
      · simp [hn, eq_comm]
      · simp only [hn, if_false, reduceCtorEq, Option.some.injEq, false_iff]
        rintro ⟨m, rfl, hpos, hle, -⟩
        exact hn ⟨hpos, hle⟩

theorem pattern_eq_ok_iff :
    a.pattern = .ok c ↔ ∃ text, a.arg? "pattern" = some (.string text) ∧ text ≠ "" ∧
      c = .pattern text := by
  unfold pattern
  cases a.arg? "pattern" with
  | none => simp
  | some value =>
    cases value with
    | string text =>
      by_cases htext : text = ""
      · simp [htext]
      · simp [htext, @eq_comm _ c]
    | _ => simp

theorem lengthBounds_eq_ok_iff :
    a.lengthBounds = .ok c ↔ ∃ min max, a.arg? "min" = Option.map .ofNat min ∧
      a.arg? "max" = Option.map .ofNat max ∧
      (Constraint.lengthBounds (min.getD 0) max).Ordered ∧ c = .lengthBounds (min.getD 0) max := by
  simp only [lengthBounds, Outcome.bind_eq_ok_iff, naturalArg_eq_ok_iff]
  refine exists_congr fun min => ?_
  rw [← exists_and_left]
  refine exists_congr fun max => and_congr_right fun _ => and_congr_right fun _ => ?_
  cases max with
  | none => simp [Outcome.pure_eq_ok_iff, Constraint.Ordered, @eq_comm _ c]
  | some bound =>
    rw [Constraint.ordered_lengthBounds_iff]
    by_cases hbound : bound < min.getD 0
    · simp [hbound]
    · simp [hbound, Outcome.pure_eq_ok_iff, @eq_comm _ c]

theorem numericBounds_eq_ok_iff :
    a.numericBounds = .ok c ↔ ∃ min max, a.arg? "min" = Option.map .number min ∧
      a.arg? "max" = Option.map .number max ∧
      (Constraint.numericBounds min max).Ordered ∧ c = .numericBounds min max := by
  simp only [numericBounds, Outcome.bind_eq_ok_iff, numberArg_eq_ok_iff]
  refine exists_congr fun min => ?_
  rw [← exists_and_left]
  refine exists_congr fun max => and_congr_right fun _ => and_congr_right fun _ => ?_
  cases min with
  | none => simp [Outcome.pure_eq_ok_iff, Constraint.Ordered, @eq_comm _ c]
  | some low =>
    cases max with
    | none => simp [Outcome.pure_eq_ok_iff, Constraint.Ordered, @eq_comm _ c]
    | some high =>
      rw [Constraint.ordered_numericBounds_iff]
      by_cases hbelow : below high low = true
      · simp [hbelow]
      · simp [hbelow, Outcome.pure_eq_ok_iff, @eq_comm _ c]

theorem constraint_eq_ok_iff :
    a.constraint = .ok c ↔ (a.kind? = some .fixedLength ∧ a.fixedLength = .ok c) ∨
      (a.kind? = some .pattern ∧ a.pattern = .ok c) ∨
      (a.kind? = some .lengthBounds ∧ a.lengthBounds = .ok c) ∨
      (a.kind? = some .numericBounds ∧ a.numericBounds = .ok c) := by
  unfold constraint
  cases a.kind? with
  | none => simp
  | some kind => cases kind <;> simp

/-- **The bounds that an annotation states are in order.** -/
theorem ordered_of_constraint_eq_ok (h : a.constraint = .ok c) : c.Ordered := by
  rcases constraint_eq_ok_iff.mp h with ⟨-, h⟩ | ⟨-, h⟩ | ⟨-, h⟩ | ⟨-, h⟩
  · obtain ⟨length, -, -, -, rfl⟩ := fixedLength_eq_ok_iff.mp h
    trivial
  · obtain ⟨text, -, -, rfl⟩ := pattern_eq_ok_iff.mp h
    trivial
  · obtain ⟨min, max, -, -, hordered, rfl⟩ := lengthBounds_eq_ok_iff.mp h
    exact hordered
  · obtain ⟨min, max, -, -, hordered, rfl⟩ := numericBounds_eq_ok_iff.mp h
    exact hordered

/-! ## Keywords -/

/-- The keywords that the arguments of an annotation spell out. -/
inductive States (a : Annotation) : Keywords → Prop
  | fixedLength {length : Nat} :
      a.kind? = some .fixedLength → a.arg? "len" = some (.ofNat length) →
        a.States { pattern := some ("^\\d\x7b" ++ toString length ++ "\x7d$") }
  | pattern {text : String} :
      a.kind? = some .pattern → a.arg? "pattern" = some (.string text) →
        a.States { pattern := some text }
  | lengthBounds {min max : Option Nat} :
      a.kind? = some .lengthBounds → a.arg? "min" = min.map .ofNat →
        a.arg? "max" = max.map .ofNat →
          a.States { minLength := some (min.getD 0), maxLength := max }
  | numericBounds {min max : Option JsonNumber} :
      a.kind? = some .numericBounds → a.arg? "min" = min.map .number →
        a.arg? "max" = max.map .number → a.States { minimum := min, maximum := max }

theorem States.unique {k k' : Keywords} (h : a.States k) (h' : a.States k') : k = k' := by
  cases h with
  | fixedLength hkind hlength =>
    cases h' with
    | fixedLength _ hlength' =>
      rw [hlength] at hlength'
      rw [Json.ofNat_inj.mp (Option.some.inj hlength')]
    | pattern hkind' _ | lengthBounds hkind' _ _ | numericBounds hkind' _ _ =>
      rw [hkind] at hkind'
      cases hkind'
  | pattern hkind htext =>
    cases h' with
    | pattern _ htext' =>
      rw [htext] at htext'
      cases htext'
      rfl
    | fixedLength hkind' _ | lengthBounds hkind' _ _ | numericBounds hkind' _ _ =>
      rw [hkind] at hkind'
      cases hkind'
  | lengthBounds hkind hmin hmax =>
    cases h' with
    | lengthBounds _ hmin' hmax' =>
      have hinj : Function.Injective Json.ofNat := fun _ _ => Json.ofNat_inj.mp
      rw [Option.map_injective hinj (hmin.symm.trans hmin'),
        Option.map_injective hinj (hmax.symm.trans hmax')]
    | fixedLength hkind' _ | pattern hkind' _ | numericBounds hkind' _ _ =>
      rw [hkind] at hkind'
      cases hkind'
  | numericBounds hkind hmin hmax =>
    cases h' with
    | numericBounds _ hmin' hmax' =>
      have hinj : Function.Injective Json.number := fun _ _ => Json.number.inj
      rw [Option.map_injective hinj (hmin.symm.trans hmin'),
        Option.map_injective hinj (hmax.symm.trans hmax')]
    | fixedLength hkind' _ | pattern hkind' _ | lengthBounds hkind' _ _ =>
      rw [hkind] at hkind'
      cases hkind'

/-- **A constraint stands for the keywords that the arguments spell out.** -/
theorem states_of_constraint_eq_ok (h : a.constraint = .ok c) : a.States (.ofConstraint c) := by
  rcases constraint_eq_ok_iff.mp h with ⟨hkind, h⟩ | ⟨hkind, h⟩ | ⟨hkind, h⟩ | ⟨hkind, h⟩
  · obtain ⟨length, hlength, -, -, rfl⟩ := fixedLength_eq_ok_iff.mp h
    exact .fixedLength hkind hlength
  · obtain ⟨text, htext, -, rfl⟩ := pattern_eq_ok_iff.mp h
    exact .pattern hkind htext
  · obtain ⟨min, max, hmin, hmax, -, rfl⟩ := lengthBounds_eq_ok_iff.mp h
    exact .lengthBounds hkind hmin hmax
  · obtain ⟨min, max, hmin, hmax, -, rfl⟩ := numericBounds_eq_ok_iff.mp h
    exact .numericBounds hkind hmin hmax

/-! ## The annotations of a property -/

theorem States.constraintKind?_ne_none {k : Keywords} (h : a.States k) :
    a.constraintKind? ≠ none := by
  cases h with
  | fixedLength hkind _ | pattern hkind _ | lengthBounds hkind _ _ | numericBounds hkind _ _ =>
    simp [constraintKind?, hkind, AnnotationKind.isConstraint]

theorem collect_some_eq_ok {key : FieldKey} {found : AnnotationKind × Keywords}
    {annotations : List Annotation} {result : Option (AnnotationKind × Keywords)}
    (h : collect key (some found) annotations = .ok result) :
    result = some found ∧ ∀ a ∈ annotations, a.constraintKind? = none := by
  induction annotations with
  | nil =>
    cases h
    simp
  | cons a rest ih =>
    cases hkind : a.constraintKind? with
    | none =>
      simp only [collect, hkind] at h
      obtain ⟨rfl, hrest⟩ := ih h
      simpa [hkind] using hrest
    | some kind => simp [collect, hkind] at h

/-- **A field states at most one constraint, by one annotation.** -/
theorem collect_eq_ok {key : FieldKey} {annotations : List Annotation}
    {result : Option (AnnotationKind × Keywords)}
    (h : collect key none annotations = .ok result) :
    (result.map (·.2) = none ∧ ∀ a ∈ annotations, a.constraintKind? = none) ∨
      ∃ a ∈ annotations, ∃ c, a.constraint = .ok c ∧
        result.map (·.2) = some (.ofConstraint c) ∧
        ∀ b ∈ annotations, b.constraintKind? ≠ none → b = a := by
  induction annotations with
  | nil =>
    cases h
    simp
  | cons a rest ih =>
    cases hkind : a.constraintKind? with
    | none =>
      simp only [collect, hkind] at h
      rcases ih h with ⟨hnone, hrest⟩ | ⟨b, hb, c, hc, hresult, honly⟩
      · exact Or.inl ⟨hnone, by simpa [hkind] using hrest⟩
      · refine Or.inr ⟨b, List.mem_cons_of_mem _ hb, c, hc, hresult, fun d hd hne => ?_⟩
        rcases List.mem_cons.mp hd with rfl | hd
        · exact absurd hkind hne
        · exact honly d hd hne
    | some kind =>
      cases hc : a.constraint with
      | error cause => simp [collect, hkind, hc] at h
      | ok c =>
        simp only [collect, hkind, hc] at h
        obtain ⟨rfl, hrest⟩ := collect_some_eq_ok h
        refine Or.inr ⟨a, List.mem_cons_self, c, hc, rfl, fun d hd hne => ?_⟩
        rcases List.mem_cons.mp hd with rfl | hd
        · rfl
        · exact absurd (hrest d hd) hne

end Annotation

namespace Property

/-- What a field states, by its only annotation of a constraining kind. -/
theorem keywords?_eq_ok {record : String} {p : Property} {stated : Option Keywords}
    (h : p.keywords? record = .ok stated) :
    (stated = none ∧ ∀ a ∈ p.annotations, a.constraintKind? = none) ∨
      ∃ a ∈ p.annotations, ∃ c, a.constraint = .ok c ∧ stated = some (.ofConstraint c) ∧
        ∀ b ∈ p.annotations, b.constraintKind? ≠ none → b = a := by
  simp only [keywords?, Outcome.bind_eq_ok_iff, Outcome.pure_eq_ok_iff] at h
  obtain ⟨result, hresult, rfl⟩ := h
  exact Annotation.collect_eq_ok hresult

end Property

end CollectionSchema
