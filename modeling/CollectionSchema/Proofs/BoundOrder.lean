import CollectionSchema.Json.Numeral
import CollectionSchema.Proofs.NodeShape
import CollectionSchema.Proofs.RegistryContents
import CollectionSchema.Proofs.Rounding

/-!
# Which bounds are in order

Numeric bounds are compared as binary64 numbers, so integers are rounded to 53 significant bits
first. Bounds in order are never refused, but neither are bounds the wrong way round that round
alike.

* `Annotation.below_integer_iff`, `Annotation.constraint_of_bounds`: what becomes of integer bounds.
* `Graph.exists_compile_gauges`: bounds that are not refused reach a schema.
* `Graph.bounds_in_order_or_alike`: which bounds are accepted, and which occur in compiled schemas.
* `Graph.inverted_bounds_accepted`: bounds the wrong way round, one apart, in a compiled schema.
-/

namespace CollectionSchema

open Binary64 (nearest)

/-- An integer of 64 bits, with a sign or without one. -/
def Json.Numeral.Fits (v : Int) : Prop := minSigned ≤ v ∧ v ≤ maxUnsigned

instance : DecidablePred Json.Numeral.Fits := fun v =>
  inferInstanceAs (Decidable (Json.Numeral.minSigned ≤ v ∧ v ≤ Json.Numeral.maxUnsigned))

theorem Json.Numeral.Fits.natAbs_lt {v : Int} (h : Fits v) : v.natAbs < 2 ^ 64 := by
  simp only [Fits, minSigned, maxUnsigned] at h
  omega

open Json.Numeral (Fits)

variable {low high : Int}

/-! ## Bounds of an annotation -/

namespace Annotation

variable {a : Annotation}

/-- **Integers are compared by their 53 significant bits.** -/
theorem below_integer_iff (hlow : Fits low) (hhigh : Fits high) :
    below (.integer high) (.integer low) = true ↔ nearest high < nearest low := by
  have hone : (0 : Int) < Binary64.one := Int.natCast_pos.mpr Binary64.one_pos
  rw [below, Binary64.lt, decide_eq_true_iff, Binary64.signedUnits_toBinary64 hlow.natAbs_lt,
    Binary64.signedUnits_toBinary64 hhigh.natAbs_lt]
  exact Int.mul_lt_mul_right hone

/-- Bounds are accepted if they are in order, or if rounding puts them in order. -/
theorem below_integer_eq_false_iff (hlow : Fits low) (hhigh : Fits high) :
    below (.integer high) (.integer low) = false ↔
      low ≤ high ∨ nearest low = nearest high := by
  rw [← Bool.not_eq_true, below_integer_iff hlow hhigh, not_lt]
  constructor
  · intro h
    rcases le_or_gt low high with hle | hlt
    · exact .inl hle
    · exact .inr (h.antisymm (Binary64.nearest_mono hlt.le))
  · rintro (hle | heq)
    · exact Binary64.nearest_mono hle
    · exact heq.le

/-- The annotation states numeric bounds, and both are integers. -/
structure Bounds (a : Annotation) (low high : Int) : Prop where
  named : a.IsNamed .numericBounds
  min : a.arg? "min" = some (.number (.integer low))
  max : a.arg? "max" = some (.number (.integer high))

/-- What becomes of integer bounds: the constraint that they spell out, or the error that names
both. -/
theorem constraint_of_bounds (h : a.Bounds low high) :
    a.constraint = if below (.integer high) (.integer low)
      then .error (.invalid "max" (.inverted (.integer high) (.integer low)))
      else .ok (.numericBounds (some (.integer low)) (some (.integer high))) := by
  rw [constraint, kind?_eq_some_iff.mpr h.named]
  simp only [numericBounds, numberArg, h.min, h.max, bind, Except.bind, pure, Except.pure]

/-- The annotation that states the bounds `low` and `high`. -/
def limits (low high : Int) : Annotation :=
  ⟨"NumericBounds", [("max", .number (.integer high)), ("min", .number (.integer low))]⟩

theorem bounds_limits (low high : Int) : (limits low high).Bounds low high := ⟨.inl rfl, rfl, rfl⟩

theorem constraint_limits (h : below (.integer high) (.integer low) = false) :
    (limits low high).constraint =
      .ok (.numericBounds (some (.integer low)) (some (.integer high))) := by
  rw [constraint_of_bounds (bounds_limits low high), h]
  rfl

end Annotation

open Annotation (below below_integer_eq_false_iff constraint_of_bounds limits bounds_limits
  constraint_limits)

namespace Graph

/-! ## Bounds in a schema -/

/-- A gauge whose level has the bounds `low` and `high`. -/
def gauge (low high : Int) : Record where
  name := "Gauge"
  root := some ⟨some "gauges"⟩
  properties := [⟨"level", .primitive .long, false, [.limits low high]⟩]

def gauges (low high : Int) : Graph where
  records := [gauge low high]
  enums := []
  pending := []

theorem collect_gauges (h : below (.integer high) (.integer low) = false) :
    Registry.collect (gauges low high) = .ok ⟨[(⟨"Gauge", "level"⟩,
      { minimum := some (.integer low), maximum := some (.integer high) })], []⟩ := by
  simp only [Registry.collect, gauges, Registry.addRecord, gauge, List.foldlM_cons, List.foldlM_nil,
    Registry.addProperty, Property.keywords?, Annotation.collect, constraint_limits h]
  rfl

/-- The level is a number with the keywords of its field. -/
theorem build_gauge (registry : Registry) :
    (gauges low high).build registry (gauge low high) = .ok (.object ["level"]
      [("level", { type := ⟨.number, false⟩, keywords :=
        Builder.keywords registry ⟨"Gauge", "level"⟩ (.primitive .long) })]) := by
  rw [build, Builder.buildFrom_eq]
  rfl

end Graph

/-- A node with the integer bounds `low` and `high` stands in a compiled schema. -/
def Compiled.HasBounds (c : Compiled) (low high : Int) : Prop :=
  ∃ schema ∈ c.forest, ∃ place n, schema.node.Holds place n ∧
    n.keywords.minimum = some (.integer low) ∧ n.keywords.maximum = some (.integer high)

namespace Graph

/-- **Bounds that are not refused reach a schema.** -/
theorem exists_compile_gauges (h : below (.integer high) (.integer low) = false) :
    ∃ c, (gauges low high).compile = .ok c ∧ c.HasBounds low high := by
  have hcheck : (gauges low high).check = .ok () := by rfl
  have hdeferral : (gauges low high).deferral? (gauge low high) = none := by rfl
  have hcollection : collection? (gauge low high) = some "gauges" := by rfl
  obtain ⟨c, hc, schema, hschema, -⟩ := exists_compile_of_roots_eq hcheck (collect_gauges h) rfl
    hdeferral hcollection ⟨_, build_gauge _⟩
  obtain ⟨-, hregistry, -⟩ := compile_eq_ok_iff.mp hc
  obtain ⟨root, hroot, -, hbuild⟩ := exists_root_of_mem_forest hc hschema
  obtain rfl : root = gauge low high := List.mem_singleton.mp hroot
  have hnode := Except.ok.inj (hbuild.symm.trans (build_gauge _))
  rw [← Except.ok.inj ((collect_gauges h).symm.trans hregistry)] at hnode
  have hproperties := congrArg Node.properties hnode
  exact ⟨c, hc, schema, hschema, _, _, .property .root hproperties List.mem_cons_self, rfl, rfl⟩

/-- **Which bounds are accepted.** An annotation with integer bounds of 64 bits states a constraint
exactly if the bounds are in order or round alike, and otherwise it is refused with both bounds. The
same bounds occur in compiled schemas. Those that are not in order are far from zero and close
together. -/
theorem bounds_in_order_or_alike (hlow : Fits low) (hhigh : Fits high) :
    (∀ a : Annotation, a.Bounds low high →
      ((∃ c, a.constraint = .ok c) ↔ low ≤ high ∨ nearest low = nearest high) ∧
      ∀ e, a.constraint = .error e →
        e = .invalid "max" (.inverted (.integer high) (.integer low))) ∧
    ((∃ (g : Graph) (c : Compiled), g.compile = .ok c ∧ c.HasBounds low high) ↔
      low ≤ high ∨ nearest low = nearest high) ∧
    (high < low → nearest low = nearest high →
      2 ^ 53 ≤ high.natAbs ∧ 2 ^ 53 ≤ low.natAbs ∧ low ≤ high + 2 ^ 11) := by
  rw [← below_integer_eq_false_iff hlow hhigh]
  refine ⟨fun a h => ?_, ⟨?_, fun h => ⟨_, exists_compile_gauges h⟩⟩, fun hlt heq => ?_⟩
  · rw [constraint_of_bounds h]
    cases below (.integer high) (.integer low) <;> simp [eq_comm]
  · rintro ⟨g, c, hc, schema, hschema, place, n, hn, hminimum, hmaximum⟩
    obtain ⟨root, -, -, hnodes⟩ := wellFormedAt_of_compile hc schema hschema
    exact (hnodes place n hn).keywords.numbers _ _ hminimum hmaximum
  · exact Binary64.close_of_nearest_eq hhigh.natAbs_lt hlow.natAbs_lt hlt heq.symm

/-- The widest bounds are accepted. Bounds the wrong way round are refused and stand in no schema
if they are two apart at `2 ^ 53`. -/
theorem bounds_in_order_or_alike_limits :
    (∃ c, (limits (-9223372036854775808) 18446744073709551615).constraint = .ok c) ∧
      (¬ ∃ c, (limits 9007199254740994 9007199254740992).constraint = .ok c) ∧
      ¬ ∃ (g : Graph) (c : Compiled), g.compile = .ok c ∧
        c.HasBounds 9007199254740994 9007199254740992 := by
  have hwide := bounds_in_order_or_alike (by decide : Fits (-9223372036854775808))
    (by decide : Fits 18446744073709551615)
  have hclose := bounds_in_order_or_alike (by decide : Fits 9007199254740994)
    (by decide : Fits 9007199254740992)
  have hapart : ¬ ((9007199254740994 : Int) ≤ 9007199254740992 ∨
      nearest 9007199254740994 = nearest 9007199254740992) := by decide
  refine ⟨?_, ?_, hclose.2.1.not.mpr hapart⟩
  · exact (hwide.1 _ (bounds_limits _ _)).1.mpr (.inl (by decide))
  · exact (hclose.1 _ (bounds_limits _ _)).1.not.mpr hapart

/-- **Inverted bounds are accepted** where the steps of the format get wider than one: the lower
bound `2 ^ 53 + 1` rounds to the upper bound `2 ^ 53`. -/
theorem inverted_bounds_accepted :
    (9007199254740992 : Int) < 9007199254740993 ∧ Fits 9007199254740992 ∧ Fits 9007199254740993 ∧
      (limits 9007199254740993 9007199254740992).constraint = .ok (.numericBounds
        (some (.integer 9007199254740993)) (some (.integer 9007199254740992))) ∧
      ∃ c, (gauges 9007199254740993 9007199254740992).compile = .ok c ∧
        c.HasBounds 9007199254740993 9007199254740992 := by
  have hlow : Fits 9007199254740993 := by decide
  have hhigh : Fits 9007199254740992 := by decide
  have halike : nearest 9007199254740993 = nearest 9007199254740992 := by decide
  have hbelow := (below_integer_eq_false_iff hlow hhigh).mpr (.inr halike)
  exact ⟨by decide, hhigh, hlow, constraint_limits hbelow, exists_compile_gauges hbelow⟩

end Graph

end CollectionSchema
