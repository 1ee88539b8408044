import CollectionSchema.Proofs.BuildFaults
import Mathlib.Data.List.Chain

/-!
# The way to a fault

A build enters records one inside the other, along a trail: each name on it is that of a declared
record with a property of the next one, and none is entered twice. The step lemma is `Trail.snoc`,
the run lemma `Enters.trail`. So the error of a build that fails names the field at fault:

* a cycle is a trail and one more step, from its last record back to one of its names (`CycleAt`);
* an unresolved name is that of no declaration of the kind that a field of a record on the way asks
  for (`UnresolvedAt`).

`culprit_of_build_eq_error` states both.
-/

namespace CollectionSchema

open Relation

namespace Graph

variable {g : Graph}

/-! ## Trails -/

/-- The key is that of a declared field whose type is the record with the name, or a list of it. -/
def NestsAt (g : Graph) (key : FieldKey) (name : String) : Prop :=
  ∃ r ∈ g.records, r.name = key.record ∧ ∃ p ∈ r.properties, p.name = key.field ∧
    (p.type = .record name ∨ p.type = .list (.record name))

def Nests (g : Graph) (a b : String) : Prop := ∃ field, g.NestsAt ⟨a, field⟩ b

/-- Names of declared records from a first one on, each with a property of the next one. -/
structure Trail (g : Graph) (first : String) (names : List String) : Prop where
  first : names.head? = some first
  nested : names.IsChain g.Nests
  nodup : names.Nodup

theorem nestsAt_of_inlined? {r : Record} (hr : r ∈ g.records) {p : Property}
    (hp : p ∈ r.properties) {name : String} (hname : p.type.inlined? = some name) :
    g.NestsAt ⟨r.name, p.name⟩ name :=
  ⟨r, hr, rfl, p, hp, rfl, TypeRef.inlined?_eq_some_iff.mp hname⟩

theorem Inlines.nests {r s : Record} (hr : r ∈ g.records) (h : g.Inlines r s) :
    g.Nests r.name s.name := by
  obtain ⟨-, p, hp, hname⟩ := h
  exact ⟨p.name, nestsAt_of_inlined? hr hp hname⟩

theorem trail_singleton (name : String) : g.Trail name [name] where
  first := rfl
  nested := List.isChain_singleton name
  nodup := List.nodup_singleton name

/-- One more step of a chain of names. -/
theorem isChain_snoc {path : List String} {a b : String} (h : (path ++ [a]).IsChain g.Nests)
    (hab : g.Nests a b) : (path ++ [a] ++ [b]).IsChain g.Nests := by
  refine h.append (List.isChain_singleton b) ?_
  simpa using hab

theorem Trail.snoc {first : String} {path : List String} {a b : String}
    (h : g.Trail first (path ++ [a])) (hab : g.Nests a b) (hfresh : b ∉ path ++ [a]) :
    g.Trail first (path ++ [a] ++ [b]) where
  first := by
    rw [List.head?_append, h.first, Option.some_or]
  nested := isChain_snoc h.nested hab
  nodup := by
    rw [← List.concat_eq_append]
    exact h.nodup.concat hfresh

end Graph

/-- **A build goes along a trail.** -/
theorem Builder.Enters.trail {g : Graph} {path path' : List String} {r s : Record}
    (h : Enters g path r path' s) (hr : r ∈ g.records) {first : String}
    (htrail : g.Trail first (path ++ [r.name])) :
    s ∈ g.records ∧ g.Trail first (path' ++ [s.name]) := by
  induction h with
  | refl path r => exact ⟨hr, htrail⟩
  | step hedge hfresh _ ih => exact ih hedge.mem (htrail.snoc (hedge.nests hr) hfresh)

namespace Graph

variable {g : Graph}

/-! ## Culprits -/

/-- The names are a trail from a record inwards, and the field called `key` of the last of them
leads back to a name among them. -/
structure CycleAt (g : Graph) (r : Record) (key : FieldKey) (names : List String)
    (again : String) : Prop where
  trail : g.Trail r.name names
  closed : (names ++ [again]).IsChain g.Nests
  mem : again ∈ names
  owner : names.getLast? = some key.record
  field : g.NestsAt key again

/-- A record that is reached has a field called `key` whose type is, or is a list of, a record or
an enumeration that is not declared as such. -/
def UnresolvedAt (g : Graph) (r : Record) (key : FieldKey) (name : String) : Prop :=
  ∃ s, ReflTransGen g.Inlines r s ∧ s.name = key.record ∧
    ∃ p ∈ s.properties, p.name = key.field ∧
      ((p.type = .record name ∨ p.type = .list (.record name)) ∧
          (∀ t ∈ g.records, t.name ≠ name) ∨
        (p.type = .enumeration name ∨ p.type = .list (.enumeration name)) ∧
          ∀ e ∈ g.enums, e.name ≠ name)

theorem record?_eq_none_iff {name : String} :
    g.record? name = none ↔ ∀ r ∈ g.records, r.name ≠ name := by
  simp [record?]

theorem enum?_eq_none_iff {name : String} :
    g.enum? name = none ↔ ∀ e ∈ g.enums, e.name ≠ name := by
  simp [enum?]

/-- **A build that fails names the field at fault**, whether the graph is well formed or not. The
path of a cycle goes from the record inwards and closes at its last step, by that field. A name
without a declaration is what that field refers to. -/
theorem culprit_of_build_eq_error (registry : Registry) {r : Record} (hr : r ∈ g.records) :
    (∀ key path, g.build registry r = .error (.cyclic key path) →
      ∃ names again, path = names ++ [again] ∧ g.CycleAt r key names again) ∧
    ∀ key name, g.build registry r = .error (.unresolved key name) →
      g.UnresolvedAt r key name := by
  constructor
  · intro key path hbuild
    obtain ⟨path', s, henters, hstop⟩ := Builder.exists_stop_of_buildFrom_eq_error hbuild
    obtain ⟨hs, htrail⟩ := henters.trail hr (trail_singleton r.name)
    cases hstop with
    | @cycle p name hp hname hmem =>
      have hfield := nestsAt_of_inlined? hs hp hname
      refine ⟨path' ++ [s.name], name, rfl, htrail, ?_, hmem, ?_, hfield⟩
      · exact isChain_snoc htrail.nested ⟨p.name, hfield⟩
      · exact List.getLast?_concat
  · intro key name hbuild
    obtain ⟨path', s, henters, hstop⟩ := Builder.exists_stop_of_buildFrom_eq_error hbuild
    have hreach := henters.reflTransGen_inlines
    cases hstop with
    | @record p _ hp hname hnone =>
      exact ⟨s, hreach, rfl, p, hp, rfl,
        .inl ⟨TypeRef.inlined?_eq_some_iff.mp hname, record?_eq_none_iff.mp hnone⟩⟩
    | @enumeration p _ hp hname hnone =>
      exact ⟨s, hreach, rfl, p, hp, rfl,
        .inr ⟨TypeRef.enumerated?_eq_some_iff.mp hname, enum?_eq_none_iff.mp hnone⟩⟩

/-! ### A household -/

def person : Record where
  name := "Person"
  root := some ⟨some "people"⟩
  properties := [⟨"partner", .record "Partner", true, []⟩]

def partner : Record where
  name := "Partner"
  root := none
  properties := [⟨"people", .list (.record "Person"), false, []⟩]

def guest : Record where
  name := "Guest"
  root := some ⟨some "guests"⟩
  properties := [⟨"age", .primitive .int, false, []⟩, ⟨"home", .record "Home", false, []⟩]

/-- Nobody declares the streets. -/
def home : Record where
  name := "Home"
  root := none
  properties := [⟨"streets", .list (.enumeration "Street"), false, []⟩]

def household : Graph where
  records := [person, partner, guest, home]
  enums := []
  pending := []

theorem build_person : household.build .empty person =
    .error (.cyclic ⟨"Partner", "people"⟩ ["Person", "Partner", "Person"]) := by
  simp [build, Builder.buildFrom_eq, Builder.entry, Builder.property, Builder.elements,
    Builder.enter, household, person, partner, record?, bind, Except.bind]

theorem build_guest : household.build .empty guest =
    .error (.unresolved ⟨"Home", "streets"⟩ "Street") := by
  simp [build, Builder.buildFrom_eq, Builder.entry, Builder.property, Builder.elements,
    Builder.enter, household, person, partner, guest, home, record?, enum?, bind, Except.bind,
    pure, Except.pure]

/-- The cycle closes at the partner, and the guest's home is at fault, not the guest. -/
theorem culprit_of_build_eq_error_household :
    person ∈ household.records ∧ guest ∈ household.records ∧
      (∃ names again, ["Person", "Partner", "Person"] = names ++ [again] ∧
        household.CycleAt person ⟨"Partner", "people"⟩ names again) ∧
      household.UnresolvedAt guest ⟨"Home", "streets"⟩ "Street" := by
  have hperson : person ∈ household.records := by simp [household]
  have hguest : guest ∈ household.records := by simp [household]
  exact ⟨hperson, hguest, (culprit_of_build_eq_error .empty hperson).1 _ _ build_person,
    (culprit_of_build_eq_error .empty hguest).2 _ _ build_guest⟩

end Graph

end CollectionSchema
