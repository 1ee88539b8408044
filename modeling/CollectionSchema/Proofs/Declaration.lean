import CollectionSchema.Declaration.WellFormed
import CollectionSchema.Proofs.Outcome
import Mathlib.Data.List.Nodup

/-!
# What the check of declarations decides

`Graph.WellFormed` says which graphs are well formed, without the check. `check_eq_ok_iff`:
the check accepts exactly these. In a well-formed graph a record is found under its name
(`WellFormed.record?_eq_some_iff`), and so is a property of a record.
-/

namespace CollectionSchema

/-! ## Repeated names -/

theorem firstRepeat_eq_none_iff {seen names : List String} :
    firstRepeat seen names = none ↔ names.Nodup ∧ ∀ name ∈ names, name ∉ seen := by
  induction names generalizing seen with
  | nil => simp [firstRepeat]
  | cons name rest ih =>
    by_cases hseen : name ∈ seen
    · simp [firstRepeat, hseen]
    · simp only [firstRepeat, hseen, if_false, ih, List.nodup_cons, List.mem_cons, not_or,
        forall_eq_or_imp, not_false_eq_true, true_and]
      constructor
      · rintro ⟨hrest, hfresh⟩
        exact ⟨⟨fun hmem => (hfresh name hmem).1 rfl, hrest⟩, fun x hx => (hfresh x hx).2⟩
      · rintro ⟨⟨hname, hrest⟩, hfresh⟩
        exact ⟨hrest, fun x hx => ⟨fun heq => hname (heq ▸ hx), hfresh x hx⟩⟩

theorem firstRepeat_nil_eq_none_iff {names : List String} :
    firstRepeat [] names = none ↔ names.Nodup := by
  simp [firstRepeat_eq_none_iff]

/-- With keys that are not repeated, a search for a key finds the only element that has it. -/
theorem find?_eq_some_iff_of_nodup {α : Type} {key : α → String} {xs : List α}
    (hkeys : (xs.map key).Nodup) {k : String} {x : α} :
    xs.find? (key · == k) = some x ↔ x ∈ xs ∧ key x = k := by
  constructor
  · intro h
    exact ⟨List.mem_of_find?_eq_some h, by simpa using List.find?_some h⟩
  · rintro ⟨hx, rfl⟩
    obtain ⟨y, hy⟩ : ∃ y, xs.find? (key · == key x) = some y :=
      Option.isSome_iff_exists.mp (List.find?_isSome.mpr ⟨x, hx, by simp⟩)
    have hkey : key y = key x := by simpa using List.find?_some hy
    rwa [List.inj_on_of_nodup_map hkeys (List.mem_of_find?_eq_some hy) hx hkey] at hy

namespace Graph

/-! ## Well-formed graphs -/

/-- Names are declared once, and enumerations have values that differ. -/
structure WellFormed (g : Graph) : Prop where
  records : (g.records.map (·.name)).Nodup
  properties : ∀ r ∈ g.records, (r.properties.map (·.name)).Nodup
  enums : (g.enums.map (·.name)).Nodup
  disjoint : ∀ e ∈ g.enums, e.name ∉ g.records.map (·.name)
  values : ∀ e ∈ g.enums, e.values ≠ [] ∧ e.values.Nodup

theorem checkRecords_eq_ok_iff {seen : List String} {records : List Record} :
    checkRecords seen records = .ok () ↔
      (records.map (·.name)).Nodup ∧ (∀ r ∈ records, r.name ∉ seen) ∧
        ∀ r ∈ records, (r.properties.map (·.name)).Nodup := by
  induction records generalizing seen with
  | nil => simp [checkRecords]
  | cons r rest ih =>
    by_cases hseen : r.name ∈ seen
    · simp [checkRecords, hseen]
    cases hp : firstRepeat [] (r.properties.map (·.name)) with
    | some property =>
      have hrepeat : ¬ (r.properties.map (·.name)).Nodup := by
        simp [← firstRepeat_nil_eq_none_iff, hp]
      simp [checkRecords, hseen, hp, hrepeat]
    | none =>
      have hdistinct := firstRepeat_nil_eq_none_iff.mp hp
      simp only [checkRecords, hseen, hp, if_false, ih]
      grind

theorem checkEnums_eq_ok_iff {records seen : List String} {enums : List Enumeration} :
    checkEnums records seen enums = .ok () ↔
      (enums.map (·.name)).Nodup ∧ (∀ e ∈ enums, e.name ∉ seen) ∧
        (∀ e ∈ enums, e.name ∉ records) ∧ ∀ e ∈ enums, e.values ≠ [] ∧ e.values.Nodup := by
  induction enums generalizing seen with
  | nil => simp [checkEnums]
  | cons e rest ih =>
    by_cases hseen : e.name ∈ seen
    · simp [checkEnums, hseen]
    by_cases hrecord : e.name ∈ records
    · simp [checkEnums, hseen, hrecord]
    by_cases hempty : e.values = []
    · simp [checkEnums, hseen, hrecord, hempty]
    cases hv : firstRepeat [] e.values with
    | some value =>
      have hrepeat : ¬ e.values.Nodup := by simp [← firstRepeat_nil_eq_none_iff, hv]
      simp [checkEnums, hseen, hrecord, hempty, hv, hrepeat]
    | none =>
      have hdistinct := firstRepeat_nil_eq_none_iff.mp hv
      simp only [checkEnums, hseen, hrecord, List.isEmpty_iff, hempty, hv, if_false, ih]
      grind

/-- **The check accepts exactly the well-formed graphs.** -/
theorem check_eq_ok_iff {g : Graph} : g.check = .ok () ↔ g.WellFormed := by
  simp only [check, Outcome.bind_eq_ok_iff, checkEnums_eq_ok_iff]
  constructor
  · rintro ⟨⟨⟩, hrecords, he, -, hd, hv⟩
    obtain ⟨hr, -, hp⟩ := checkRecords_eq_ok_iff.mp hrecords
    exact ⟨hr, hp, he, hd, hv⟩
  · rintro ⟨hr, hp, he, hd, hv⟩
    exact ⟨(), checkRecords_eq_ok_iff.mpr ⟨hr, by simp, hp⟩, he, by simp, hd, hv⟩

/-! ## Look-ups -/

theorem record?_isSome_iff {g : Graph} {name : String} :
    (g.record? name).isSome ↔ ∃ r ∈ g.records, r.name = name := by
  simp [record?]

theorem enum?_isSome_iff {g : Graph} {name : String} :
    (g.enum? name).isSome ↔ ∃ e ∈ g.enums, e.name = name := by
  simp [enum?]

theorem mem_of_enum? {g : Graph} {name : String} {e : Enumeration}
    (h : g.enum? name = some e) : e ∈ g.enums :=
  List.mem_of_find?_eq_some h

/-- The first declaration of a name is its only one. -/
theorem WellFormed.record?_eq_some_iff {g : Graph} (hg : g.WellFormed) {name : String}
    {r : Record} : g.record? name = some r ↔ r ∈ g.records ∧ r.name = name :=
  find?_eq_some_iff_of_nodup hg.records

theorem WellFormed.record?_name {g : Graph} (hg : g.WellFormed) {r : Record}
    (hr : r ∈ g.records) : g.record? r.name = some r :=
  hg.record?_eq_some_iff.mpr ⟨hr, rfl⟩

theorem WellFormed.property_eq {g : Graph} (hg : g.WellFormed) {r : Record}
    (hr : r ∈ g.records) {p q : Property} (hp : p ∈ r.properties) (hq : q ∈ r.properties)
    (hname : p.name = q.name) : p = q :=
  List.inj_on_of_nodup_map (hg.properties r hr) hp hq hname

/-! ## Shipments -/

def address : Record where
  name := "Address"
  root := none
  properties := [
    ⟨"city", .primitive .string, false, []⟩,
    ⟨"contact_email", .primitive .string, true, [⟨"Indexed", []⟩]⟩]

/-- A shipment, with one record inlined at two of its properties. -/
def shipment : Record where
  name := "Shipment"
  root := some ⟨some "shipments"⟩
  properties := [
    ⟨"from", .record "Address", false, []⟩,
    ⟨"via", .list (.record "Address"), true, []⟩,
    ⟨"state", .enumeration "State", true, []⟩,
    ⟨"parcels", .primitive .int, false, [⟨"NumLimit", [("max", .ofNat 20)]⟩]⟩]

def shipments : Graph where
  records := [shipment, address]
  enums := [⟨"State", ["OPEN", "DONE"]⟩]
  pending := []

theorem check_shipments : shipments.check = .ok () := by decide

theorem shipment_mem : shipment ∈ shipments.records := List.mem_cons_self

theorem eq_shipment_of_name {r : Record} (hr : r ∈ shipments.records)
    (hname : r.name = "Shipment") : r = shipment := by
  simp only [shipments, List.mem_cons, List.not_mem_nil, or_false] at hr
  rcases hr with rfl | rfl
  · rfl
  · exact absurd hname (by decide)

end Graph

end CollectionSchema
