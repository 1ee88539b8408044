import CollectionSchema.Proofs.Declaration
import CollectionSchema.Proofs.PathIndependence
import Mathlib.Logic.Relation

/-!
# Which records have nodes

A record inlines the declared records that stand in the place of its properties or of the
elements of its lists. The node of a record is a finite tree that holds the nodes of all
records reached this way, so nothing that is reached may be undeclared or lie inside itself.

* `exists_build_of_resolvedTree`: this is enough. The path of a build holds records that reach the
  one being built, so a name on the path is never entered again, also where records are shared.
* `resolvedTree_of_build_eq_ok`: it is needed. A build succeeds on everything it reaches, and
  the node of an inlined record is smaller.
* `build_succeeds_iff`: both directions.
-/

namespace CollectionSchema.Graph

open Relation

variable {g : Graph} {registry : Registry}

/-! ## Inlining -/

/-- A property of the first record, or the elements of one, have the type of the second, which
is declared. -/
def Inlines (g : Graph) (r s : Record) : Prop :=
  s ∈ g.records ∧ ∃ p ∈ r.properties, p.type.inlined? = some s.name

/-- Whatever the properties of a record refer to is declared as the kind it is used as. -/
structure Resolves (g : Graph) (r : Record) : Prop where
  records : ∀ p ∈ r.properties, ∀ name, p.type.inlined? = some name →
    ∃ s ∈ g.records, s.name = name
  enums : ∀ p ∈ r.properties, ∀ name, p.type.enumerated? = some name →
    ∃ e ∈ g.enums, e.name = name

/-- Everything that a record reaches is resolved, and nothing that it reaches lies inside itself. -/
structure ResolvedTree (g : Graph) (r : Record) : Prop where
  resolves : ∀ s, ReflTransGen g.Inlines r s → g.Resolves s
  acyclic : ∀ s, ReflTransGen g.Inlines r s → ¬ TransGen g.Inlines s s

theorem Inlines.mem {r s : Record} (h : g.Inlines r s) : s ∈ g.records := h.1

theorem ResolvedTree.of_inlines {r s : Record} (h : g.ResolvedTree r) (hedge : g.Inlines r s) :
    g.ResolvedTree s :=
  ⟨fun t ht => h.resolves t (.head hedge ht), fun t ht => h.acyclic t (.head hedge ht)⟩

theorem mem_of_reflTransGen_inlines {r s : Record} (hr : r ∈ g.records)
    (h : ReflTransGen g.Inlines r s) : s ∈ g.records := by
  cases h with
  | refl => exact hr
  | tail _ hlast => exact hlast.mem

/-! ## Resolved trees are built -/

/-- A record with a resolved tree is built from every path that holds no name below it. -/
theorem exists_buildFrom_of_resolvedTree (hg : g.WellFormed) {path : List String} {r : Record}
    (hr : r ∈ g.records) (htree : g.ResolvedTree r)
    (hpath : ∀ s, TransGen g.Inlines r s → s.name ∉ path) :
    ∃ n, Builder.buildFrom g registry path r = .ok n := by
  induction path, r using Builder.path_induction g with
  | step path r ih =>
    simp only [Builder.buildFrom_eq_ok_iff, ← Outcome.mapM_eq_ok_iff]
    rw [exists_comm]
    suffices h : ∀ p ∈ r.properties, ∃ e,
        Builder.entry g registry (Builder.enter g registry (path ++ [r.name])) r p = .ok e by
      obtain ⟨nodes, hnodes⟩ := Outcome.exists_mapM_eq_ok_iff.mpr h
      exact ⟨nodes, _, hnodes, rfl⟩
    intro p hp
    have hself := htree.resolves r .refl
    suffices h : ∃ n, Builder.property g registry
        (Builder.enter g registry (path ++ [r.name]) ⟨r.name, p.name⟩) ⟨r.name, p.name⟩ p =
          .ok n by
      obtain ⟨n, hn⟩ := h
      exact ⟨(p.name, n), Builder.entry_eq_ok_iff.mpr ⟨rfl, hn⟩⟩
    refine Builder.exists_property_eq_ok_iff.mpr ⟨fun name hname => ?_, fun name hname => ?_⟩
    · obtain ⟨s, hs, rfl⟩ := hself.records p hp name hname
      have hedge : g.Inlines r s := ⟨hs, p, hp, hname⟩
      -- the record `s` is below `r`, so its name is neither on the path nor that of `r`
      have hfresh : ∀ t, ReflTransGen g.Inlines s t → t.name ∉ path ++ [r.name] := by
        intro t ht hmem
        have hbelow : TransGen g.Inlines r t := TransGen.head' hedge ht
        rcases List.mem_append.mp hmem with hmem | hmem
        · exact hpath t hbelow hmem
        · have hname := List.mem_singleton.mp hmem
          have ht' := mem_of_reflTransGen_inlines hs ht
          obtain rfl := List.inj_on_of_nodup_map hg.records ht' hr hname
          exact htree.acyclic t .refl hbelow
      have hfound := hg.record?_name hs
      obtain ⟨n, hn⟩ := ih s.name s hfound (hfresh s .refl) hs (htree.of_inlines hedge)
        fun t ht => hfresh t ht.to_reflTransGen
      exact ⟨n, Builder.enter_eq_ok_iff.mpr ⟨s, hfound, hfresh s .refl, hn⟩⟩
    · exact enum?_isSome_iff.mpr (hself.enums p hp name hname)

theorem exists_build_of_resolvedTree (hg : g.WellFormed) {r : Record} (hr : r ∈ g.records)
    (htree : g.ResolvedTree r) : ∃ n, g.build registry r = .ok n :=
  exists_buildFrom_of_resolvedTree hg hr htree fun _ _ => List.not_mem_nil

/-! ## Built trees are resolved and finite -/

theorem property_of_build_eq_ok (hg : g.WellFormed) {r : Record} (hr : r ∈ g.records) {n : Node}
    (h : g.build registry r = .ok n) {p : Property} (hp : p ∈ r.properties) :
    ∃ m, Builder.property g registry (g.buildNamed registry ⟨r.name, p.name⟩)
      ⟨r.name, p.name⟩ p = .ok m ∧ sizeOf m < sizeOf n := by
  obtain ⟨nodes, hnodes, rfl⟩ := build_eq_ok (hg.properties r hr) h
  obtain ⟨⟨name, m⟩, hmem, -, hm⟩ := Outcome.exists_result hnodes hp
  refine ⟨m, hm, ?_⟩
  have hsize := List.sizeOf_lt_of_mem hmem
  simp only [Prod.mk.sizeOf_spec] at hsize
  simp only [Node.object, Node.mk.sizeOf_spec, Option.some.sizeOf_spec]
  omega

theorem nested_of_property_eq_ok {nested : String → Except BuildError Node} {key : FieldKey}
    {p : Property} {m : Node} (h : Builder.property g registry nested key p = .ok m)
    {name : String} (hname : p.type.inlined? = some name) :
    ∃ m', nested name = .ok m' ∧ sizeOf m' ≤ sizeOf m := by
  rw [Builder.property_eq_ok_iff] at h
  cases htype : p.type with
  | record other =>
    rw [htype] at h hname
    obtain rfl : other = name := by simpa [TypeRef.inlined?] using hname
    exact ⟨m, h, Nat.le_refl _⟩
  | list element =>
    rw [htype] at h hname
    obtain ⟨m', hm', rfl⟩ := h
    cases element with
    | record other =>
      obtain rfl : other = name := by simpa [TypeRef.inlined?] using hname
      rw [Builder.elements_eq_ok_iff] at hm'
      refine ⟨m', hm', ?_⟩
      simp only [Node.mk.sizeOf_spec, Option.some.sizeOf_spec]
      omega
    | _ => simp [TypeRef.inlined?] at hname
  | _ => simp [htype, TypeRef.inlined?] at hname

theorem resolves_of_build_eq_ok (hg : g.WellFormed) {r : Record} (hr : r ∈ g.records) {n : Node}
    (h : g.build registry r = .ok n) : g.Resolves r := by
  constructor
  · intro p hp name hname
    obtain ⟨m, hm, -⟩ := property_of_build_eq_ok hg hr h hp
    obtain ⟨m', hm', -⟩ := nested_of_property_eq_ok hm hname
    obtain ⟨s, hs, -⟩ := buildNamed_eq_ok_iff.mp hm'
    exact ⟨s, mem_of_record? hs, name_of_record? hs⟩
  · intro p hp name hname
    obtain ⟨m, hm, -⟩ := property_of_build_eq_ok hg hr h hp
    exact enum?_isSome_iff.mp ((Builder.exists_property_eq_ok_iff.mp ⟨m, hm⟩).2 name hname)

theorem build_of_inlines (hg : g.WellFormed) {r s : Record} (hr : r ∈ g.records) {n : Node}
    (h : g.build registry r = .ok n) (hedge : g.Inlines r s) :
    ∃ m, g.build registry s = .ok m ∧ sizeOf m < sizeOf n := by
  obtain ⟨hs, p, hp, hname⟩ := hedge
  obtain ⟨m, hm, hlt⟩ := property_of_build_eq_ok hg hr h hp
  obtain ⟨m', hm', hle⟩ := nested_of_property_eq_ok hm hname
  obtain ⟨s', hs', hbuild⟩ := buildNamed_eq_ok_iff.mp hm'
  rw [hg.record?_name hs] at hs'
  cases hs'
  exact ⟨m', hbuild, Nat.lt_of_le_of_lt hle hlt⟩

theorem build_of_transGen_inlines (hg : g.WellFormed) {r s : Record} (hr : r ∈ g.records)
    {n : Node} (h : g.build registry r = .ok n) (hpath : TransGen g.Inlines r s) :
    ∃ m, g.build registry s = .ok m ∧ sizeOf m < sizeOf n := by
  induction hpath with
  | single hedge => exact build_of_inlines hg hr h hedge
  | @tail t s ht hedge ih =>
    obtain ⟨m, hm, hlt⟩ := ih
    have ht := mem_of_reflTransGen_inlines hr ht.to_reflTransGen
    obtain ⟨m', hm', hlt'⟩ := build_of_inlines hg ht hm hedge
    exact ⟨m', hm', Nat.lt_trans hlt' hlt⟩

theorem build_of_reflTransGen_inlines (hg : g.WellFormed) {r s : Record} (hr : r ∈ g.records)
    {n : Node} (h : g.build registry r = .ok n) (hpath : ReflTransGen g.Inlines r s) :
    ∃ m, g.build registry s = .ok m := by
  rcases reflTransGen_iff_eq_or_transGen.mp hpath with rfl | hpath
  · exact ⟨n, h⟩
  · obtain ⟨m, hm, -⟩ := build_of_transGen_inlines hg hr h hpath
    exact ⟨m, hm⟩

/-- A record with a node does not lie inside itself: its node would be smaller than itself. -/
theorem not_transGen_of_build_eq_ok (hg : g.WellFormed) {r : Record} (hr : r ∈ g.records)
    {n : Node} (h : g.build registry r = .ok n) : ¬ TransGen g.Inlines r r := by
  intro hcycle
  obtain ⟨m, hm, hlt⟩ := build_of_transGen_inlines hg hr h hcycle
  rw [h] at hm
  cases hm
  exact Nat.lt_irrefl _ hlt

theorem resolvedTree_of_build_eq_ok (hg : g.WellFormed) {r : Record} (hr : r ∈ g.records)
    {n : Node} (h : g.build registry r = .ok n) : g.ResolvedTree r := by
  constructor
  · intro s hs
    obtain ⟨m, hm⟩ := build_of_reflTransGen_inlines hg hr h hs
    exact resolves_of_build_eq_ok hg (mem_of_reflTransGen_inlines hr hs) hm
  · intro s hs
    obtain ⟨m, hm⟩ := build_of_reflTransGen_inlines hg hr h hs
    exact not_transGen_of_build_eq_ok hg (mem_of_reflTransGen_inlines hr hs) hm

theorem exists_build_shipment (registry : Registry) :
    ∃ n, shipments.build registry shipment = .ok n := by
  simp [build, Builder.buildFrom_eq, Builder.entry, Builder.property, Builder.elements,
    Builder.enter, shipments, shipment, address, record?, enum?, bind, Except.bind, pure,
    Except.pure]

/-! ## The exact condition -/

/-- **A record has a node exactly if its tree of inlined records is resolved and finite.**
Otherwise the build stops at a name that is not declared or at a record inside itself. -/
theorem build_succeeds_iff {g : Graph} (hg : g.check = .ok ()) (registry : Registry)
    {r : Record} (hr : r ∈ g.records) :
    ((∃ n, g.build registry r = .ok n) ↔ g.ResolvedTree r) ∧
      (¬ g.ResolvedTree r → ∃ key, (∃ name, g.build registry r = .error (.unresolved key name)) ∨
        ∃ path, g.build registry r = .error (.cyclic key path)) := by
  have hwf := check_eq_ok_iff.mp hg
  have hiff : (∃ n, g.build registry r = .ok n) ↔ g.ResolvedTree r := by
    constructor
    · rintro ⟨n, h⟩
      exact resolvedTree_of_build_eq_ok hwf hr h
    · exact exists_build_of_resolvedTree hwf hr
  refine ⟨hiff, fun hnot => ?_⟩
  rw [← hiff] at hnot
  cases h : g.build registry r with
  | ok n => exact absurd ⟨n, h⟩ hnot
  | error e =>
    cases e with
    | unresolved key name => exact ⟨key, Or.inl ⟨name, rfl⟩⟩
    | cyclic key path => exact ⟨key, Or.inr ⟨path, rfl⟩⟩

/-- The address that two properties of a shipment share is no cycle. -/
theorem build_succeeds_iff_shipments :
    shipments.check = .ok () ∧ shipment ∈ shipments.records ∧ shipments.ResolvedTree shipment :=
  ⟨check_shipments, shipment_mem,
    (build_succeeds_iff check_shipments .empty shipment_mem).1.mp (exists_build_shipment .empty)⟩

end CollectionSchema.Graph
