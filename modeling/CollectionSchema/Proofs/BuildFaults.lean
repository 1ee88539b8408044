import CollectionSchema.Proofs.Resolution

/-!
# Where a build stops

A build that fails has entered one record inside the other and stops at a property of the
innermost one: it refers to a name that is not declared as the kind it is used as, or to a record
that is being built.

* `exists_stop_of_buildFrom_eq_error`: every error is that of such a stop. One step is
  `exists_property_of_buildFrom_eq_error`, the run is an induction along the path.
* `Graph.build_ne_unresolved`: where everything that is reached is resolved, no name is at fault.
-/

namespace CollectionSchema

open Relation

namespace Builder

variable {g : Graph} {registry : Registry}

/-! ## Errors of one step -/

theorem elements_eq_error_iff {nested : String → Except BuildError Node} {key : FieldKey}
    {type : TypeRef} {e : BuildError} :
    elements g nested key type = .error e ↔
      match type with
      | .record name => nested name = .error e
      | .enumeration name => g.enum? name = none ∧ e = .unresolved key name
      | _ => False := by
  cases type with
  | record name => rfl
  | enumeration name => cases h : g.enum? name <;> simp [elements, h, eq_comm]
  | primitive kind => simp [elements]
  | list element => simp [elements]

/-- A property has no node exactly if its record is not built or its enumeration not declared. -/
theorem property_eq_error_iff {nested : String → Except BuildError Node} {key : FieldKey}
    {p : Property} {e : BuildError} :
    property g registry nested key p = .error e ↔
      (∃ name, p.type.inlined? = some name ∧ nested name = .error e) ∨
        ∃ name, p.type.enumerated? = some name ∧ g.enum? name = none ∧
          e = .unresolved key name := by
  unfold property
  cases p.type with
  | record name => simp [TypeRef.inlined?, TypeRef.enumerated?]
  | enumeration name =>
    cases h : g.enum? name <;> simp [h, TypeRef.inlined?, TypeRef.enumerated?, eq_comm]
  | primitive kind => simp [TypeRef.inlined?, TypeRef.enumerated?]
  | list element =>
    simp only [Outcome.bind_eq_error_iff, Outcome.pure_eq_error_iff, and_false, exists_false,
      or_false, elements_eq_error_iff]
    cases element <;> simp [TypeRef.inlined?, TypeRef.enumerated?]

theorem entry_eq_error_iff {nested : FieldKey → String → Except BuildError Node} {r : Record}
    {p : Property} {e : BuildError} :
    entry g registry nested r p = .error e ↔
      property g registry (nested ⟨r.name, p.name⟩) ⟨r.name, p.name⟩ p = .error e := by
  simp only [entry, Outcome.bind_eq_error_iff, Outcome.pure_eq_error_iff, and_false, exists_false,
    or_false]

theorem enter_eq_error_iff {path : List String} {key : FieldKey} {name : String}
    {e : BuildError} :
    enter g registry path key name = .error e ↔
      (g.record? name = none ∧ e = .unresolved key name) ∨
        ∃ r, g.record? name = some r ∧
          (name ∈ path ∧ e = .cyclic key (path ++ [name]) ∨
            name ∉ path ∧ buildFrom g registry path r = .error e) := by
  unfold enter
  cases g.record? name with
  | none => simp [eq_comm]
  | some r => by_cases h : name ∈ path <;> simp [h, eq_comm]

theorem exists_property_of_buildFrom_eq_error {path : List String} {r : Record} {e : BuildError}
    (h : buildFrom g registry path r = .error e) :
    ∃ p ∈ r.properties, property g registry
      (enter g registry (path ++ [r.name]) ⟨r.name, p.name⟩) ⟨r.name, p.name⟩ p = .error e := by
  rw [buildFrom_eq] at h
  simp only [Outcome.bind_eq_error_iff, Outcome.pure_eq_error_iff, and_false, exists_false,
    or_false, Outcome.mapM_eq_error_iff] at h
  obtain ⟨before, p, after, hsplit, -, hp⟩ := h
  exact ⟨p, hsplit ▸ List.mem_append_right _ List.mem_cons_self, entry_eq_error_iff.mp hp⟩

/-! ## Stops -/

/-- Why the build of a record that is entered from a path stops at the record itself. -/
inductive StopsAt (g : Graph) (path : List String) (r : Record) : BuildError → Prop
  | record {p : Property} {name : String} : p ∈ r.properties → p.type.inlined? = some name →
      g.record? name = none → StopsAt g path r (.unresolved ⟨r.name, p.name⟩ name)
  | enumeration {p : Property} {name : String} : p ∈ r.properties →
      p.type.enumerated? = some name → g.enum? name = none →
        StopsAt g path r (.unresolved ⟨r.name, p.name⟩ name)
  | cycle {p : Property} {name : String} : p ∈ r.properties → p.type.inlined? = some name →
      name ∈ path ++ [r.name] →
        StopsAt g path r (.cyclic ⟨r.name, p.name⟩ (path ++ [r.name] ++ [name]))

/-- The build of the first record from the first path enters the second record from the second
path: every record on the way is inlined in the one before, and new to the path. -/
inductive Enters (g : Graph) : List String → Record → List String → Record → Prop
  | refl (path : List String) (r : Record) : Enters g path r path r
  | step {path path' : List String} {r s t : Record} : g.Inlines r s →
      s.name ∉ path ++ [r.name] → Enters g (path ++ [r.name]) s path' t → Enters g path r path' t

theorem Enters.reflTransGen_inlines {path path' : List String} {r s : Record}
    (h : Enters g path r path' s) : ReflTransGen g.Inlines r s := by
  induction h with
  | refl path r => exact .refl
  | step hedge _ _ ih => exact .head hedge ih

/-- **A build fails only at a stop of a record that it enters.** -/
theorem exists_stop_of_buildFrom_eq_error {path : List String} {r : Record} {e : BuildError}
    (h : buildFrom g registry path r = .error e) :
    ∃ path' s, Enters g path r path' s ∧ StopsAt g path' s e := by
  -- induction on the records off the path: the fault is here or in a record entered from here
  induction path, r using path_induction g with
  | step path r ih =>
    obtain ⟨p, hp, hproperty⟩ := exists_property_of_buildFrom_eq_error h
    rcases property_eq_error_iff.mp hproperty with ⟨name, hname, henter⟩ | ⟨name, hname, hnone, rfl⟩
    · rcases enter_eq_error_iff.mp henter with ⟨hnone, rfl⟩ | ⟨s, hs, hcycle | ⟨hfresh, hbuild⟩⟩
      · exact ⟨path, r, .refl path r, .record hp hname hnone⟩
      · obtain ⟨hmem, rfl⟩ := hcycle
        exact ⟨path, r, .refl path r, .cycle hp hname hmem⟩
      · obtain rfl := Graph.name_of_record? hs
        obtain ⟨path', t, henters, hstop⟩ := ih s.name s hs hfresh hbuild
        have hedge : g.Inlines r s := ⟨Graph.mem_of_record? hs, p, hp, hname⟩
        exact ⟨path', t, .step hedge hfresh henters, hstop⟩
    · exact ⟨path, r, .refl path r, .enumeration hp hname hnone⟩

end Builder

namespace Graph

variable {g : Graph} {registry : Registry}

/-- Where everything that a record reaches is resolved, its build does not stop at a name. -/
theorem build_ne_unresolved {r : Record} (h : ∀ s, ReflTransGen g.Inlines r s → g.Resolves s)
    (key : FieldKey) (name : String) : g.build registry r ≠ .error (.unresolved key name) := by
  intro hbuild
  obtain ⟨path, s, henters, hstop⟩ := Builder.exists_stop_of_buildFrom_eq_error hbuild
  have hs := h s henters.reflTransGen_inlines
  cases hstop with
  | record hp hname hnone =>
    have hdeclared := record?_isSome_iff.mpr (hs.records _ hp _ hname)
    rw [hnone] at hdeclared
    cases hdeclared
  | enumeration hp hname hnone =>
    have hdeclared := enum?_isSome_iff.mpr (hs.enums _ hp _ hname)
    rw [hnone] at hdeclared
    cases hdeclared

end Graph

end CollectionSchema
