import CollectionSchema.Compile.Forest
import CollectionSchema.Proofs.PathIndependence

/-!
# Annotations of unknown kinds

Annotations whose names are not recognized have no effect: a graph compiles exactly as it does
without them (`compile_recognized`). Each pass is followed on its own: the check of declarations
(`check_recognized`), the registry (`collect_recognized`), the nodes (`buildFrom_recognized`, by
induction along paths) and the fate of a root (`settle_recognized`).
-/

namespace CollectionSchema

/-! ## Graphs without unknown annotations -/

def Property.recognized (p : Property) : Property :=
  { p with annotations := p.annotations.filter (·.kind?.isSome) }

def Record.recognized (r : Record) : Record :=
  { r with properties := r.properties.map Property.recognized }

/-- The graph without the annotations that are not recognized. -/
def Graph.recognized (g : Graph) : Graph :=
  { g with records := g.records.map Record.recognized }

theorem Record.map_name_recognized (r : Record) :
    r.recognized.properties.map (·.name) = r.properties.map (·.name) :=
  List.map_map

/-! ## The registry -/

namespace Annotation

theorem collect_filter {key : FieldKey} {previous : Option (AnnotationKind × Keywords)}
    (annotations : List Annotation) :
    collect key previous (annotations.filter (·.kind?.isSome)) =
      collect key previous annotations := by
  induction annotations generalizing previous with
  | nil => rfl
  | cons a rest ih =>
    cases hkind : a.kind? with
    | none =>
      have hnone : a.constraintKind? = none := by rw [constraintKind?, hkind, Option.filter_none]
      rw [List.filter_cons_of_neg (by simp [hkind]), ih]
      simp only [collect, hnone]
    | some kind =>
      rw [List.filter_cons_of_pos (by simp [hkind])]
      unfold collect
      simp only [ih]

end Annotation

namespace Property

theorem keywords?_recognized (record : String) (p : Property) :
    p.recognized.keywords? record = p.keywords? record := by
  simp only [keywords?, recognized, Annotation.collect_filter]

theorem isExempt_recognized (p : Property) : p.recognized.isExempt = p.isExempt := by
  simp only [isExempt, recognized, List.any_filter]
  congr 1
  funext a
  unfold Annotation.isExemption
  cases a.kind? <;> simp

end Property

namespace Registry

theorem addProperty_recognized (record : String) (registry : Registry) (p : Property) :
    addProperty record registry p.recognized = addProperty record registry p := by
  simp only [addProperty, Property.keywords?_recognized, Property.isExempt_recognized]
  rfl

theorem collect_recognized (g : Graph) : collect g.recognized = collect g := by
  have hrecord : ∀ registry r, addRecord registry r.recognized = addRecord registry r := by
    intro registry r
    simp only [addRecord, Record.recognized, List.foldlM_map, addProperty_recognized]
  simp only [collect, Graph.recognized, List.foldlM_map, hrecord]

end Registry

namespace Graph

variable {g : Graph}

/-! ## The check -/

theorem checkRecords_recognized {seen : List String} (records : List Record) :
    checkRecords seen (records.map Record.recognized) = checkRecords seen records := by
  induction records generalizing seen with
  | nil => rfl
  | cons r rest ih =>
    simp only [List.map_cons, checkRecords, Record.map_name_recognized, ih]
    rfl

theorem check_recognized (g : Graph) : g.recognized.check = g.check := by
  have hnames : g.recognized.records.map (·.name) = g.records.map (·.name) := List.map_map
  have hrecords : checkRecords [] g.recognized.records = checkRecords [] g.records :=
    checkRecords_recognized g.records
  rw [check, check, hnames, hrecords]
  rfl

/-! ## Nodes -/

theorem record?_recognized (g : Graph) (name : String) :
    g.recognized.record? name = (g.record? name).map Record.recognized := by
  rw [record?, record?, recognized, List.find?_map]
  rfl

end Graph

namespace Builder

variable {g : Graph} {registry : Registry}

theorem required_recognized (r : Record) : required r.recognized = required r := by
  simp only [required, Record.recognized, List.filter_map, List.map_map]
  rfl

/-- The node of a record does not depend on annotations that are not recognized. -/
theorem buildFrom_recognized (path : List String) (r : Record) :
    buildFrom g.recognized registry path r.recognized = buildFrom g registry path r := by
  induction path, r using path_induction g with
  | step path r ih =>
    have henter : enter g.recognized registry (path ++ [r.name]) =
        enter g registry (path ++ [r.name]) := by
      funext key name
      unfold enter
      rw [Graph.record?_recognized]
      cases hr : g.record? name with
      | none => rfl
      | some r' =>
        by_cases hname : name ∈ path ++ [r.name]
        · simp [hname]
        · simpa [hname] using ih name r' hr hname
    rw [buildFrom_eq, buildFrom_eq, required_recognized]
    congr 1
    rw [Record.recognized, List.mapM_map, ← henter]
    rfl

end Builder

namespace Graph

variable {g : Graph}

/-! ## Roots -/

theorem unresolvedName?_recognized (p : Property) :
    g.recognized.unresolvedName? p.recognized = g.unresolvedName? p := by
  have hdeclares : ∀ name, g.recognized.declares name = g.declares name := by
    intro name
    rw [declares, declares, record?_recognized, Option.isSome_map]
    rfl
  simp only [unresolvedName?, hdeclares]
  rfl

theorem deferral?_recognized (r : Record) : g.recognized.deferral? r.recognized = g.deferral? r := by
  have hproperty : ∀ p : Property,
      (g.recognized.unresolvedName? p.recognized).map
          (DeferralReason.unresolvedReference p.recognized.name) =
        (g.unresolvedName? p).map (DeferralReason.unresolvedReference p.name) := by
    intro p
    rw [unresolvedName?_recognized]
    rfl
  simp only [deferral?, Record.recognized, List.findSome?_map, Function.comp_def, hproperty]
  rfl

theorem settle_recognized (registry : Registry) (r : Record) :
    g.recognized.settle registry r.recognized = g.settle registry r := by
  simp only [settle, deferral?_recognized, build, Builder.buildFrom_recognized]
  rfl

theorem roots_recognized (g : Graph) : g.recognized.roots = g.roots.map Record.recognized := by
  rw [roots, roots, recognized, List.filter_map]
  rfl

/-- **A graph compiles as it does without the annotations that are not recognized.** -/
theorem compile_recognized (g : Graph) : g.recognized.compile = g.compile := by
  have hsettle : ∀ registry, g.recognized.roots.mapM (g.recognized.settle registry) =
      g.roots.mapM (g.settle registry) := by
    intro registry
    rw [roots_recognized, List.mapM_map]
    congr 1
    funext r
    exact settle_recognized registry r
  simp only [compile, prepare, check_recognized, Registry.collect_recognized, hsettle]

end Graph

end CollectionSchema
