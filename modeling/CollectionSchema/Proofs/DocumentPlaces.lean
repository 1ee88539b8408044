import CollectionSchema.Proofs.Compilation
import CollectionSchema.Proofs.WrittenArtifacts

/-!
# Where documents lie

The name of a document is the simple name of its record with the suffix of the settings and an
ending. Settings allow no slash in the suffix, but nothing keeps slashes out of simple names: the
name of a document is a single step of a path exactly if the simple name has none
(`Document.names_fileName_iff`). If that is so for all roots, writing changes no file but the
documents, directly in their directory, and the table (`Graph.documents_in_directory`); if it is
not, a document lies elsewhere (`Graph.document_outside`).
-/

namespace CollectionSchema

/-! ## Names of documents -/

/-- The name of a document is a single step exactly if there is no slash in the simple name. -/
theorem Document.names_fileName_iff {s : Settings} (hs : s.check = .ok s) {simpleName : String} :
    (Path.mk (fileName simpleName s.documentSuffix)).names =
        [fileName simpleName s.documentSuffix] ↔ '/' ∉ simpleName.toList := by
  constructor
  · intro hnames hslash
    have hmem : fileName simpleName s.documentSuffix ∈
        (Path.mk (fileName simpleName s.documentSuffix)).names := by
      rw [hnames]
      exact List.mem_cons_self
    refine Path.not_mem_of_mem_names hmem ?_
    rw [toList_fileName, String.toList_append]
    exact List.mem_append_left _ (List.mem_append_left _ hslash)
  · intro hplain
    refine Path.names_of_not_mem (Artifacts.plain_fileName hs hplain) ?_
    rw [toList_fileName]
    exact isStep_append_ending _

/-- A file of a name that has no slash is written next to its place. -/
theorem Layout.location_temporary_documentPath (layout : Layout) {simpleName suffix : String}
    (hslash : '/' ∉ (Document.fileName simpleName suffix).toList) {temporary : Path}
    (h : (layout.documentPath (Document.fileName simpleName suffix)).temporary? = some temporary)
    (working : Location) : temporary.location working =
      (layout.outDir.join layout.schemaDir).location working ++
        [Path.temporaryName (Document.fileName simpleName suffix)] := by
  obtain ⟨name, hname, hlocation⟩ := Path.location_temporary h working
  have hplace := layout.location_documentPath hslash working
  have hlast := Path.getLast?_location hname working
  rw [hplace, List.getLast?_concat, Option.some.injEq] at hlast
  rw [hlocation, hplace, List.dropLast_concat, hlast]

/-! ## What writing changes -/

namespace FileSystem

variable {ε α β : Type}

/-- What changes no files but those at some paths, as long as no file is open. -/
def KeepsClosed (paths : List Path) (fs fs' : FileSystem) : Prop :=
  fs.opened = none → Keeps paths fs fs'

instance {paths : List Path} : IsPreorder FileSystem (KeepsClosed paths) where
  refl _ _ := .rfl
  trans _ _ _ h h' hopened := (h hopened).trans (h' ((h hopened).opened hopened))

theorem Within.mapM {R : FileSystem → FileSystem → Prop} [IsPreorder FileSystem R] {xs : List α}
    {f : α → ExceptT ε (StateM FileSystem) β} (h : ∀ a ∈ xs, Within R (f a)) :
    Within R (xs.mapM f) := by
  induction xs with
  | nil => exact pure _
  | cons a xs ih =>
    obtain ⟨ha, hxs⟩ := List.forall_mem_cons.mp h
    rw [List.mapM_cons]
    exact bind ha fun _ => bind (ih hxs) fun _ => pure _

end FileSystem

namespace Artifacts

open FileSystem (KeepsClosed Within changedPaths)

theorem keepsClosed_writeFile {paths : List Path} {event : Event} {path : Path} (text : String)
    (journal : Journal) (hpath : path :: path.temporary?.toList ⊆ paths) :
    Within (KeepsClosed paths) (writeFile journal.note event path text) := by
  refine Within.bind ?_ fun _ => Within.bind ?_ fun _ => Within.pure _
  · intro fs _
    exact (FileSystem.keeps_writeAtomically path (.ofText text) fs).mono hpath
  · intro fs hopened
    rw [FileSystem.run_note, (FileSystem.onlyLogged_noted journal event).closed hopened]
    exact .rfl

/-- **Writing artifacts, whatever comes of it, changes no files but theirs.** -/
theorem keepsClosed_write (artifacts : Artifacts) (layout : Layout) (journal : Journal) :
    Within (KeepsClosed (changedPaths (artifacts.files layout)))
      (artifacts.write layout journal.note) := by
  have hpaths : ∀ file ∈ artifacts.files layout,
      file.1 :: file.1.temporary?.toList ⊆ changedPaths (artifacts.files layout) :=
    fun file hfile _ hpath => List.mem_flatMap.mpr ⟨file, hfile, hpath⟩
  refine Within.bind (Within.mapM fun doc hdoc => ?_) fun _ => ?_
  · refine keepsClosed_writeFile doc.text journal
      (hpaths (layout.documentPath doc.fileName, doc.text) ?_)
    exact List.mem_append_left _ (List.mem_map_of_mem hdoc)
  · cases htable : artifacts.table with
    | none => exact Within.pure _
    | some table =>
      refine Within.bind (keepsClosed_writeFile table.sourceText journal
        (hpaths (layout.aggregatePath, table.sourceText) ?_)) fun _ => Within.pure _
      simp [files, htable]

end Artifacts

/-! ## Graphs -/

namespace Graph

variable {g : Graph} {c : Compiled}

theorem exists_root_of_schema (h : g.compile = .ok c) {schema : CompiledSchema}
    (hschema : schema ∈ c.forest) :
    ∃ root ∈ g.roots, schema.record = root.name ∧ schema.simpleName = root.simpleName := by
  obtain ⟨root, hroot, hsettle⟩ := exists_settled_root h hschema
  obtain ⟨-, collection, node, -, -, rfl⟩ := settle_eq_compiled_iff.mp hsettle
  exact ⟨root, hroot, rfl, rfl⟩

/-- **Where documents lie.** The document of a root is named after the simple name of the root. If
that has no slash, the name is a single step and the document lies directly in the directory of the
documents. If no root's simple name has one, writing, whatever comes of it, changes no file but
documents there, files under which they are written there, and the table. -/
theorem documents_in_directory (hc : g.compile = .ok c) {s : Settings} (hs : s.check = .ok s)
    {artifacts : Artifacts} (hemit : Artifacts.emit s.documentSuffix c.forest = .ok artifacts) :
    (∀ doc ∈ artifacts.documents, ∃ root ∈ g.roots, doc.record = root.name ∧
      doc.fileName = root.simpleName ++ s.documentSuffix ++ ".json" ∧
      ((Path.mk doc.fileName).names = [doc.fileName] ↔ '/' ∉ root.simpleName.toList) ∧
      ('/' ∉ root.simpleName.toList → ∀ working,
        (s.layout.documentPath doc.fileName).location working =
          (s.layout.outDir.join s.layout.schemaDir).location working ++ [doc.fileName])) ∧
    ((∀ root ∈ g.roots, '/' ∉ root.simpleName.toList) →
      ∀ (fs : FileSystem) (journal : Journal), fs.opened = none →
        ∀ location,
          (fs.run (artifacts.write s.layout journal.note)).2.content? location ≠
            fs.content? location →
          (∃ doc ∈ artifacts.documents, ∃ name,
            (name = doc.fileName ∨ name = Path.temporaryName doc.fileName) ∧
              location =
                (s.layout.outDir.join s.layout.schemaDir).location fs.working ++ [name]) ∨
          ∃ path, (path = s.layout.aggregatePath ∨ s.layout.aggregatePath.temporary? = some path) ∧
            location = path.location fs.working) := by
  obtain ⟨hartifacts, -⟩ := Artifacts.emit_eq_ok_iff.mp hemit
  have hdocuments : artifacts.documents = c.forest.map (Artifacts.document s.documentSuffix) := by
    rw [hartifacts]
  constructor
  · intro doc hdoc
    rw [hdocuments] at hdoc
    obtain ⟨schema, hschema, rfl⟩ := List.mem_map.mp hdoc
    obtain ⟨root, hroot, hrecord, hsimple⟩ := exists_root_of_schema hc hschema
    refine ⟨root, hroot, hrecord, ?_, ?_, ?_⟩
    · rw [← hsimple]
      rfl
    · rw [← hsimple]
      exact Document.names_fileName_iff hs
    · intro hplain working
      rw [← hsimple] at hplain
      exact s.layout.location_documentPath (Artifacts.plain_fileName hs hplain) working
  · intro hplain fs journal hopened location hchanged
    have hkeeps := artifacts.keepsClosed_write s.layout journal fs hopened
    -- a file that is changed is at one of the paths
    have hpath : ∃ path ∈ FileSystem.changedPaths (artifacts.files s.layout),
        path.location fs.working = location := by
      by_contra hnone
      exact hchanged (hkeeps.content? fun path hpath heq => hnone ⟨path, hpath, heq⟩)
    obtain ⟨path, hpath, rfl⟩ := hpath
    obtain ⟨file, hfile, hpath⟩ := List.mem_flatMap.mp hpath
    rcases (Artifacts.mem_files_iff hemit).mp hfile with ⟨schema, hschema, rfl⟩ | ⟨table, -, rfl⟩
    · obtain ⟨root, hroot, -, hsimple⟩ := exists_root_of_schema hc hschema
      have hslash : '/' ∉ (Document.fileName schema.simpleName s.documentSuffix).toList :=
        Artifacts.plain_fileName hs (hsimple ▸ hplain root hroot)
      refine .inl ⟨Artifacts.document s.documentSuffix schema, ?_, ?_⟩
      · rw [hdocuments]
        exact List.mem_map_of_mem hschema
      · rcases List.mem_cons.mp hpath with rfl | hpath
        · exact ⟨_, .inl rfl, s.layout.location_documentPath hslash fs.working⟩
        · exact ⟨_, .inr rfl, s.layout.location_temporary_documentPath hslash
            (Option.mem_toList.mp hpath) fs.working⟩
    · rcases List.mem_cons.mp hpath with rfl | hpath
      · exact .inr ⟨_, .inl rfl, rfl⟩
      · exact .inr ⟨_, .inr (Option.mem_toList.mp hpath), rfl⟩

/-! ### Gates -/

/-- A gate with a name, and nothing else. -/
def gateGraph (name : String) : Graph where
  records := [{ name, root := some ⟨some "gates"⟩, properties := [] }]
  enums := []
  pending := []

def gateSchema (name simpleName : String) : CompiledSchema :=
  ⟨name, simpleName, "gates", .object [] []⟩

theorem compile_gateGraph (name simpleName : String)
    (h : Record.simpleName { name, root := some ⟨some "gates"⟩, properties := [] } = simpleName) :
    (gateGraph name).compile = .ok ⟨[gateSchema name simpleName], [], .empty⟩ := by
  subst h
  have hwellFormed : (gateGraph name).WellFormed := by
    refine ⟨?_, ?_, ?_, ?_, ?_⟩ <;> simp [gateGraph]
  have hbuild : (gateGraph name).build .empty
      { name, root := some ⟨some "gates"⟩, properties := [] } = .ok (.object [] []) :=
    Builder.buildFrom_eq_ok_iff.mpr ⟨[], .nil, rfl⟩
  refine compile_eq_ok_iff.mpr ⟨hwellFormed, rfl, [.compiled (gateSchema name _)], ?_, rfl, rfl⟩
  exact .cons (settle_eq_compiled_iff.mpr ⟨rfl, "gates", _, rfl, hbuild, rfl⟩) .nil

theorem emit_gateSchema (name simpleName : String) :
    Artifacts.emit Settings.default.documentSuffix [gateSchema name simpleName] =
      .ok ⟨[Artifacts.document "Schema" (gateSchema name simpleName)],
        Artifacts.tableOf [Artifacts.document "Schema" (gateSchema name simpleName)]⟩ :=
  Artifacts.emit_eq_ok_iff.mpr ⟨rfl, List.pairwise_singleton ..⟩

theorem check_default : Settings.default.check = .ok Settings.default := rfl

theorem documents_in_directory_gate :
    ∃ c artifacts, (gateGraph "water.Gate").compile = .ok c ∧
      Artifacts.emit Settings.default.documentSuffix c.forest = .ok artifacts ∧
      artifacts.documents.map (·.fileName) = ["GateSchema.json"] ∧
      ∀ doc ∈ artifacts.documents,
        (Settings.default.layout.documentPath doc.fileName).location ["home"] =
          ["home", "generated", "schema", "GateSchema.json"] := by
  have hcompile := compile_gateGraph "water.Gate" "Gate" (by decide)
  have hemit := emit_gateSchema "water.Gate" "Gate"
  obtain ⟨hplaces, -⟩ := documents_in_directory hcompile check_default hemit
  refine ⟨_, _, hcompile, hemit, by decide, fun doc hdoc => ?_⟩
  obtain ⟨root, hroot, -, -, -, hplace⟩ := hplaces doc hdoc
  obtain rfl := List.mem_singleton.mp hdoc
  obtain rfl := List.mem_singleton.mp hroot
  exact hplace (by decide) ["home"]

/-- A document whose name leads into a directory of its own. -/
theorem document_outside :
    ¬ ∀ (g : Graph) (c : Compiled) (s : Settings) (artifacts : Artifacts), g.compile = .ok c →
      s.check = .ok s → Artifacts.emit s.documentSuffix c.forest = .ok artifacts →
      ∀ doc ∈ artifacts.documents, (Path.mk doc.fileName).names = [doc.fileName] := by
  intro h
  have hcompile := compile_gateGraph "a/Gate" "a/Gate" (by decide)
  have hnames := h _ _ _ _ hcompile check_default (emit_gateSchema "a/Gate" "a/Gate") _
    List.mem_cons_self
  exact absurd hnames (by decide)

end Graph

end CollectionSchema
