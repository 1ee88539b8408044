import CollectionSchema.Artifact.Write
import CollectionSchema.Proofs.Emission
import CollectionSchema.Proofs.JournalNotes
import CollectionSchema.Proofs.WrittenFiles
import CollectionSchema.Settings
import Mathlib.Data.List.Pairwise

/-!
# What written artifacts hold

Artifacts are files that are written one after another (`wrote_of_write`). The name of a document
ends in `.json`, and a name that is in use only while a file is written does not, so no artifact
is written under the name of an earlier document (`undisturbed_files`).
-/

namespace CollectionSchema

/-! ## The files of a layout -/

/-- Settings pass if the suffix of documents has no separator in it and the table has a name. -/
theorem Settings.check_eq_ok_iff {s : Settings} : s.check = .ok s ↔
    (∀ c ∈ s.documentSuffix.toList, isSeparator c = false) ∧
      ∃ name, s.layout.aggregateFile.fileName? = some name := by
  unfold check
  by_cases hseparator : s.documentSuffix.toList.any isSeparator = true
  · rw [if_pos hseparator]
    obtain ⟨c, hc, hsep⟩ := List.any_eq_true.mp hseparator
    constructor
    · intro h
      cases h
    · intro h
      rw [h.1 c hc] at hsep
      cases hsep
  · rw [if_neg hseparator]
    have hnone : ∀ c ∈ s.documentSuffix.toList, isSeparator c = false := by
      simpa using hseparator
    cases s.layout.aggregateFile.fileName? with
    | none => simp
    | some name => simpa using hnone

namespace Document

theorem toList_fileName (simpleName suffix : String) :
    (fileName simpleName suffix).toList = (simpleName ++ suffix).toList ++ ".json".toList := by
  rw [fileName, String.toList_append]

theorem isStep_append_ending (start : List Char) :
    Path.isStep (start ++ ".json".toList) = true := by
  rw [Path.isStep, Bool.and_eq_true, bne_iff_ne, bne_iff_ne]
  constructor
  · intro heq
    simpa using congrArg List.length heq
  · intro heq
    simpa using congrArg List.length heq

theorem ne_dots (start : List Char) : String.ofList (start ++ ".json".toList) ≠ ".." := by
  intro heq
  have hchars := congrArg (·.toList.getLast?) heq
  simp at hchars

end Document

namespace Layout

/-- The name of a document ends in `.json`. -/
theorem fileName?_documentPath (layout : Layout) (simpleName suffix : String) :
    ∃ start, (layout.documentPath (Document.fileName simpleName suffix)).fileName? =
      some (String.ofList (start ++ ".json".toList)) := by
  obtain ⟨start, hlast⟩ := Path.exists_getLast?_names (by decide) Document.isStep_append_ending
    (simpleName ++ suffix)
  refine ⟨start, Path.fileName?_join (Path.fileName?_eq_some_iff.mpr ⟨hlast, ?_⟩) _⟩
  exact Document.ne_dots start

/-- A document whose name has no slash lies directly in the directory of the documents. -/
theorem location_documentPath (layout : Layout) {simpleName suffix : String}
    (hslash : '/' ∉ (Document.fileName simpleName suffix).toList) (working : Location) :
    (layout.documentPath (Document.fileName simpleName suffix)).location working =
      (layout.outDir.join layout.schemaDir).location working ++
        [Document.fileName simpleName suffix] := by
  have hstep : Path.isStep (Document.fileName simpleName suffix).toList = true := by
    rw [Document.toList_fileName]
    exact Document.isStep_append_ending _
  have hback : Document.fileName simpleName suffix ≠ ".." := by
    rw [← String.ofList_toList (s := Document.fileName simpleName suffix),
      Document.toList_fileName]
    exact Document.ne_dots _
  rw [documentPath, Path.location_join (Path.isAbsolute_of_not_mem hslash),
    Path.names_of_not_mem hslash hstep, Path.resolve_singleton _ hback]

end Layout

namespace Artifacts

/-- The files of artifacts, in the order in which they are written. -/
def files (artifacts : Artifacts) (layout : Layout) : List (Path × String) :=
  (artifacts.documents.map fun doc => (layout.documentPath doc.fileName, doc.text)) ++
    artifacts.table.toList.map fun table => (layout.aggregatePath, table.sourceText)

variable {fs fs' : FileSystem} {journal : Journal} {layout : Layout}

theorem path_of_writeFile {note : Event → StateM FileSystem Unit} {event : Event}
    {path written : Path} {text : String}
    (h : fs.run (writeFile note event path text) = (.ok written, fs')) : written = path := by
  obtain ⟨⟨⟩, middle, -, h⟩ := FileSystem.run_bind_eq_ok_iff.mp h
  obtain ⟨⟨⟩, noted, -, h⟩ := FileSystem.run_bind_eq_ok_iff.mp h
  cases h
  rfl

theorem paths_of_mapM {note : Event → StateM FileSystem Unit} {documents : List SchemaDocument}
    {paths : List Path}
    (h : fs.run (documents.mapM fun doc =>
      writeFile note .documentWritten (layout.documentPath doc.fileName) doc.text) =
        (.ok paths, fs')) : paths = documents.map (layout.documentPath ·.fileName) := by
  induction documents generalizing fs paths with
  | nil =>
    cases h
    rfl
  | cons doc documents ih =>
    rw [List.mapM_cons] at h
    obtain ⟨path, middle, hdoc, h⟩ := FileSystem.run_bind_eq_ok_iff.mp h
    obtain ⟨rest, last, hrest, h⟩ := FileSystem.run_bind_eq_ok_iff.mp h
    cases h
    rw [path_of_writeFile hdoc, ih hrest, List.map_cons]

/-- The paths of all artifacts are told. -/
theorem paths_of_write {note : Event → StateM FileSystem Unit} {artifacts : Artifacts}
    {written : WrittenArtifacts}
    (h : fs.run (artifacts.write layout note) = (.ok written, fs')) :
    written.documents = artifacts.documents.map (layout.documentPath ·.fileName) ∧
      written.aggregate = artifacts.table.map fun _ => layout.aggregatePath := by
  obtain ⟨documents, table⟩ := artifacts
  obtain ⟨paths, middle, hdocuments, h⟩ := FileSystem.run_bind_eq_ok_iff.mp h
  cases table with
  | none =>
    cases h
    exact ⟨paths_of_mapM hdocuments, rfl⟩
  | some table =>
    obtain ⟨path, last, htable, h⟩ := FileSystem.run_bind_eq_ok_iff.mp h
    cases h
    exact ⟨paths_of_mapM hdocuments, congrArg some (path_of_writeFile htable)⟩

theorem run_writeFile (hopened : fs.opened = none) {event : Event} {path written : Path}
    {text : String} (h : fs.run (writeFile journal.note event path text) = (.ok written, fs')) :
    fs.run (Storage.writeAtomically path (.ofText text)) = (.ok (), fs') ∧
      fs'.opened = none := by
  obtain ⟨⟨⟩, middle, hwrite, h⟩ := FileSystem.run_bind_eq_ok_iff.mp h
  obtain ⟨⟨⟩, noted, hnote, h⟩ := FileSystem.run_bind_eq_ok_iff.mp h
  have hmiddle : middle.opened = none := by
    have hkeeps := FileSystem.keeps_writeAtomically path (.ofText text) fs
    rw [hwrite] at hkeeps
    exact hkeeps.opened hopened
  rw [FileSystem.run_note, (FileSystem.onlyLogged_noted journal event).closed hmiddle] at hnote
  cases hnote
  cases h
  exact ⟨hwrite, hmiddle⟩

theorem wrote_of_mapM {documents : List SchemaDocument} (hopened : fs.opened = none)
    {paths : List Path}
    (h : fs.run (documents.mapM fun doc =>
      writeFile journal.note .documentWritten (layout.documentPath doc.fileName) doc.text) =
        (.ok paths, fs')) :
    FileSystem.Wrote fs
        (documents.map fun doc => (layout.documentPath doc.fileName, doc.text)) fs' ∧
      fs'.opened = none := by
  induction documents generalizing fs paths with
  | nil =>
    cases h
    exact ⟨.nil _, hopened⟩
  | cons doc documents ih =>
    rw [List.mapM_cons] at h
    obtain ⟨path, middle, hdoc, h⟩ := FileSystem.run_bind_eq_ok_iff.mp h
    obtain ⟨rest, last, hrest, h⟩ := FileSystem.run_bind_eq_ok_iff.mp h
    cases h
    obtain ⟨hwrite, hmiddle⟩ := run_writeFile hopened hdoc
    obtain ⟨hwrote, hopened⟩ := ih hmiddle hrest
    exact ⟨.cons hwrite hwrote, hopened⟩

/-- Artifacts are written one after another. -/
theorem wrote_of_write {artifacts : Artifacts} {written : WrittenArtifacts}
    (hopened : fs.opened = none)
    (h : fs.run (artifacts.write layout journal.note) = (.ok written, fs')) :
    FileSystem.Wrote fs (artifacts.files layout) fs' := by
  obtain ⟨documents, table⟩ := artifacts
  obtain ⟨paths, middle, hdocuments, h⟩ := FileSystem.run_bind_eq_ok_iff.mp h
  obtain ⟨hwrote, hmiddle⟩ := wrote_of_mapM hopened hdocuments
  cases table with
  | none =>
    cases h
    simpa [files] using hwrote
  | some table =>
    obtain ⟨path, last, htable, h⟩ := FileSystem.run_bind_eq_ok_iff.mp h
    cases h
    exact hwrote.append (.cons (run_writeFile hmiddle htable).1 (.nil _))

/-- A name that is in use while a file is written is not that of a document. -/
theorem undisturbed_documentPath {working : Location} {simpleName suffix text : String}
    (later : Path × String) : FileSystem.Undisturbed working
      (layout.documentPath (Document.fileName simpleName suffix), text) later := by
  intro temporary htemporary heq
  obtain ⟨start, hname⟩ := layout.fileName?_documentPath simpleName suffix
  obtain ⟨name, -, hlocation⟩ := Path.location_temporary htemporary working
  have hlast := Path.getLast?_location hname working
  rw [← heq, hlocation, List.getLast?_concat, Option.some.injEq] at hlast
  have hchars := congrArg (·.toList.getLast?) hlast
  simp [Path.getLast?_temporaryName] at hchars

variable {suffix : String} {forest : List CompiledSchema} {artifacts : Artifacts}

/-- No artifact is written under the name of an earlier one. -/
theorem undisturbed_files {working : Location} (hemit : emit suffix forest = .ok artifacts) :
    (artifacts.files layout).Pairwise (FileSystem.Undisturbed working) := by
  obtain ⟨rfl, -⟩ := emit_eq_ok_iff.mp hemit
  have hdocument : ∀ file ∈ (forest.map (document suffix)).map
      fun doc => (layout.documentPath doc.fileName, doc.text),
      ∀ later, FileSystem.Undisturbed working file later := by
    intro file hfile later
    obtain ⟨doc, hdoc, rfl⟩ := List.mem_map.mp hfile
    obtain ⟨schema, -, rfl⟩ := List.mem_map.mp hdoc
    exact undisturbed_documentPath later
  refine List.pairwise_append.mpr ⟨?_, ?_, fun file hfile later _ => hdocument file hfile later⟩
  · exact List.pairwise_of_forall_mem_list fun file hfile later _ => hdocument file hfile later
  · cases tableOf (forest.map (document suffix)) with
    | none => exact .nil
    | some table => exact List.pairwise_singleton _ _

theorem mem_files_iff (hemit : emit suffix forest = .ok artifacts) {file : Path × String} :
    file ∈ artifacts.files layout ↔
      (∃ schema ∈ forest, file =
        (layout.documentPath (document suffix schema).fileName, (document suffix schema).text)) ∨
      ∃ table ∈ artifacts.table, file = (layout.aggregatePath, table.sourceText) := by
  obtain ⟨rfl, -⟩ := emit_eq_ok_iff.mp hemit
  simp [files, eq_comm]

theorem plain_fileName {s : Settings} (hs : s.check = .ok s) {simpleName : String}
    (hplain : '/' ∉ simpleName.toList) :
    '/' ∉ (Document.fileName simpleName s.documentSuffix).toList := by
  have hsuffix := (Settings.check_eq_ok_iff.mp hs).1 '/'
  rw [Document.toList_fileName]
  simp only [String.toList_append, List.mem_append, not_or]
  refine ⟨⟨hplain, fun hmem => ?_⟩, by decide⟩
  exact absurd (hsuffix hmem) (by decide)

theorem text_eq_of_fileName_eq (hemit : emit suffix forest = .ok artifacts)
    {a b : CompiledSchema} (ha : a ∈ forest) (hb : b ∈ forest)
    (h : (document suffix a).fileName = (document suffix b).fileName) :
    (document suffix a).text = (document suffix b).text := by
  obtain ⟨-, hapart⟩ := emit_eq_ok_iff.mp hemit
  let R := fun a b : CompiledSchema =>
    (document suffix a).fileName = (document suffix b).fileName →
      (document suffix a).text = (document suffix b).text
  have hsymmetric : Std.Symm R := ⟨fun a b h heq => (h heq.symm).symm⟩
  have hpairwise : forest.Pairwise R := hapart.imp fun h heq => absurd heq h.2
  exact hpairwise.forall_of_forall (fun _ _ _ => rfl) ha hb h

/-- Artifacts with the same location have the same text, if the names of the documents have no
slashes and the table is not called like a document. -/
theorem text_eq_of_location_eq {s : Settings} (hs : s.check = .ok s)
    (hemit : emit s.documentSuffix forest = .ok artifacts)
    (hplain : ∀ schema ∈ forest, '/' ∉ schema.simpleName.toList)
    (htable : ∀ name, s.layout.aggregateFile.fileName? = some name →
      ¬ ".json".toList <:+ name.toList) (working : Location) :
    ∀ a ∈ artifacts.files s.layout, ∀ b ∈ artifacts.files s.layout,
      a.1.location working = b.1.location working → a.2 = b.2 := by
  obtain ⟨-, name, hname⟩ := Settings.check_eq_ok_iff.mp hs
  have hbetween : ∀ schema : CompiledSchema,
      (s.layout.documentPath (document s.documentSuffix schema).fileName).location working ≠
        s.layout.aggregatePath.location working := by
    intro schema heq
    obtain ⟨start, hlast⟩ :=
      s.layout.fileName?_documentPath schema.simpleName s.documentSuffix
    have hdocument := (congrArg List.getLast? heq).symm.trans (Path.getLast?_location hlast working)
    rw [Layout.aggregatePath, Path.getLast?_location (Path.fileName?_join hname _) working,
      Option.some.injEq] at hdocument
    refine htable name hname ⟨start, ?_⟩
    rw [hdocument]
    exact String.toList_ofList.symm
  intro a ha b hb hlocation
  rcases (mem_files_iff hemit).mp ha with ⟨x, hx, rfl⟩ | ⟨table, htable, rfl⟩
  · rcases (mem_files_iff hemit).mp hb with ⟨y, hy, rfl⟩ | ⟨table, htable, rfl⟩
    · refine text_eq_of_fileName_eq hemit hx hy ?_
      simp only [document, s.layout.location_documentPath (plain_fileName hs (hplain x hx)) working,
        s.layout.location_documentPath (plain_fileName hs (hplain y hy)) working] at hlocation
      exact List.singleton_inj.mp (List.append_cancel_left hlocation)
    · exact absurd hlocation (hbetween x)
  · rcases (mem_files_iff hemit).mp hb with ⟨y, hy, rfl⟩ | ⟨other, hother, rfl⟩
    · exact absurd hlocation.symm (hbetween y)
    · rw [Option.mem_def] at htable hother
      rw [htable, Option.some.injEq] at hother
      rw [hother]

/-- **Every artifact holds its own text exactly if artifacts at the same location have the same
text.** Otherwise a location holds the text that was written there last. File names that are
different are not enough: they may lead to the same location, or to that of the table. -/
theorem written_hold_iff {s : Settings} (hs : s.check = .ok s)
    (hemit : emit s.documentSuffix forest = .ok artifacts) (hopened : fs.opened = none)
    {written : WrittenArtifacts}
    (hwrite : fs.run (artifacts.write s.layout journal.note) = (.ok written, fs')) :
    (written.documents = artifacts.documents.map (s.layout.documentPath ·.fileName) ∧
      written.aggregate = artifacts.table.map fun _ => s.layout.aggregatePath) ∧
    (∀ file ∈ artifacts.files s.layout, ∃ text,
      FileSystem.lastText? fs.working (file.1.location fs.working) (artifacts.files s.layout) =
        some text ∧ fs'.read file.1 = .ok (.ofText text)) ∧
    ((∀ file ∈ artifacts.files s.layout, fs'.read file.1 = .ok (.ofText file.2)) ↔
      ∀ a ∈ artifacts.files s.layout, ∀ b ∈ artifacts.files s.layout,
        a.1.location fs.working = b.1.location fs.working → a.2 = b.2) ∧
    ((∀ schema ∈ forest, '/' ∉ schema.simpleName.toList) →
      (∀ name, s.layout.aggregateFile.fileName? = some name →
        ¬ ".json".toList <:+ name.toList) →
      ∀ file ∈ artifacts.files s.layout, fs'.read file.1 = .ok (.ofText file.2)) := by
  have hwrote := wrote_of_write hopened hwrite
  have hnames : (artifacts.files s.layout).Pairwise (FileSystem.Undisturbed fs.working) :=
    undisturbed_files hemit
  refine ⟨paths_of_write hwrite, fun file hfile => FileSystem.read_of_wrote hwrote hnames hfile,
    FileSystem.forall_read_iff hwrote hnames, fun hplain htable => ?_⟩
  apply (FileSystem.forall_read_iff hwrote hnames).mpr
  exact text_eq_of_location_eq hs hemit hplain htable fs.working

/-! ## Gates -/

/-- Two schemas, in different collections and with different nodes. -/
def gates (first second : String) : List CompiledSchema :=
  [⟨first, first, "gates", .object [] []⟩,
    ⟨second, second, "sluices", .object ["open"] [("open", .ofType ⟨.bool, false⟩)]⟩]

def gateSettings : Settings := ⟨⟨⟨"out"⟩, ⟨""⟩, ⟨"all.rs"⟩⟩, "", false⟩

def gateArtifacts (first second : String) : Artifacts :=
  ⟨(gates first second).map (document ""), tableOf ((gates first second).map (document ""))⟩

def writeGates (first second : String) :
    ExceptT WriteError (StateM FileSystem) WrittenArtifacts :=
  (gateArtifacts first second).write gateSettings.layout (Journal.note ⟨false, []⟩)

theorem emit_gates {first second : String} (h : first ++ "" ++ ".json" ≠ second ++ "" ++ ".json") :
    emit gateSettings.documentSuffix (gates first second) = .ok (gateArtifacts first second) := by
  have hcollections : "gates" ≠ "sluices" := by decide
  exact emit_eq_ok_iff.mpr ⟨rfl, List.pairwise_pair.mpr ⟨hcollections, h⟩⟩

theorem written_hold_iff_gates :
    ∃ written fs', (FileSystem.empty []).run (writeGates "Gate" "Sluice") = (.ok written, fs') ∧
      ∀ file ∈ (gateArtifacts "Gate" "Sluice").files gateSettings.layout,
        fs'.read file.1 = .ok (.ofText file.2) := by
  obtain ⟨written, fs', hwrite⟩ := FileSystem.exists_run_eq_ok
    (show ((FileSystem.empty []).run (writeGates "Gate" "Sluice")).1.toBool = true by
      decide +kernel)
  obtain ⟨-, -, -, hplain⟩ := written_hold_iff rfl (emit_gates (by decide)) rfl hwrite
  refine ⟨written, fs', hwrite, hplain (by decide) fun name hname => ?_⟩
  cases hname
  decide

theorem gate_overwritten :
    ¬ ∀ (s : Settings) (forest : List CompiledSchema) (artifacts : Artifacts) (journal : Journal)
      (fs fs' : FileSystem) (written : WrittenArtifacts), s.check = .ok s →
      emit s.documentSuffix forest = .ok artifacts → fs.opened = none →
      fs.run (artifacts.write s.layout journal.note) = (.ok written, fs') →
      ∀ file ∈ artifacts.files s.layout, fs'.read file.1 = .ok (.ofText file.2) := by
  intro h
  obtain ⟨written, fs', hwrite⟩ := FileSystem.exists_run_eq_ok
    (show ((FileSystem.empty []).run (writeGates "a/Gate" "a//Gate")).1.toBool = true by
      decide +kernel)
  have hemit : emit gateSettings.documentSuffix (gates "a/Gate" "a//Gate") =
      .ok (gateArtifacts "a/Gate" "a//Gate") := emit_gates (by decide)
  have hread := h _ _ _ _ _ _ _ rfl hemit rfl hwrite
  have hwrote := wrote_of_write rfl hwrite
  have hsame := (FileSystem.forall_read_iff hwrote (undisturbed_files hemit)).mp hread
  have htexts := hsame _ List.mem_cons_self _ (List.mem_cons_of_mem _ List.mem_cons_self)
    (by decide +kernel)
  exact absurd htexts (by decide +kernel)

end Artifacts

end CollectionSchema
