import CollectionSchema.Proofs.AtomicWrites

/-!
# Files that are written one after another

Such files hold, in the end, the last text that is written to their location
(`FileSystem.read_of_wrote`), if no file is written under the name of an earlier one. So all of
them hold their own texts exactly if those that share a location share their text
(`FileSystem.forall_read_iff`).
-/

namespace CollectionSchema

theorem Bytes.ofText_injective {a b : String} (h : ofText a = ofText b) : a = b :=
  String.toByteArray_inj.mp (ByteArray.ext (Array.toList_inj.mp h))

namespace FileSystem

variable {fs fs' middle : FileSystem} {files : List (Path × String)}

/-- Files that are written one after another, all with success. -/
inductive Wrote : FileSystem → List (Path × String) → FileSystem → Prop
  | nil (fs : FileSystem) : Wrote fs [] fs
  | cons {fs middle fs' : FileSystem} {file : Path × String} {rest : List (Path × String)} :
      fs.run (Storage.writeAtomically file.1 (.ofText file.2)) = (.ok (), middle) →
        Wrote middle rest fs' → Wrote fs (file :: rest) fs'

theorem Wrote.append {others : List (Path × String)} (h : Wrote fs files middle)
    (h' : Wrote middle others fs') : Wrote fs (files ++ others) fs' := by
  induction h with
  | nil fs => exact h'
  | cons hfirst _ ih => exact .cons hfirst (ih h')

/-- The paths that writing files may change. -/
def changedPaths (files : List (Path × String)) : List Path :=
  files.flatMap fun file => file.1 :: file.1.temporary?.toList

theorem keeps_wrote (h : Wrote fs files fs') : Keeps (changedPaths files) fs fs' := by
  induction h with
  | nil fs => exact .rfl
  | @cons fs middle fs' file rest hfile _ ih =>
    have hfirst := keeps_writeAtomically file.1 (.ofText file.2) fs
    rw [hfile] at hfirst
    have hsplit : changedPaths (file :: rest) =
        (file.1 :: file.1.temporary?.toList) ++ changedPaths rest := List.flatMap_cons
    rw [hsplit]
    exact (hfirst.mono (List.subset_append_left _ _)).trans
      (ih.mono (List.subset_append_right _ _))

/-- The text of the last file, of those that are written, at a location. -/
def lastText? (working location : Location) : List (Path × String) → Option String
  | [] => none
  | file :: rest =>
    (lastText? working location rest).or
      (if file.1.location working = location then some file.2 else none)

theorem lastText?_isSome_iff {working location : Location} :
    (lastText? working location files).isSome ↔
      ∃ file ∈ files, file.1.location working = location := by
  induction files with
  | nil => simp [lastText?]
  | cons file rest ih =>
    rw [lastText?, Option.isSome_or, Bool.or_eq_true, ih]
    by_cases h : file.1.location working = location
    · simp [h]
    · simp [h]

/-- A file is not written under the name of another one. -/
def Undisturbed (working : Location) (file later : Path × String) : Prop :=
  ∀ temporary ∈ later.1.temporary?, temporary.location working ≠ file.1.location working

theorem lastText?_eq_none_iff {working location : Location} :
    lastText? working location files = none ↔
      ∀ file ∈ files, file.1.location working ≠ location := by
  rw [← Option.not_isSome_iff_eq_none, lastText?_isSome_iff]
  simp

theorem reaches_of_wrote (h : Wrote fs files fs') {file : Path × String} (hfile : file ∈ files) :
    fs'.Reaches file.1 := by
  induction h with
  | nil fs => cases hfile
  | cons hfirst hrest ih =>
    rcases List.mem_cons.mp hfile with rfl | hfile
    · have hread := read_eq_ok_iff.mp (read_of_writeAtomically hfirst)
      exact (keeps_wrote hrest).reaches hread.1
    · exact ih hfile

/-- A location holds the last text that is written there. -/
theorem get?_of_wrote (h : Wrote fs files fs') (hnames : files.Pairwise (Undisturbed fs.working))
    {location : Location} {text : String} (hlast : lastText? fs.working location files = some text) :
    fs'.get? location = some (.file (.ofText text)) := by
  induction h with
  | nil fs => cases hlast
  | @cons fs middle fs' first rest hfirst hrest ih =>
    have hworking : middle.working = fs.working := by
      have hkeeps := keeps_writeAtomically first.1 (.ofText first.2) fs
      rw [hfirst] at hkeeps
      exact hkeeps.working
    rw [← hworking] at hnames hlast
    obtain ⟨hnot, hnames⟩ := List.pairwise_cons.mp hnames
    rw [lastText?] at hlast
    cases hlater : lastText? middle.working location rest with
    | some later =>
      rw [hlater, Option.some_or] at hlast
      cases hlast
      exact ih hnames hlater
    | none =>
      rw [hlater, Option.none_or] at hlast
      split at hlast
      · next hlocation =>
        cases hlast
        have hread := (read_eq_ok_iff.mp (read_of_writeAtomically hfirst)).2
        rw [hlocation] at hread
        refine ((keeps_wrote hrest).file location (fun p hp => ?_) _).mpr hread
        obtain ⟨file, hfile, hp⟩ := List.mem_flatMap.mp hp
        rcases List.mem_cons.mp hp with rfl | hp
        · exact lastText?_eq_none_iff.mp hlater file hfile
        · rw [← hlocation]
          exact hnot file hfile p (Option.mem_toList.mp hp)
      · cases hlast

/-- **A file holds the last text that is written to its location.** -/
theorem read_of_wrote (h : Wrote fs files fs') (hnames : files.Pairwise (Undisturbed fs.working))
    {file : Path × String} (hfile : file ∈ files) :
    ∃ text, lastText? fs.working (file.1.location fs.working) files = some text ∧
      fs'.read file.1 = .ok (.ofText text) := by
  obtain ⟨text, htext⟩ := Option.isSome_iff_exists.mp
    (lastText?_isSome_iff.mpr ⟨file, hfile, Eq.refl (file.1.location fs.working)⟩)
  refine ⟨text, htext, read_eq_ok_iff.mpr ⟨reaches_of_wrote h hfile, ?_⟩⟩
  rw [(keeps_wrote h).working]
  exact get?_of_wrote h hnames htext

theorem exists_of_lastText? {working location : Location} {text : String}
    (h : lastText? working location files = some text) :
    ∃ file ∈ files, file.1.location working = location ∧ file.2 = text := by
  induction files with
  | nil => cases h
  | cons file rest ih =>
    rw [lastText?] at h
    rcases Option.or_eq_some_iff.mp h with h | ⟨-, h⟩
    · obtain ⟨other, hother, hlocation⟩ := ih h
      exact ⟨other, List.mem_cons_of_mem _ hother, hlocation⟩
    · split at h
      · next hlocation =>
        cases h
        exact ⟨file, List.mem_cons_self, hlocation, rfl⟩
      · cases h

/-- **All files hold their own texts exactly if those at the same location have the same
text.** -/
theorem forall_read_iff (h : Wrote fs files fs') (hnames : files.Pairwise (Undisturbed fs.working)) :
    (∀ file ∈ files, fs'.read file.1 = .ok (.ofText file.2)) ↔
      ∀ a ∈ files, ∀ b ∈ files, a.1.location fs.working = b.1.location fs.working →
        a.2 = b.2 := by
  constructor
  · intro hread a ha b hb hlocation
    obtain ⟨text, hlast, htext⟩ := read_of_wrote h hnames ha
    obtain ⟨text', hlast', htext'⟩ := read_of_wrote h hnames hb
    rw [hread a ha, Except.ok.injEq] at htext
    rw [hread b hb, Except.ok.injEq] at htext'
    rw [hlocation, hlast', Option.some.injEq] at hlast
    rw [Bytes.ofText_injective htext, Bytes.ofText_injective htext', hlast]
  · intro hsame file hfile
    obtain ⟨text, hlast, htext⟩ := read_of_wrote h hnames hfile
    obtain ⟨other, hother, hlocation, rfl⟩ := exists_of_lastText? hlast
    rw [htext, hsame other hother file hfile hlocation]

end FileSystem

end CollectionSchema
