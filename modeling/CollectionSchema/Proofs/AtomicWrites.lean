import CollectionSchema.Proofs.FileRuns
import CollectionSchema.Proofs.Locations

/-!
# What atomic writes change

An atomic write, whatever comes of it, changes no file but the one at its path and the one that
it is written under (`keeps_writeAtomically`). If it succeeds, its path holds the data
(`read_of_writeAtomically`).

A path that a file system reaches (`FileSystem.Reaches`) stays within reach, because directories
stay; what it holds is then a matter of its location alone (`read_eq_ok_iff`).
-/

namespace CollectionSchema.FileSystem

variable {fs fs' : FileSystem} {p q : Path} {location : Location} {data : Bytes}

/-! ## Paths within reach -/

/-- The way of a path is open, and the path may stand for a file. -/
structure Reaches (fs : FileSystem) (p : Path) : Prop where
  way : fs.locatePath p = .ok (p.location fs.working)
  ending : p.ending = .name

theorem get?_nil : fs.get? [] = some .directory := rfl

theorem locatePath_eq_ok_iff : fs.locatePath p = .ok location ↔
    fs.locatePath p = .ok (p.location fs.working) ∧ location = p.location fs.working := by
  constructor
  · intro h
    have hlocation := location_of_locatePath h
    exact ⟨hlocation ▸ h, hlocation⟩
  · rintro ⟨h, rfl⟩
    exact h

theorem locateFile_eq_ok_iff : fs.locateFile p = .ok location ↔
    fs.Reaches p ∧ location = p.location fs.working ∧ fs.get? location ≠ some .directory := by
  unfold locateFile
  rw [Outcome.bind_eq_ok_iff]
  constructor
  · rintro ⟨found, hway, h⟩
    split at h
    · cases h
    · next hnot =>
      cases h
      obtain ⟨hdirectory, hending⟩ := not_or.mp hnot
      obtain ⟨hway, rfl⟩ := locatePath_eq_ok_iff.mp hway
      exact ⟨⟨hway, not_not.mp hending⟩, rfl, hdirectory⟩
  · rintro ⟨⟨hway, hending⟩, rfl, hdirectory⟩
    refine ⟨_, hway, if_neg ?_⟩
    simp [hdirectory, hending]

/-- **A file is read at its location, if its path is within reach.** -/
theorem read_eq_ok_iff : fs.read p = .ok data ↔
    fs.Reaches p ∧ fs.get? (p.location fs.working) = some (.file data) := by
  unfold read find
  rw [Outcome.bind_eq_ok_iff]
  simp only [Outcome.bind_eq_ok_iff]
  constructor
  · rintro ⟨entry, ⟨found, hway, hentry⟩, hcontent⟩
    obtain ⟨hway, rfl⟩ := locatePath_eq_ok_iff.mp hway
    cases hget : fs.get? (p.location fs.working) with
    | none => rw [hget] at hentry; cases hentry
    | some there =>
      rw [hget] at hentry
      cases there with
      | directory => cases hentry; cases hcontent
      | file content =>
        simp only at hentry
        split at hentry
        · next hending =>
          cases hentry
          cases hcontent
          exact ⟨⟨hway, hending⟩, rfl⟩
        · cases hentry
  · rintro ⟨⟨hway, hending⟩, hget⟩
    refine ⟨.file data, ⟨_, hway, ?_⟩, rfl⟩
    rw [hget]
    exact if_pos hending

/-- The content of the file at a location, if there is one. -/
def content? (fs : FileSystem) (location : Location) : Option Bytes :=
  match fs.get? location with
  | some (.file content) => some content
  | _ => none

theorem content?_eq_some_iff {location : Location} {content : Bytes} :
    fs.content? location = some content ↔ fs.get? location = some (.file content) := by
  unfold content?
  split <;> simp_all

/-! ## What is kept -/

/-- What changes no files but those at some paths: the working directory and the directories
stay, and so do the other files. No file is opened. -/
structure Keeps (paths : List Path) (fs fs' : FileSystem) : Prop where
  working : fs'.working = fs.working
  opened : fs.opened = none → fs'.opened = none
  directory : ∀ location, fs.get? location = some .directory →
    fs'.get? location = some .directory
  file : ∀ location, (∀ p ∈ paths, p.location fs.working ≠ location) →
    ∀ content, fs'.get? location = some (.file content) ↔ fs.get? location = some (.file content)

namespace Keeps

variable {paths others : List Path}

theorem rfl : Keeps paths fs fs := ⟨.refl _, id, fun _ => id, fun _ _ _ => .rfl⟩

theorem trans {middle : FileSystem} (h : Keeps paths fs middle) (h' : Keeps paths middle fs') :
    Keeps paths fs fs' where
  working := h'.working.trans h.working
  opened hopened := h'.opened (h.opened hopened)
  directory location hlocation := h'.directory location (h.directory location hlocation)
  file location hlocation content :=
    (h'.file location (h.working ▸ hlocation) content).trans (h.file location hlocation content)

instance : IsPreorder FileSystem (Keeps paths) where
  refl _ := rfl
  trans _ _ _ := trans

theorem mono (h : Keeps paths fs fs') (hpaths : paths ⊆ others) : Keeps others fs fs' where
  working := h.working
  opened := h.opened
  directory := h.directory
  file location hlocation := h.file location fun p hp => hlocation p (hpaths hp)

theorem locate (h : Keeps paths fs fs') {start : Location} {names : List String}
    (hlocate : fs.locate start names = .ok location) : fs'.locate start names = .ok location := by
  induction names generalizing start with
  | nil => exact hlocate
  | cons name names ih =>
    cases hget : fs.get? start with
    | none => simp [FileSystem.locate, hget] at hlocate
    | some entry =>
      cases entry with
      | file content => simp [FileSystem.locate, hget] at hlocate
      | directory =>
        simp only [FileSystem.locate, hget, h.directory start hget] at hlocate ⊢
        by_cases hback : name = ".."
        · rw [if_pos hback] at hlocate ⊢
          exact ih hlocate
        · rw [if_neg hback] at hlocate ⊢
          split at hlocate
          · cases hlocate
          · next hlong =>
            rw [if_neg hlong]
            exact ih hlocate

/-- A way that is open stays open. -/
theorem locatePath (h : Keeps paths fs fs') (hway : fs.locatePath p = .ok location) :
    fs'.locatePath p = .ok location := by
  have hstart : fs'.start p = fs.start p := by rw [start, start, h.working]
  unfold FileSystem.locatePath at hway ⊢
  rw [hstart]
  split at hway
  · cases hway
  · next hnull =>
    split at hway
    · cases hway
    · next hlong =>
      split at hway
      · cases hway
      · next hempty =>
        rw [if_neg hnull, if_neg hlong, if_neg hempty]
        exact h.locate hway

theorem reaches (h : Keeps paths fs fs') (hp : fs.Reaches p) : fs'.Reaches p :=
  ⟨h.working ▸ h.locatePath hp.way, hp.ending⟩

theorem content? (h : Keeps paths fs fs')
    (hlocation : ∀ p ∈ paths, p.location fs.working ≠ location) :
    fs'.content? location = fs.content? location := by
  refine Option.ext fun content => ?_
  rw [content?_eq_some_iff, content?_eq_some_iff]
  exact h.file location hlocation content

/-- A file elsewhere is read as before. -/
theorem read (h : Keeps paths fs fs')
    (hp : ∀ q ∈ paths, q.location fs.working ≠ p.location fs.working)
    (hread : fs.read p = .ok data) : fs'.read p = .ok data := by
  obtain ⟨hreaches, hget⟩ := read_eq_ok_iff.mp hread
  rw [read_eq_ok_iff, h.working]
  exact ⟨h.reaches hreaches, (h.file _ hp data).mpr hget⟩

/-! ## Steps -/

theorem put_file (hthere : fs.get? location ≠ some .directory) {content : Bytes}
    (hlocation : ∃ p ∈ paths, p.location fs.working = location) :
    Keeps paths fs (fs.put location (.file content)) where
  working := .refl _
  opened := id
  directory other hother := by
    by_cases hroot : other = []
    · rw [hroot, get?_nil]
    · rw [get?_put hroot, if_neg (fun heq : other = location => hthere (heq ▸ hother))]
      exact hother
  file other hother content := by
    obtain ⟨p, hp, rfl⟩ := hlocation
    by_cases hroot : other = []
    · simp [hroot, get?_nil]
    · rw [get?_put hroot, if_neg (hother p hp).symm]

theorem put_directory (hfree : fs.get? location = none) :
    Keeps paths fs (fs.put location .directory) where
  working := .refl _
  opened := id
  directory other hother := by
    by_cases hroot : other = []
    · rw [hroot, get?_nil]
    · rw [get?_put hroot]
      split
      · rfl
      · exact hother
  file other _ content := by
    by_cases hroot : other = []
    · simp [hroot, get?_nil]
    · rw [get?_put hroot]
      split
      · next heq => simp [heq, hfree]
      · rfl

theorem move {source target : Location} {content : Bytes}
    (hsource : fs.get? source = some (.file content))
    (htarget : fs.get? target ≠ some .directory)
    (hpaths : ∀ location, location = source ∨ location = target →
      ∃ p ∈ paths, p.location fs.working = location) :
    Keeps paths fs (fs.move source content target) where
  working := .refl _
  opened hopened := by simp [FileSystem.move, openedAfterMove, hopened]
  directory other hother := by
    by_cases hroot : other = []
    · rw [hroot, get?_nil]
    · rw [get?_move hroot, if_neg (fun heq : other = target => htarget (heq ▸ hother)), if_neg]
      · exact hother
      · intro heq
        rw [heq, hsource] at hother
        cases hother
  file other hother content' := by
    by_cases hroot : other = []
    · simp [hroot, get?_nil]
    · rw [get?_move hroot, if_neg, if_neg]
      · intro heq
        obtain ⟨p, hp, hlocation⟩ := hpaths other (.inl heq)
        exact hother p hp hlocation
      · intro heq
        obtain ⟨p, hp, hlocation⟩ := hpaths other (.inr heq)
        exact hother p hp hlocation

theorem attempt {result : Except IoFailure FileSystem}
    (h : ∀ changed, result = .ok changed → Keeps paths fs changed) :
    Keeps paths fs (fs.attempt result).2 := by
  cases result with
  | error failure => exact rfl
  | ok changed => exact h changed (.refl _)

theorem put_of_locateFile (hp : p ∈ paths) (hlocate : fs.locateFile p = .ok location)
    (content : Bytes) : Keeps paths fs (fs.put location (.file content)) := by
  obtain ⟨-, rfl, hdirectory⟩ := locateFile_eq_ok_iff.mp hlocate
  exact put_file hdirectory ⟨p, hp, .refl _⟩

theorem createEmpty (hp : p ∈ paths) (h : fs.createEmpty p = .ok fs') : Keeps paths fs fs' := by
  obtain ⟨location, hlocate, h⟩ := Outcome.bind_eq_ok_iff.mp h
  cases h
  exact put_of_locateFile hp hlocate _

theorem write (hp : p ∈ paths) (h : fs.write p data = .ok fs') : Keeps paths fs fs' := by
  obtain ⟨location, hlocate, h⟩ := Outcome.bind_eq_ok_iff.mp h
  cases h
  exact put_of_locateFile hp hlocate _

end Keeps

/-- A file that is given another name is there under its old one, and no directory is in the way
of the new one. -/
theorem rename_eq_ok_iff : fs.rename p q = .ok fs' ↔
    fs.Reaches p ∧ fs.Reaches q ∧ fs.get? (q.location fs.working) ≠ some .directory ∧
      ∃ content, fs.get? (p.location fs.working) = some (.file content) ∧
        fs' = fs.move (p.location fs.working) content (q.location fs.working) := by
  have hmove : ∀ content, fs.moveTo (p.location fs.working) content q = .ok fs' ↔
      fs.Reaches q ∧ fs.get? (q.location fs.working) ≠ some .directory ∧
        fs' = fs.move (p.location fs.working) content (q.location fs.working) := by
    intro content
    unfold moveTo
    rw [Outcome.bind_eq_ok_iff]
    constructor
    · rintro ⟨target, hway, h⟩
      obtain ⟨hway, rfl⟩ := locatePath_eq_ok_iff.mp hway
      split at h
      · cases h
      · cases h
      · cases h
      · cases h
      · cases h
      · next hending hdirectory =>
        cases h
        exact ⟨⟨hway, hending⟩, fun h => hdirectory h, .refl _⟩
    · rintro ⟨⟨hway, hending⟩, hdirectory, rfl⟩
      refine ⟨_, hway, ?_⟩
      rw [hending]
      cases hget : fs.get? (q.location fs.working) with
      | none => rfl
      | some entry =>
        cases entry with
        | file content => rfl
        | directory => exact absurd hget hdirectory
  unfold FileSystem.rename
  rw [Outcome.bind_eq_ok_iff]
  constructor
  · rintro ⟨source, hlocate, h⟩
    obtain ⟨hp, rfl, -⟩ := locateFile_eq_ok_iff.mp hlocate
    split at h
    · next content hcontent =>
      obtain ⟨hq, hdirectory, rfl⟩ := (hmove content).mp h
      exact ⟨hp, hq, hdirectory, content, hcontent, .refl _⟩
    · cases h
  · rintro ⟨hp, hq, hdirectory, content, hcontent, hfs'⟩
    refine ⟨_, locateFile_eq_ok_iff.mpr ⟨hp, .refl _, by simp [hcontent]⟩, ?_⟩
    simp only [hcontent]
    exact (hmove content).mpr ⟨hq, hdirectory, hfs'⟩

namespace Keeps

variable {paths : List Path}

theorem rename (hp : p ∈ paths) (hq : q ∈ paths) (h : fs.rename p q = .ok fs') :
    Keeps paths fs fs' := by
  obtain ⟨-, -, hdirectory, content, hcontent, rfl⟩ := rename_eq_ok_iff.mp h
  refine move hcontent hdirectory fun location hlocation => ?_
  rcases hlocation with rfl | rfl
  · exact ⟨p, hp, .refl _⟩
  · exact ⟨q, hq, .refl _⟩

theorem ensureDirectory (h : fs.ensureDirectory p = .ok fs') : Keeps paths fs fs' := by
  unfold FileSystem.ensureDirectory at h
  split at h
  · next made hmade =>
    cases h
    obtain ⟨location, -, h⟩ := Outcome.bind_eq_ok_iff.mp hmade
    split at h
    · cases h
    · next hfree =>
      cases h
      exact put_directory (by simpa using hfree)
  · split at h
    · cases h
      exact rfl
    · cases h

/-- Directories are made where there is nothing, also when not all of them can be made. -/
theorem ensureDirectories (directories : List Path) :
    Keeps paths fs (fs.ensureDirectories directories).2 := by
  induction directories with
  | nil => exact rfl
  | cons directory outer ih =>
    unfold FileSystem.ensureDirectories
    split
    · next made hmade => exact ensureDirectory hmade
    · split
      · next hfailed =>
        rw [hfailed] at ih
        exact ih
      · next houter =>
        rw [houter] at ih
        split
        · next made hmade => exact ih.trans (ensureDirectory hmade)
        · exact ih
    · exact rfl

end Keeps

/-- A step that needs no open file and changes no files but those at some paths. -/
def ChangesOnly (paths : List Path) : Step → Prop
  | .createDirectories _ | .sync _ | .syncDirectory _ => True
  | .createEmpty file | .write file _ => file ∈ paths
  | .rename source target => source ∈ paths ∧ target ∈ paths
  | .openFile _ | .append _ => False

theorem Keeps.perform {paths : List Path} {step : Step} (h : ChangesOnly paths step)
    (fs : FileSystem) : Keeps paths fs (fs.perform step).2 := by
  cases step with
  | createDirectories p => exact ensureDirectories _
  | createEmpty file => exact attempt fun changed => createEmpty h
  | write file data => exact attempt fun changed => write h
  | rename source target => exact attempt fun changed => rename h.1 h.2
  | sync _ | syncDirectory _ => exact rfl
  | openFile _ | append _ => exact h.elim

/-! ## Atomic writes -/

theorem changesOnly_of_mem_prepare {paths : List Path} {step : Step}
    (h : step ∈ AtomicWrite.prepare p) : ChangesOnly paths step := by
  obtain ⟨directory, -, rfl⟩ := Option.map_eq_some_iff.mp (Option.mem_toList.mp h)
  trivial

theorem changesOnly_of_mem_replace {temporary : Path} {step : Step}
    (h : step ∈ AtomicWrite.replace p temporary data) : ChangesOnly [p, temporary] step := by
  have hmem : temporary ∈ [p, temporary] := List.mem_cons_of_mem _ List.mem_cons_self
  simp only [AtomicWrite.replace, List.mem_append, List.mem_cons, Option.mem_toList,
    Option.map_eq_some_iff, List.not_mem_nil, or_false] at h
  rcases h with (rfl | rfl | rfl | rfl) | ⟨directory, -, rfl⟩
  · exact hmem
  · exact hmem
  · trivial
  · exact ⟨hmem, List.mem_cons_self⟩
  · trivial

theorem keeps_performAll {paths : List Path} {steps : List Step}
    (h : ∀ step ∈ steps, ChangesOnly paths step) :
    Within (Keeps paths) (Storage.performAll steps) :=
  Within.adapt (Within.forM fun step hstep fs => Keeps.perform (h step hstep) fs) _

/-- **An atomic write, whatever comes of it, changes no file but two**: the one at its path and
the one that it is written under. -/
theorem keeps_writeAtomically (p : Path) (data : Bytes) :
    Within (Keeps (p :: p.temporary?.toList)) (Storage.writeAtomically p data) := by
  unfold Storage.writeAtomically
  refine Within.bind (keeps_performAll fun _ => changesOnly_of_mem_prepare) fun _ => ?_
  cases p.temporary? with
  | none => exact fun fs => Keeps.rfl
  | some temporary => exact keeps_performAll fun _ => changesOnly_of_mem_replace

theorem attempt_eq_ok_iff {result : Except IoFailure FileSystem} :
    fs.attempt result = (.ok (), fs') ↔ result = .ok fs' := by
  cases result with
  | error failure => simp [attempt]
  | ok changed => simp [attempt]

theorem run_performAll_cons_eq_ok_iff {step : Step} {steps : List Step} :
    fs.run (Storage.performAll (step :: steps)) = (.ok (), fs') ↔
      ∃ middle, fs.perform step = (.ok (), middle) ∧
        middle.run (Storage.performAll steps) = (.ok (), fs') := by
  have h : (step :: steps).forM (Storage.perform (m := StateM FileSystem)) =
      Storage.perform step >>= fun _ => steps.forM Storage.perform := rfl
  simp only [Storage.performAll, run_adapt_eq_ok_iff, h, run_bind_eq_ok_iff, run_perform]
  constructor
  · rintro ⟨⟨⟩, middle, hstep, hsteps⟩
    exact ⟨middle, hstep, hsteps⟩
  · rintro ⟨middle, hstep, hsteps⟩
    exact ⟨(), middle, hstep, hsteps⟩

theorem get?_put_self (h : fs.get? location ≠ some .directory) {entry : Entry} :
    (fs.put location entry).get? location = some entry := by
  have hroot : location ≠ [] := by
    rintro rfl
    exact h get?_nil
  rw [get?_put hroot, if_pos (.refl _)]

/-- A new file with data in it holds the data. -/
theorem get?_of_createEmpty_of_write {middle : FileSystem} (hcreate : fs.createEmpty p = .ok middle)
    (hwrite : middle.write p data = .ok fs') :
    fs'.get? (p.location fs.working) = some (.file data) := by
  obtain ⟨location, hlocate, h⟩ := Outcome.bind_eq_ok_iff.mp hcreate
  obtain ⟨-, rfl, hdirectory⟩ := locateFile_eq_ok_iff.mp hlocate
  cases h
  have hempty : (fs.put (p.location fs.working) (.file [])).get? (p.location fs.working) =
      some (.file []) := get?_put_self hdirectory
  obtain ⟨location, hlocate, h⟩ := Outcome.bind_eq_ok_iff.mp hwrite
  obtain ⟨-, rfl, hdirectory⟩ := locateFile_eq_ok_iff.mp hlocate
  cases h
  have hcontent : (fs.put (p.location fs.working) (.file [])).contentAt (p.location fs.working) =
      [] := by rw [contentAt, hempty]
  have hworking : (fs.put (p.location fs.working) (.file [])).working = fs.working := rfl
  rw [hworking] at hdirectory ⊢
  rw [get?_put_self hdirectory, hcontent, List.nil_append]

theorem read_of_rename (hcontent : fs.get? (p.location fs.working) = some (.file data))
    (h : fs.rename p q = .ok fs') : fs'.read q = .ok data := by
  have hkeeps : Keeps [p, q] fs fs' :=
    Keeps.rename List.mem_cons_self (List.mem_cons_of_mem _ List.mem_cons_self) h
  obtain ⟨-, hreaches, hdirectory, content, hsource, rfl⟩ := rename_eq_ok_iff.mp h
  obtain rfl : data = content := by
    rw [hcontent] at hsource
    cases hsource
    rfl
  have hroot : q.location fs.working ≠ [] := by
    intro hroot
    exact hdirectory (hroot ▸ get?_nil)
  rw [read_eq_ok_iff, hkeeps.working, get?_move hroot]
  exact ⟨hkeeps.reaches hreaches, if_pos (.refl _)⟩

/-- **What is written atomically is read back.** -/
theorem read_of_writeAtomically
    (h : fs.run (Storage.writeAtomically p data) = (.ok (), fs')) : fs'.read p = .ok data := by
  unfold Storage.writeAtomically at h
  obtain ⟨⟨⟩, start, -, h⟩ := run_bind_eq_ok_iff.mp h
  cases htemporary : p.temporary? with
  | none =>
    rw [htemporary] at h
    cases h
  | some temporary =>
    rw [htemporary] at h
    simp only [AtomicWrite.replace, List.cons_append, List.nil_append,
      run_performAll_cons_eq_ok_iff] at h
    obtain ⟨created, hcreate, written, hwrite, synced, hsync, renamed, hrename, hdone⟩ := h
    cases hsync
    replace hcreate := attempt_eq_ok_iff.mp hcreate
    replace hwrite := attempt_eq_ok_iff.mp hwrite
    have hkeeps : Keeps [temporary] start written :=
      (Keeps.createEmpty List.mem_cons_self hcreate).trans
        (Keeps.write List.mem_cons_self hwrite)
    have hcontent := get?_of_createEmpty_of_write hcreate hwrite
    rw [← hkeeps.working] at hcontent
    have hread := read_of_rename hcontent (attempt_eq_ok_iff.mp hrename)
    cases hdirectory : p.directory? with
    | none =>
      rw [hdirectory] at hdone
      cases hdone
      exact hread
    | some directory =>
      rw [hdirectory] at hdone
      cases hdone
      exact hread

end CollectionSchema.FileSystem
