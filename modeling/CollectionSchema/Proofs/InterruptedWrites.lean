import CollectionSchema.Proofs.AtomicWrites
import Mathlib.Data.List.DropRight

/-!
# Atomic writes that are interrupted

Any step of a write may fail, and what it leaves behind then is a part of what it does
(`FileSystem.leave`): some of the directories, the first bytes of the data, or nothing. The file
at the path of an atomic write holds all the same what it held before, or all of the new data, and
no file but the one it is written under is changed (`FileSystem.exists_writeInterrupted`). For the
data come to the path in one step, and before that step they lie complete in a file of another name
(`get?_of_performFrom_fill`).
-/

namespace CollectionSchema.FileSystem

/-- How a step is interrupted: why, and how far it gets. -/
structure Interruption where
  cause : IoFailure
  progress : Nat

/-- What an interrupted step leaves behind. Of the directories that it is to make the outermost
ones are there, of the data the first bytes. Any other step is carried out or not. -/
def leave (fs : FileSystem) (progress : Nat) : Step → FileSystem
  | .createDirectories p => (fs.ensureDirectories (p.ancestors.rtake progress)).2
  | .write file data => (fs.perform (.write file (data.take progress))).2
  | .append data => (fs.perform (.append (data.take progress))).2
  | step => if progress = 0 then fs else (fs.perform step).2

section Faults

variable (faults : Step → Option Interruption)

/-- Carries out a step, unless it is one that fails. -/
def performOrLeave (fs : FileSystem) (step : Step) : Except IoFailure Unit × FileSystem :=
  match faults step with
  | none => fs.perform step
  | some fault => (.error fault.cause, fs.leave fault.progress step)

/-- The storage in which some steps fail. -/
abbrev interrupted : Storage (StateM FileSystem) where
  read := Storage.read
  isPresent := Storage.isPresent
  perform step := ExceptT.mk (modifyGet (·.performOrLeave faults step))

/-- An atomic write in which some steps fail: its outcome, and the file system after it. -/
def writeInterrupted (fs : FileSystem) (p : Path) (data : Bytes) :
    Except WriteError Unit × FileSystem :=
  fs.run (@Storage.writeAtomically (StateM FileSystem) _ (interrupted faults) p data)

/-- Carries out steps up to the first one that fails. -/
def performFrom (fs : FileSystem) : List Step → Except IoFailure Unit × FileSystem
  | [] => (.ok (), fs)
  | step :: rest =>
    match fs.performOrLeave faults step with
    | (.ok _, fs) => performFrom fs rest
    | (.error failure, fs) => (.error failure, fs)

theorem performFrom_cons (fs : FileSystem) (step : Step) (rest : List Step) :
    fs.performFrom faults (step :: rest) =
      match fs.performOrLeave faults step with
      | (.ok _, fs) => fs.performFrom faults rest
      | (.error failure, fs) => (.error failure, fs) :=
  rfl

/-- Without a failing step it is the atomic write. -/
theorem writeInterrupted_none (fs : FileSystem) (p : Path) (data : Bytes) :
    fs.writeInterrupted (fun _ => none) p data = fs.run (Storage.writeAtomically p data) := rfl

end Faults

variable {faults : Step → Option Interruption} {fs fs' : FileSystem} {p : Path} {data : Bytes}
  {steps : List Step}

/-! ## Steps that may fail -/

theorem performOrLeave_eq_ok_iff {step : Step} : fs.performOrLeave faults step = (.ok (), fs') ↔
    faults step = none ∧ fs.perform step = (.ok (), fs') := by
  unfold performOrLeave
  cases faults step <;> simp

theorem performFrom_append (faults : Step → Option Interruption) (fs : FileSystem)
    (steps rest : List Step) : fs.performFrom faults (steps ++ rest) =
      match fs.performFrom faults steps with
      | (.ok _, fs) => fs.performFrom faults rest
      | (.error failure, fs) => (.error failure, fs) := by
  induction steps generalizing fs with
  | nil => rfl
  | cons step steps ih =>
    simp only [List.cons_append, performFrom_cons]
    rcases fs.performOrLeave faults step with ⟨_ | _, fs⟩
    · rfl
    · exact ih fs

theorem performFrom_cons_eq_ok_iff {step : Step} :
    fs.performFrom faults (step :: steps) = (.ok (), fs') ↔
      ∃ middle, faults step = none ∧ fs.perform step = (.ok (), middle) ∧
        middle.performFrom faults steps = (.ok (), fs') := by
  have hfirst : ∀ middle, fs.performOrLeave faults step = (.ok (), middle) ↔
      faults step = none ∧ fs.perform step = (.ok (), middle) := fun _ => performOrLeave_eq_ok_iff
  simp only [← and_assoc, ← hfirst]
  rw [performFrom_cons]
  rcases fs.performOrLeave faults step with ⟨_ | _, middle⟩ <;> simp

theorem run_performAll_interrupted (faults : Step → Option Interruption) (fs : FileSystem)
    (steps : List Step) :
    fs.run (@Storage.performAll (StateM FileSystem) _ (interrupted faults) steps) =
      ((fs.performFrom faults steps).1.mapError .io, (fs.performFrom faults steps).2) := by
  have hsteps : fs.run (steps.forM (@Storage.perform _ (interrupted faults))) =
      fs.performFrom faults steps := by
    induction steps generalizing fs with
    | nil => rfl
    | cons step steps ih =>
      have hcons : (step :: steps).forM (@Storage.perform _ (interrupted faults)) =
          @Storage.perform _ (interrupted faults) step >>= fun _ =>
            steps.forM (@Storage.perform _ (interrupted faults)) := rfl
      have hstep : fs.run (@Storage.perform _ (interrupted faults) step) =
          fs.performOrLeave faults step := rfl
      rw [hcons, run_bind, hstep, performFrom_cons]
      rcases fs.performOrLeave faults step with ⟨_ | _, fs⟩
      · rfl
      · exact ih fs
  have hrun : fs.run (@Storage.performAll (StateM FileSystem) _ (interrupted faults) steps) =
      ((fs.run (steps.forM (@Storage.perform _ (interrupted faults)))).1.mapError .io,
        (fs.run (steps.forM (@Storage.perform _ (interrupted faults)))).2) := rfl
  rw [hrun, hsteps]

/-- The steps of an atomic write, one after another. -/
theorem writeInterrupted_eq (faults : Step → Option Interruption) (fs : FileSystem) (p : Path)
    (data : Bytes) : fs.writeInterrupted faults p data =
      match fs.performFrom faults (AtomicWrite.prepare p) with
      | (.error failure, fs) => (.error (.io failure), fs)
      | (.ok _, fs) =>
        match p.temporary? with
        | none => (.error (.invalidPath p), fs)
        | some temporary =>
          ((fs.performFrom faults (AtomicWrite.replace p temporary data)).1.mapError .io,
            (fs.performFrom faults (AtomicWrite.replace p temporary data)).2) := by
  change fs.run (@Storage.performAll (StateM FileSystem) _ (interrupted faults)
    (AtomicWrite.prepare p) >>= fun _ => match p.temporary? with
      | none => throw (.invalidPath p)
      | some temporary => @Storage.performAll (StateM FileSystem) _ (interrupted faults)
        (AtomicWrite.replace p temporary data)) = _
  rw [run_bind, run_performAll_interrupted]
  rcases fs.performFrom faults (AtomicWrite.prepare p) with ⟨_ | _, fs⟩
  · rfl
  · simp only [Except.mapError]
    cases p.temporary? with
    | none => rfl
    | some temporary => exact run_performAll_interrupted faults fs _

/-! ## Files that stay as they are -/

theorem Keeps.leave {paths : List Path} {step : Step} (h : ChangesOnly paths step)
    (fs : FileSystem) (progress : Nat) : Keeps paths fs (fs.leave progress step) := by
  cases step with
  | createDirectories p => exact ensureDirectories _
  | write file data =>
    have htorn : ChangesOnly paths (.write file (data.take progress)) := h
    exact perform htorn fs
  | append _ => exact h.elim
  | _ =>
    change Keeps paths fs (if progress = 0 then fs else (fs.perform _).2)
    split
    · exact rfl
    · exact perform h fs

theorem Keeps.performOrLeave {paths : List Path} {step : Step} (h : ChangesOnly paths step)
    (faults : Step → Option Interruption) (fs : FileSystem) :
    Keeps paths fs (fs.performOrLeave faults step).2 := by
  unfold FileSystem.performOrLeave
  cases faults step with
  | none => exact perform h fs
  | some fault => exact leave h fs fault.progress

/-- Wherever steps break off, they change no other files. -/
theorem keeps_performFrom {paths : List Path} (h : ∀ step ∈ steps, ChangesOnly paths step)
    (faults : Step → Option Interruption) (fs : FileSystem) :
    Keeps paths fs (fs.performFrom faults steps).2 := by
  induction steps generalizing fs with
  | nil => exact .rfl
  | cons step steps ih =>
    obtain ⟨hstep, hsteps⟩ := List.forall_mem_cons.mp h
    have hfirst := Keeps.performOrLeave hstep faults fs
    rw [performFrom_cons]
    rcases hrun : fs.performOrLeave faults step with ⟨_ | _, middle⟩ <;> rw [hrun] at hfirst
    · exact hfirst
    · exact hfirst.trans (ih hsteps middle)

/-! ## The new content -/

/-- The steps that put data under another name. -/
def fill (temporary : Path) (data : Bytes) : List Step :=
  [.createEmpty temporary, .write temporary data, .sync temporary]

/-- The steps that make a directory last, if there is one. -/
def settle (p : Path) : List Step := (p.directory?.map Step.syncDirectory).toList

theorem replace_eq (p temporary : Path) (data : Bytes) : AtomicWrite.replace p temporary data =
    fill temporary data ++ .rename temporary p :: settle p := rfl

theorem keeps_fill (faults : Step → Option Interruption) (fs : FileSystem) (temporary : Path)
    (data : Bytes) : Keeps [temporary] fs (fs.performFrom faults (fill temporary data)).2 := by
  refine keeps_performFrom (fun step hstep => ?_) faults fs
  simp only [fill, List.mem_cons, List.not_mem_nil, or_false] at hstep
  rcases hstep with rfl | rfl | rfl
  · exact List.mem_cons_self
  · exact List.mem_cons_self
  · trivial

theorem keeps_settle (faults : Step → Option Interruption) (fs : FileSystem) (p : Path) :
    Keeps [] fs (fs.performFrom faults (settle p)).2 := by
  refine keeps_performFrom (fun step hstep => ?_) faults fs
  obtain ⟨directory, -, rfl⟩ := Option.map_eq_some_iff.mp (Option.mem_toList.mp hstep)
  trivial

/-- What was filled without a failure holds all of the data. -/
theorem get?_of_performFrom_fill {temporary : Path}
    (h : fs.performFrom faults (fill temporary data) = (.ok (), fs')) :
    fs'.get? (temporary.location fs.working) = some (.file data) := by
  simp only [fill, performFrom_cons_eq_ok_iff] at h
  obtain ⟨created, -, hcreate, written, -, hwrite, synced, -, hsync, hdone⟩ := h
  cases hsync
  cases hdone
  exact get?_of_createEmpty_of_write (attempt_eq_ok_iff.mp hcreate) (attempt_eq_ok_iff.mp hwrite)

/-- A file is given another name, or nothing is done. -/
theorem performOrLeave_rename (faults : Step → Option Interruption) (fs : FileSystem)
    (source target : Path) : (fs.performOrLeave faults (.rename source target)).2 = fs ∨
      fs.rename source target = .ok (fs.performOrLeave faults (.rename source target)).2 := by
  have hperform : (fs.perform (.rename source target)).2 = fs ∨
      fs.rename source target = .ok (fs.perform (.rename source target)).2 := by
    rw [perform]
    cases fs.rename source target with
    | error failure => exact .inl rfl
    | ok changed => exact .inr rfl
  unfold performOrLeave
  cases faults (.rename source target) with
  | none => exact hperform
  | some fault =>
    change (if fault.progress = 0 then fs else (fs.perform (.rename source target)).2) = fs ∨
      fs.rename source target =
        .ok (if fault.progress = 0 then fs else (fs.perform (.rename source target)).2)
    split
    · exact .inl rfl
    · exact hperform

theorem content?_of_rename {temporary : Path}
    (hcontent : fs.get? (temporary.location fs.working) = some (.file data))
    (h : fs.rename temporary p = .ok fs') : fs'.content? (p.location fs.working) = some data := by
  have hkeeps : Keeps [temporary, p] fs fs' :=
    Keeps.rename List.mem_cons_self (List.mem_cons_of_mem _ List.mem_cons_self) h
  rw [content?_eq_some_iff, ← hkeeps.working]
  exact (read_eq_ok_iff.mp (read_of_rename hcontent h)).2

section Replace

variable {temporary : Path} (htemporary : p.temporary? = some temporary)

include htemporary

/-- Wherever the replacement breaks off, the file holds what it held or all of the data. -/
theorem content?_performFrom_replace (faults : Step → Option Interruption) (fs : FileSystem)
    (data : Bytes) :
    (fs.performFrom faults (AtomicWrite.replace p temporary data)).2.content?
        (p.location fs.working) = fs.content? (p.location fs.working) ∨
      (fs.performFrom faults (AtomicWrite.replace p temporary data)).2.content?
        (p.location fs.working) = some data := by
  have hother : ∀ q ∈ [temporary], q.location fs.working ≠ p.location fs.working := by
    intro q hq
    obtain rfl := List.mem_singleton.mp hq
    exact Path.location_temporary_ne htemporary fs.working
  have hfill := keeps_fill faults fs temporary data
  rw [replace_eq, performFrom_append]
  rcases hrun : fs.performFrom faults (fill temporary data) with ⟨_ | _, filled⟩ <;>
    rw [hrun] at hfill
  · exact .inl (hfill.content? hother)
  · have hsame := hfill.content? hother
    have hcontent := get?_of_performFrom_fill hrun
    rw [← hfill.working] at hcontent hsame ⊢
    have hrename : (filled.performOrLeave faults (.rename temporary p)).2.content?
          (p.location filled.working) = filled.content? (p.location filled.working) ∨
        (filled.performOrLeave faults (.rename temporary p)).2.content?
          (p.location filled.working) = some data := by
      rcases performOrLeave_rename faults filled temporary p with hnothing | hrenamed
      · exact .inl (by rw [hnothing])
      · exact .inr (content?_of_rename hcontent hrenamed)
    rw [hsame] at hrename
    simp only [performFrom_cons]
    rcases hstep : filled.performOrLeave faults (.rename temporary p) with ⟨_ | _, renamed⟩ <;>
      rw [hstep] at hrename
    · exact hrename
    · have hsettle := keeps_settle faults renamed p
      simp only
      rw [hsettle.content? (by simp)]
      exact hrename

/-- A replacement that succeeds leaves all of the data in the file, and nothing in the other. -/
theorem get?_of_performFrom_replace
    (h : fs.performFrom faults (AtomicWrite.replace p temporary data) = (.ok (), fs')) :
    fs'.content? (p.location fs.working) = some data ∧
      fs'.get? (temporary.location fs.working) = none := by
  have hfill := keeps_fill faults fs temporary data
  rw [replace_eq, performFrom_append] at h
  rcases hrun : fs.performFrom faults (fill temporary data) with ⟨_ | _, filled⟩ <;>
    rw [hrun] at hfill h
  · cases h
  · obtain ⟨renamed, -, hrename, hsettle⟩ := performFrom_cons_eq_ok_iff.mp h
    have hcontent := get?_of_performFrom_fill hrun
    rw [← hfill.working] at hcontent ⊢
    replace hrename := attempt_eq_ok_iff.mp hrename
    obtain rfl : renamed = fs' := by
      unfold settle at hsettle
      cases hdirectory : p.directory? with
      | none =>
        rw [hdirectory] at hsettle
        cases hsettle
        rfl
      | some directory =>
        rw [hdirectory] at hsettle
        obtain ⟨settled, -, hsync, hdone⟩ := performFrom_cons_eq_ok_iff.mp hsettle
        cases hsync
        cases hdone
        rfl
    refine ⟨content?_of_rename hcontent hrename, ?_⟩
    obtain ⟨-, -, -, content, -, rfl⟩ := rename_eq_ok_iff.mp hrename
    obtain ⟨name, -, hlocation⟩ := Path.location_temporary htemporary filled.working
    have hroot : temporary.location filled.working ≠ [] := by simp [hlocation]
    rw [get?_move hroot, if_neg (Path.location_temporary_ne htemporary filled.working),
      if_pos rfl]

end Replace

/-! ## Interrupted writes -/

theorem keeps_prepare (faults : Step → Option Interruption) (fs : FileSystem) (p : Path) :
    Keeps [] fs (fs.performFrom faults (AtomicWrite.prepare p)).2 :=
  keeps_performFrom (fun _ => changesOnly_of_mem_prepare) faults fs

theorem keeps_writeInterrupted (faults : Step → Option Interruption) (fs : FileSystem) (p : Path)
    (data : Bytes) :
    Keeps (p :: p.temporary?.toList) fs (fs.writeInterrupted faults p data).2 := by
  have hprepare := (keeps_prepare faults fs p).mono (List.nil_subset (p :: p.temporary?.toList))
  rw [writeInterrupted_eq]
  rcases hrun : fs.performFrom faults (AtomicWrite.prepare p) with ⟨_ | _, start⟩ <;>
    rw [hrun] at hprepare
  · exact hprepare
  · cases htemporary : p.temporary? with
    | none =>
      rw [htemporary] at hprepare
      exact hprepare
    | some temporary =>
      rw [htemporary] at hprepare
      exact hprepare.trans (keeps_performFrom (fun _ => changesOnly_of_mem_replace) faults start)

theorem content?_writeInterrupted (faults : Step → Option Interruption) (fs : FileSystem)
    (p : Path) (data : Bytes) :
    (fs.writeInterrupted faults p data).2.content? (p.location fs.working) =
        fs.content? (p.location fs.working) ∨
      (fs.writeInterrupted faults p data).2.content? (p.location fs.working) = some data := by
  have hprepare := keeps_prepare faults fs p
  rw [writeInterrupted_eq]
  rcases hrun : fs.performFrom faults (AtomicWrite.prepare p) with ⟨_ | _, start⟩ <;>
    rw [hrun] at hprepare
  · exact .inl (hprepare.content? (by simp))
  · have hstart : start.content? (p.location fs.working) = fs.content? (p.location fs.working) :=
      hprepare.content? (by simp)
    cases htemporary : p.temporary? with
    | none => exact .inl hstart
    | some temporary =>
      have hreplace := content?_performFrom_replace htemporary faults start data
      rw [hprepare.working, hstart] at hreplace
      exact hreplace

theorem content?_of_writeInterrupted_eq_ok (h : fs.writeInterrupted faults p data = (.ok (), fs')) :
    fs'.content? (p.location fs.working) = some data ∧
      ∃ temporary, p.temporary? = some temporary ∧
        fs'.get? (temporary.location fs.working) = none := by
  have hprepare := keeps_prepare faults fs p
  rw [writeInterrupted_eq] at h
  rcases hrun : fs.performFrom faults (AtomicWrite.prepare p) with ⟨_ | _, start⟩ <;>
    rw [hrun] at hprepare h
  · cases h
  · cases htemporary : p.temporary? with
    | none =>
      rw [htemporary] at h
      cases h
    | some temporary =>
      rw [htemporary] at h
      obtain ⟨hok, rfl⟩ := Prod.mk.inj h
      have hreplace : start.performFrom faults (AtomicWrite.replace p temporary data) =
          (.ok (), (start.performFrom faults (AtomicWrite.replace p temporary data)).2) :=
        Prod.ext (Outcome.mapError_eq_ok_iff.mp hok) rfl
      obtain ⟨hcontent, hgone⟩ := get?_of_performFrom_replace htemporary hreplace
      rw [hprepare.working] at hcontent hgone
      exact ⟨hcontent, temporary, rfl, hgone⟩

/-- **A file write is atomic, wherever it is interrupted.** The file holds what it held, or nothing
as before, or all of the data; no other file is changed but the one that it is written under, which
stands next to it under another name; and after a success the file holds the data and the other is
gone. -/
theorem exists_writeInterrupted (faults : Step → Option Interruption) (fs : FileSystem) (p : Path)
    (data : Bytes) :
    ∃ outcome fs', fs.writeInterrupted faults p data = (outcome, fs') ∧
      (fs'.content? (p.location fs.working) = fs.content? (p.location fs.working) ∨
        fs'.content? (p.location fs.working) = some data) ∧
      (∀ location, location ≠ p.location fs.working →
        (∀ temporary ∈ p.temporary?, location ≠ temporary.location fs.working) →
          fs'.content? location = fs.content? location) ∧
      (∀ temporary ∈ p.temporary?, temporary.location fs.working ≠ p.location fs.working ∧
        ∃ name, (p.location fs.working).getLast? = some name ∧
          temporary.location fs.working =
            (p.location fs.working).dropLast ++ ["." ++ name ++ ".tmp"]) ∧
      (outcome = .ok () → fs'.content? (p.location fs.working) = some data ∧
        ∃ temporary, p.temporary? = some temporary ∧
          fs'.get? (temporary.location fs.working) = none) := by
  have hkeeps := keeps_writeInterrupted faults fs p data
  have htarget := content?_writeInterrupted faults fs p data
  cases hrun : fs.writeInterrupted faults p data with
  | mk outcome fs' =>
    rw [hrun] at hkeeps htarget
    refine ⟨outcome, fs', rfl, htarget, ?_, ?_, ?_⟩
    · intro location hp htemporary
      refine hkeeps.content? fun q hq => ?_
      rcases List.mem_cons.mp hq with rfl | hq
      · exact hp.symm
      · exact (htemporary q (Option.mem_toList.mp hq)).symm
    · intro temporary htemporary
      obtain ⟨name, hname, hlocation⟩ := Path.location_temporary htemporary fs.working
      exact ⟨Path.location_temporary_ne htemporary fs.working, name,
        Path.getLast?_location hname fs.working, hlocation⟩
    · rintro rfl
      exact content?_of_writeInterrupted_eq_ok hrun

/-- A note over which a longer one is written, as far as the second byte. -/
example :
    let fs := (FileSystem.empty ["home"]).put ["home", "note"] (.file [1])
    let faults : Step → Option Interruption
      | .write _ _ => some ⟨.other, 2⟩
      | _ => none
    let fs' := (fs.writeInterrupted faults ⟨"note"⟩ [7, 8, 9]).2
    fs'.content? ["home", "note"] = some [1] ∧
      fs'.content? ["home", ".note.tmp"] = some [7, 8] := by decide +kernel

end CollectionSchema.FileSystem
