import CollectionSchema.Log.Journal
import CollectionSchema.Proofs.FileRuns

/-!
# What noting events changes

An event that is noted changes nothing but the file that is open (`onlyLogged_noted`). If no file
is open, it changes nothing at all. A run whose steps have outcomes and change nothing but the log
is itself one (`Logs.bind`).
-/

namespace CollectionSchema.FileSystem

variable {fs fs' middle : FileSystem}

/-- What changes nothing but the file that is open. -/
structure OnlyLogged (fs fs' : FileSystem) : Prop where
  working : fs'.working = fs.working
  opened : fs'.opened = fs.opened
  get? : ∀ location, fs.opened ≠ some location → fs'.get? location = fs.get? location
  closed : fs.opened = none → fs' = fs

namespace OnlyLogged

theorem rfl : OnlyLogged fs fs := ⟨.refl _, .refl _, fun _ _ => .refl _, fun _ => .refl _⟩

theorem trans {middle : FileSystem} (h : OnlyLogged fs middle) (h' : OnlyLogged middle fs') :
    OnlyLogged fs fs' where
  working := h'.working.trans h.working
  opened := h'.opened.trans h.opened
  get? location hlocation :=
    (h'.get? location (h.opened ▸ hlocation)).trans (h.get? location hlocation)
  closed hclosed := (h'.closed (h.opened.trans hclosed)).trans (h.closed hclosed)

instance : IsPreorder FileSystem OnlyLogged where
  refl _ := rfl
  trans _ _ _ := trans

theorem append (data : Bytes) : OnlyLogged fs (fs.append data) where
  working := by unfold FileSystem.append; split <;> rfl
  opened := by unfold FileSystem.append; split <;> rfl
  get? location hlocation := by
    by_cases hroot : location = []
    · rw [hroot]
      rfl
    · exact get?_append hroot hlocation
  closed hclosed := by rw [FileSystem.append, hclosed]

end OnlyLogged

/-! ## Journals -/

variable {ε α β : Type} (journal : Journal) (event : Event)

/-- The file system after an event is noted. -/
def noted (fs : FileSystem) : FileSystem :=
  (StateT.run (journal.note event : StateM FileSystem Unit) fs).2

theorem noted_eq : fs.noted journal event = fs ∨
    fs.noted journal event = fs.append (.ofText (Journal.line event)) := by
  unfold noted Journal.note
  split
  · exact .inr (.refl _)
  · exact .inl (.refl _)

theorem onlyLogged_noted : OnlyLogged fs (fs.noted journal event) := by
  rcases fs.noted_eq journal event with h | h
  · rw [h]
    exact .rfl
  · rw [h]
    exact .append _

@[simp] theorem run_note : fs.run (liftM (journal.note event : StateM FileSystem Unit) :
    ExceptT ε (StateM FileSystem) Unit) = (.ok (), fs.noted journal event) := rfl

/-! ## Steps that only log -/

/-- An action that has an outcome and changes nothing but the log. -/
def Logs (fs : FileSystem) (x : ExceptT ε (StateM FileSystem) α) (outcome : Except ε α) : Prop :=
  ∃ fs', OnlyLogged fs fs' ∧ fs.run x = (outcome, fs')

namespace Logs

variable {x : ExceptT ε (StateM FileSystem) α} {f : α → ExceptT ε (StateM FileSystem) β}
  {outcome : Except ε α}

/-- What follows a step that only logs, if the step succeeds. -/
theorem exists_run_bind (hx : fs.Logs x outcome) (f : α → ExceptT ε (StateM FileSystem) β) :
    ∃ middle, OnlyLogged fs middle ∧ fs.run (x >>= f) =
      match (outcome, middle) with
      | (.ok a, middle) => middle.run (f a)
      | (.error e, middle) => (.error e, middle) := by
  obtain ⟨middle, hlogged, hrun⟩ := hx
  have hbind := fs.run_bind x f
  rw [hrun] at hbind
  refine ⟨middle, hlogged, ?_⟩
  cases outcome with
  | error e => exact hbind
  | ok a => exact hbind

theorem bind {next : α → Except ε β} (hx : fs.Logs x outcome)
    (hf : ∀ a middle, OnlyLogged fs middle → middle.Logs (f a) (next a)) :
    fs.Logs (x >>= f) (outcome >>= next) := by
  obtain ⟨middle, hlogged, hrun⟩ := hx.exists_run_bind f
  cases outcome with
  | error e => exact ⟨middle, hlogged, hrun⟩
  | ok a =>
    obtain ⟨fs', hlogged', hrun'⟩ := hf a middle hlogged
    exact ⟨fs', hlogged.trans hlogged', hrun.trans hrun'⟩

theorem adapt {ε' : Type} (hx : fs.Logs x outcome) (f : ε → ε') :
    fs.Logs (x.adapt f) (outcome.mapError f) := by
  obtain ⟨fs', hlogged, hrun⟩ := hx
  refine ⟨fs', hlogged, ?_⟩
  rw [run_adapt, hrun]

theorem mk (result : Except ε α) : fs.Logs (ExceptT.mk (pure result)) result :=
  ⟨fs, .rfl, rfl⟩

theorem note (journal : Journal) (event : Event) :
    fs.Logs (liftM (journal.note event : StateM FileSystem Unit) :
      ExceptT ε (StateM FileSystem) Unit) (.ok ()) :=
  ⟨_, onlyLogged_noted journal event, run_note journal event⟩

end Logs

end CollectionSchema.FileSystem
