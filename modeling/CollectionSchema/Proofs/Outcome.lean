import Mathlib.Data.List.Forall2

/-!
# Outcomes of runs

A run is a value of `Except`: it succeeds with a result or stops with an error. The lemmas
here read the success of a composite run as the success of its steps.

* `bind_eq_ok_iff`, `mapError_eq_ok_iff`: one step after another.
* `mapM_eq_ok_iff`, `exists_mapM_eq_ok_iff`, `mapM_eq_error_iff`: one step for each element of a
  list, with `exists_result` and `exists_source` from an element to its result and back.
* `forall₂_map`, `forall₂_filterMap`: the results of a computation for each element, in order.
* `within_bind`: runs that succeed exactly if there is room for their depth, one after another.
-/

namespace CollectionSchema.Outcome

variable {ε ε' α β : Type}

theorem pure_eq_ok_iff {a b : α} : (pure a : Except ε α) = .ok b ↔ a = b := by
  simp [pure, Except.pure]

theorem bind_eq_ok_iff {x : Except ε α} {f : α → Except ε β} {b : β} :
    x >>= f = .ok b ↔ ∃ a, x = .ok a ∧ f a = .ok b := by
  cases x <;> simp [bind, Except.bind]

@[simp] theorem ok_bind (a : α) (f : α → Except ε β) : (.ok a : Except ε α) >>= f = f a := rfl

@[simp] theorem error_bind (e : ε) (f : α → Except ε β) :
    (.error e : Except ε α) >>= f = .error e := rfl

theorem mapError_eq_ok_iff {x : Except ε α} {f : ε → ε'} {a : α} :
    x.mapError f = .ok a ↔ x = .ok a := by
  cases x <;> simp [Except.mapError]

theorem pure_eq_error_iff {a : α} {e : ε} : (pure a : Except ε α) = .error e ↔ False := by
  simp [pure, Except.pure]

theorem bind_eq_error_iff {x : Except ε α} {f : α → Except ε β} {e : ε} :
    x >>= f = .error e ↔ x = .error e ∨ ∃ a, x = .ok a ∧ f a = .error e := by
  cases x <;> simp [bind, Except.bind]

theorem mapError_eq_error_iff {x : Except ε α} {f : ε → ε'} {e : ε'} :
    x.mapError f = .error e ↔ ∃ cause, x = .error cause ∧ f cause = e := by
  cases x <;> simp [Except.mapError]

/-- The results of a step for each element, in order. -/
theorem mapM_eq_ok_iff {f : α → Except ε β} {xs : List α} {ys : List β} :
    xs.mapM f = .ok ys ↔ List.Forall₂ (fun x y => f x = .ok y) xs ys := by
  induction xs generalizing ys with
  | nil =>
    rw [List.mapM_nil, pure_eq_ok_iff, List.forall₂_nil_left_iff]
    exact eq_comm
  | cons x xs ih =>
    simp only [List.mapM_cons, bind_eq_ok_iff, pure_eq_ok_iff, List.forall₂_cons_left_iff, ih]
    constructor
    · rintro ⟨y, hy, ys, hys, rfl⟩
      exact ⟨y, ys, hy, hys, rfl⟩
    · rintro ⟨y, ys, hy, hys, rfl⟩
      exact ⟨y, hy, ys, hys, rfl⟩

/-- A step for each element succeeds exactly if every step does. -/
theorem exists_mapM_eq_ok_iff {f : α → Except ε β} {xs : List α} :
    (∃ ys, xs.mapM f = .ok ys) ↔ ∀ x ∈ xs, ∃ y, f x = .ok y := by
  simp only [mapM_eq_ok_iff]
  induction xs with
  | nil => simp
  | cons x xs ih =>
    simp only [List.forall₂_cons_left_iff, List.mem_cons, forall_eq_or_imp, ← ih]
    constructor
    · rintro ⟨_, y, ys, hy, hys, -⟩
      exact ⟨⟨y, hy⟩, ys, hys⟩
    · rintro ⟨⟨y, hy⟩, ys, hys⟩
      exact ⟨y :: ys, y, ys, hy, hys, rfl⟩

/-- A step for each element stops at the first one whose step does. -/
theorem mapM_eq_error_iff {f : α → Except ε β} {xs : List α} {e : ε} :
    xs.mapM f = .error e ↔ ∃ before x after, xs = before ++ x :: after ∧
      (∀ y ∈ before, ∃ b, f y = .ok b) ∧ f x = .error e := by
  induction xs with
  | nil => simp [pure_eq_error_iff]
  | cons x xs ih =>
    simp only [List.mapM_cons, bind_eq_error_iff, pure_eq_error_iff, and_false, exists_false,
      or_false, ih]
    constructor
    · rintro (hx | ⟨b, hb, before, y, after, rfl, hbefore, hy⟩)
      · exact ⟨[], x, xs, rfl, by simp, hx⟩
      · refine ⟨x :: before, y, after, rfl, ?_, hy⟩
        intro z hz
        rcases List.mem_cons.mp hz with rfl | hz
        · exact ⟨b, hb⟩
        · exact hbefore z hz
    · rintro ⟨before, y, after, hsplit, hbefore, hy⟩
      cases before with
      | nil =>
        obtain ⟨rfl, rfl⟩ := List.cons.inj hsplit
        exact .inl hy
      | cons z before =>
        obtain ⟨rfl, rfl⟩ := List.cons.inj hsplit
        obtain ⟨b, hb⟩ := hbefore x List.mem_cons_self
        exact .inr ⟨b, hb, before, y, after, rfl,
          fun w hw => hbefore w (List.mem_cons_of_mem _ hw), hy⟩

theorem mapM_congr {f f' : α → Except ε β} {xs : List α} (h : ∀ x ∈ xs, f x = f' x) :
    xs.mapM f = xs.mapM f' := by
  induction xs with
  | nil => rfl
  | cons x xs ih =>
    have hrest : ∀ y ∈ xs, f y = f' y := fun y hy => h y (List.mem_cons_of_mem _ hy)
    rw [List.mapM_cons, List.mapM_cons, h x List.mem_cons_self, ih hrest]

/-! ## Elements and their results -/

theorem exists_result {R : α → β → Prop} {xs : List α} {ys : List β} (h : List.Forall₂ R xs ys)
    {x : α} (hx : x ∈ xs) : ∃ y ∈ ys, R x y := by
  induction h with
  | nil => cases hx
  | cons hxy _ ih =>
    rcases List.mem_cons.mp hx with rfl | hx
    · exact ⟨_, List.mem_cons_self, hxy⟩
    · obtain ⟨y, hy, hR⟩ := ih hx
      exact ⟨y, List.mem_cons_of_mem _ hy, hR⟩

theorem exists_source {R : α → β → Prop} {xs : List α} {ys : List β} (h : List.Forall₂ R xs ys)
    {y : β} (hy : y ∈ ys) : ∃ x ∈ xs, R x y :=
  exists_result h.flip hy

/-- What is read off the results can be read off the elements. -/
theorem map_eq_map {γ : Type} {f : α → γ} {f' : β → γ} {xs : List α} {ys : List β}
    (h : List.Forall₂ (fun x y => f' y = f x) xs ys) : ys.map f' = xs.map f := by
  induction h with
  | nil => rfl
  | cons hxy _ ih => rw [List.map_cons, List.map_cons, hxy, ih]

theorem forall₂_map {R : α → β → Prop} {f : α → β} {xs : List α} (h : ∀ x ∈ xs, R x (f x)) :
    List.Forall₂ R xs (xs.map f) := by
  rw [List.forall₂_map_right_iff]
  exact List.forall₂_same.mpr h

/-- Partial results none of which is missing. -/
theorem forall₂_filterMap {R : α → β → Prop} {f : α → Option β} {xs : List α}
    (h : ∀ x ∈ xs, ∃ y, f x = some y ∧ R x y) : List.Forall₂ R xs (xs.filterMap f) := by
  induction xs with
  | nil => exact .nil
  | cons x rest ih =>
    obtain ⟨y, hy, hR⟩ := h x List.mem_cons_self
    rw [List.filterMap_cons_some hy]
    exact .cons hR (ih fun x hx => h x (List.mem_cons_of_mem _ hx))

/-! ## Runs with limited room -/

section

variable {fault : ε} {room depth : Nat}

/-- The run that gives a result if there is room for its depth. -/
def within (fault : ε) (room depth : Nat) (a : α) : Except ε α :=
  if depth ≤ room then .ok a else .error fault

theorem within_zero (a : α) : within fault room 0 a = .ok a := if_pos (Nat.zero_le room)

theorem within_succ (a : α) :
    within fault (room + 1) (depth + 1) a = within fault room depth a := by
  simp only [within, Nat.add_le_add_iff_right]

theorem within_zero_succ (a : α) : within fault 0 (depth + 1) a = .error fault :=
  if_neg (Nat.not_succ_le_zero depth)

/-- One run after another needs as much room as the one that needs more. -/
theorem within_bind {a : α} {depth' : Nat} {f : α → Except ε β} {b : β}
    (h : f a = within fault room depth' b) :
    within fault room depth a >>= f = within fault room (max depth depth') b := by
  unfold within at h ⊢
  by_cases hdepth : depth ≤ room
  · simp only [hdepth, if_true, ok_bind, h, Nat.max_le, true_and]
  · simp only [hdepth, if_false, error_bind, Nat.max_le, false_and]

theorem within_bind_ok {a : α} {f : α → Except ε β} {b : β} (h : f a = .ok b) :
    within fault room depth a >>= f = within fault room depth b := by
  unfold within
  split
  · exact h
  · rfl

theorem within_map {a : α} {f : α → β} :
    (do return f (← within fault room depth a)) = within fault room depth (f a) :=
  within_bind_ok rfl

end

end CollectionSchema.Outcome
