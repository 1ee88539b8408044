/-!
# Ascending lists

Sets and finite maps as lists in strictly ascending order, so that equal sets and maps are
equal lists. What an operation does to a set is said by membership (`mem_insertAscending`),
and what it does to a map by look-up (`lookup_putAscending`); neither needs the order. That lists
stay ascending (`pairwise_ascending`) needs it to be linear.
-/

namespace CollectionSchema

variable {κ α : Type}

/-- Puts a key into an ascending list, unless it is there. -/
def insertAscending [LT κ] [DecidableLT κ] [DecidableEq κ] (key : κ) : List κ → List κ
  | [] => [key]
  | k :: rest =>
    if key < k then key :: k :: rest
    else if key = k then k :: rest
    else k :: insertAscending key rest

@[grind =]
theorem insertAscending_nil [LT κ] [DecidableLT κ] [DecidableEq κ] (key : κ) :
    insertAscending key [] = [key] :=
  rfl

@[grind =]
theorem insertAscending_cons [LT κ] [DecidableLT κ] [DecidableEq κ] (key k : κ) (rest : List κ) :
    insertAscending key (k :: rest) =
      if key < k then key :: k :: rest
      else if key = k then k :: rest
      else k :: insertAscending key rest :=
  rfl

theorem mem_insertAscending [LT κ] [DecidableLT κ] [DecidableEq κ] {key k : κ} {keys : List κ} :
    k ∈ insertAscending key keys ↔ k = key ∨ k ∈ keys := by
  induction keys <;> grind

/-- The different keys of a list in ascending order. -/
def ascending [LT κ] [DecidableLT κ] [DecidableEq κ] (keys : List κ) : List κ :=
  keys.foldl (fun sorted key => insertAscending key sorted) []

theorem mem_ascending [LT κ] [DecidableLT κ] [DecidableEq κ] {k : κ} {keys : List κ} :
    k ∈ ascending keys ↔ k ∈ keys := by
  have (sorted : List κ) : k ∈ keys.foldl (fun sorted key => insertAscending key sorted) sorted ↔
      k ∈ sorted ∨ k ∈ keys := by
    induction keys generalizing sorted with
    | nil => simp
    | cons key rest ih => grind [mem_insertAscending]
  simpa [ascending] using this []

theorem pairwise_insertAscending [LT κ] [DecidableLT κ] [DecidableEq κ]
    [Trans (α := κ) (β := κ) (γ := κ) (· < ·) (· < ·) (· < ·)]
    [Std.Trichotomous (α := κ) (· < ·)] {key : κ} {keys : List κ} (h : keys.Pairwise (· < ·)) :
    (insertAscending key keys).Pairwise (· < ·) := by
  fun_induction insertAscending key keys with
  | case1 => exact List.pairwise_singleton ..
  | case2 k rest hlt =>
    obtain ⟨hk, hrest⟩ := List.pairwise_cons.1 h
    refine List.pairwise_cons.2 ⟨fun x hx => ?_, h⟩
    rcases List.mem_cons.1 hx with rfl | hx
    · exact hlt
    · exact Trans.trans hlt (hk x hx)
  | case3 => exact h
  | case4 k rest hlt hne ih =>
    obtain ⟨hk, hrest⟩ := List.pairwise_cons.1 h
    have hkey : k < key := Decidable.of_not_not fun hnot =>
      hne (Std.Trichotomous.trichotomous key k hlt hnot)
    refine List.pairwise_cons.2 ⟨fun x hx => ?_, ih hrest⟩
    rcases mem_insertAscending.1 hx with rfl | hx
    · exact hkey
    · exact hk x hx

theorem pairwise_ascending [LT κ] [DecidableLT κ] [DecidableEq κ]
    [Trans (α := κ) (β := κ) (γ := κ) (· < ·) (· < ·) (· < ·)]
    [Std.Trichotomous (α := κ) (· < ·)] (keys : List κ) : (ascending keys).Pairwise (· < ·) := by
  have (sorted : List κ) (h : sorted.Pairwise (· < ·)) :
      (keys.foldl (fun sorted key => insertAscending key sorted) sorted).Pairwise (· < ·) := by
    induction keys generalizing sorted with
    | nil => exact h
    | cons key rest ih => exact ih _ (pairwise_insertAscending h)
  exact this [] List.Pairwise.nil

/-- An entry is found under its key if keys are not repeated. -/
theorem lookup_of_mem [BEq κ] [LawfulBEq κ] {entries : List (κ × α)}
    (h : (entries.map (·.1)).Nodup) {entry : κ × α} (hentry : entry ∈ entries) :
    entries.lookup entry.1 = some entry.2 := by
  induction entries with
  | nil => cases hentry
  | cons first rest ih =>
    obtain ⟨key, value⟩ := first
    obtain ⟨hfirst, hrest⟩ := List.nodup_cons.1 h
    rw [List.lookup_cons]
    rcases List.mem_cons.1 hentry with rfl | hmem
    · rw [beq_self_eq_true]
    · have hne : entry.1 ≠ key := by
        rintro rfl
        exact hfirst (List.mem_map.2 ⟨entry, hmem, rfl⟩)
      rw [beq_false_of_ne hne]
      exact ih hrest hmem

/-- Puts an entry into a list that is ascending by key, replacing an entry with its key. -/
def putAscending [LT κ] [DecidableLT κ] [DecidableEq κ] (key : κ) (value : α) :
    List (κ × α) → List (κ × α)
  | [] => [(key, value)]
  | (k, v) :: rest =>
    if key < k then (key, value) :: (k, v) :: rest
    else if key = k then (key, value) :: rest
    else (k, v) :: putAscending key value rest

@[grind =]
theorem putAscending_nil [LT κ] [DecidableLT κ] [DecidableEq κ] (key : κ) (value : α) :
    putAscending key value [] = [(key, value)] :=
  rfl

@[grind =]
theorem putAscending_cons [LT κ] [DecidableLT κ] [DecidableEq κ] (key k : κ) (value v : α)
    (rest : List (κ × α)) :
    putAscending key value ((k, v) :: rest) =
      if key < k then (key, value) :: (k, v) :: rest
      else if key = k then (key, value) :: rest
      else (k, v) :: putAscending key value rest :=
  rfl

theorem lookup_putAscending [LT κ] [DecidableLT κ] [DecidableEq κ] [BEq κ] [LawfulBEq κ]
    {key k : κ} {value : α} {entries : List (κ × α)} :
    (putAscending key value entries).lookup k =
      if k = key then some value else entries.lookup k := by
  induction entries <;> grind

theorem mem_putAscending [LT κ] [DecidableLT κ] [DecidableEq κ] {key : κ} {value : α}
    {entries : List (κ × α)} {entry : κ × α} (h : entry ∈ putAscending key value entries) :
    entry = (key, value) ∨ entry ∈ entries := by
  induction entries <;> grind

theorem pairwise_putAscending [LT κ] [DecidableLT κ] [DecidableEq κ]
    [Trans (α := κ) (β := κ) (γ := κ) (· < ·) (· < ·) (· < ·)]
    [Std.Trichotomous (α := κ) (· < ·)] {key : κ} {value : α} {entries : List (κ × α)}
    (h : entries.Pairwise (·.1 < ·.1)) :
    (putAscending key value entries).Pairwise (·.1 < ·.1) := by
  fun_induction putAscending key value entries with
  | case1 => exact List.pairwise_singleton ..
  | case2 k v rest hlt =>
    obtain ⟨hk, hrest⟩ := List.pairwise_cons.1 h
    refine List.pairwise_cons.2 ⟨fun entry hentry => ?_, h⟩
    rcases List.mem_cons.1 hentry with rfl | hentry
    · exact hlt
    · exact Trans.trans hlt (hk entry hentry)
  | case3 v rest hlt => exact List.pairwise_cons.2 (List.pairwise_cons.1 h)
  | case4 k v rest hlt hne ih =>
    obtain ⟨hk, hrest⟩ := List.pairwise_cons.1 h
    have hkey : k < key := Decidable.of_not_not fun hnot =>
      hne (Std.Trichotomous.trichotomous key k hlt hnot)
    refine List.pairwise_cons.2 ⟨fun entry hentry => ?_, ih hrest⟩
    rcases mem_putAscending hentry with rfl | hentry
    · exact hkey
    · exact hk entry hentry

theorem perm_putAscending [LT κ] [DecidableLT κ] [DecidableEq κ] {key : κ} {value : α}
    {entries : List (κ × α)} (h : key ∉ entries.map (·.1)) :
    (putAscending key value entries).Perm ((key, value) :: entries) := by
  induction entries with
  | nil => exact .refl _
  | cons entry rest ih =>
    obtain ⟨k, v⟩ := entry
    obtain ⟨hne, hrest⟩ : key ≠ k ∧ key ∉ rest.map (·.1) := by simpa using h
    rw [putAscending_cons, if_neg hne]
    split
    · exact .refl _
    · exact ((ih hrest).cons (k, v)).trans (.swap ..)

/-- The entries ascending by key; of several entries with one key the last. -/
def ascendingByKey [LT κ] [DecidableLT κ] [DecidableEq κ] (entries : List (κ × α)) :
    List (κ × α) :=
  entries.foldl (fun sorted entry => putAscending entry.1 entry.2 sorted) []

theorem pairwise_ascendingByKey [LT κ] [DecidableLT κ] [DecidableEq κ]
    [Trans (α := κ) (β := κ) (γ := κ) (· < ·) (· < ·) (· < ·)]
    [Std.Trichotomous (α := κ) (· < ·)] (entries : List (κ × α)) :
    (ascendingByKey entries).Pairwise (·.1 < ·.1) := by
  have (sorted : List (κ × α)) (h : sorted.Pairwise (·.1 < ·.1)) :
      (entries.foldl (fun sorted entry => putAscending entry.1 entry.2 sorted)
        sorted).Pairwise (·.1 < ·.1) := by
    induction entries generalizing sorted with
    | nil => exact h
    | cons entry rest ih => exact ih _ (pairwise_putAscending h)
  exact this [] List.Pairwise.nil

/-- Entries whose keys are not repeated are all kept. -/
theorem perm_ascendingByKey [LT κ] [DecidableLT κ] [DecidableEq κ] {entries : List (κ × α)}
    (hkeys : (entries.map (·.1)).Nodup) : (ascendingByKey entries).Perm entries := by
  have (sorted : List (κ × α)) (h : ((sorted ++ entries).map (·.1)).Nodup) :
      (entries.foldl (fun sorted entry => putAscending entry.1 entry.2 sorted)
        sorted).Perm (sorted ++ entries) := by
    clear hkeys
    induction entries generalizing sorted with
    | nil => simp
    | cons entry rest ih =>
      have hput : (putAscending entry.1 entry.2 sorted).Perm (entry :: sorted) := by
        refine perm_putAscending fun hmem => ?_
        rw [List.map_append, List.nodup_append] at h
        exact h.2.2 entry.1 hmem entry.1 List.mem_cons_self rfl
      have hrest := (hput.append_right rest).trans List.perm_middle.symm
      exact (ih _ ((hrest.map _).nodup_iff.mpr h)).trans hrest
  exact this [] hkeys

end CollectionSchema
