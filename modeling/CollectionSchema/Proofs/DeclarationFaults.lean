import CollectionSchema.Proofs.Declaration
import Mathlib.Data.List.Duplicate

/-!
# What the check of declarations finds fault with

`Graph.Faulty` says of each kind of fault which declaration of the graph is to blame, what is wrong
with it, and in which words.

* `ScanAt`: records and enumerations are scanned in order, and what the scans remember are names of
  declarations that stand before.
* `blames_of_check`: the check reports only such faults.
* `WellFormed.filter_records`, `WellFormed.filter_enums`: in a well-formed graph the look-up of a
  name finds all its declarations.
* `check_decides`: the check decides well-formedness.
-/

namespace CollectionSchema

open List (Duplicate)

/-- A repeated name is one of those seen before or stands twice in the list. -/
theorem firstRepeat_eq_some {seen names : List String} {name : String}
    (h : firstRepeat seen names = some name) :
    name ∈ names ∧ (name ∈ seen ∨ Duplicate name names) := by
  induction names generalizing seen with
  | nil => cases h
  | cons first rest ih =>
    rw [firstRepeat] at h
    split at h
    · next hseen =>
      cases h
      exact ⟨List.mem_cons_self, .inl hseen⟩
    · obtain ⟨hmem, hrepeat⟩ := ih h
      refine ⟨List.mem_cons_of_mem _ hmem, ?_⟩
      rcases hrepeat with hseen | hrest
      · rcases List.mem_cons.mp hseen with rfl | hseen
        · exact .inr hmem.duplicate_cons_self
        · exact .inl hseen
      · exact .inr (hrest.duplicate_cons first)

theorem duplicate_of_firstRepeat {names : List String} {name : String}
    (h : firstRepeat [] names = some name) : Duplicate name names := by
  obtain ⟨-, hseen | hrepeat⟩ := firstRepeat_eq_some h
  · cases hseen
  · exact hrepeat

namespace Graph

variable {g : Graph}

/-! ## Faults -/

/-- What is wrong with a declaration of the graph, and the text that says so. -/
inductive Faulty (g : Graph) : DeclarationError → String → Prop
  | duplicateRecord {r : Record} : r ∈ g.records → Duplicate r.name (g.records.map (·.name)) →
      g.Faulty (.duplicateRecord r.name) ("duplicate record name: " ++ r.name)
  | duplicateProperty {r : Record} {p : Property} : r ∈ g.records → p ∈ r.properties →
      Duplicate p.name (r.properties.map (·.name)) →
        g.Faulty (.duplicateProperty r.name p.name)
          ("duplicate property name: " ++ r.name ++ "#" ++ p.name)
  | duplicateEnum {e : Enumeration} : e ∈ g.enums → Duplicate e.name (g.enums.map (·.name)) →
      g.Faulty (.duplicateEnum e.name) ("duplicate enum name: " ++ e.name)
  | recordAndEnum {r : Record} {e : Enumeration} : r ∈ g.records → e ∈ g.enums →
      r.name = e.name →
        g.Faulty (.recordAndEnum e.name) ("name declared as both record and enum: " ++ e.name)
  | emptyEnum {e : Enumeration} : e ∈ g.enums → e.values = [] →
      g.Faulty (.emptyEnum e.name) ("enum has no values: " ++ e.name)
  | duplicateValue {e : Enumeration} {value : String} : e ∈ g.enums → Duplicate value e.values →
      g.Faulty (.duplicateValue e.name value)
        ("duplicate enum value: " ++ e.name ++ "." ++ value)

/-- The error names a declaration of the graph and says what is wrong with it. -/
def Blames (g : Graph) (e : DeclarationError) : Prop :=
  ∃ text, g.Faulty e text ∧ e.message = "invalid declarations: " ++ text

/-! ## Scans -/

/-- A scan of `xs` that has come to `rest` and remembers names of elements before that. -/
def ScanAt {α : Type} (key : α → String) (xs rest : List α) (seen : List String) : Prop :=
  ∃ before, xs = before ++ rest ∧ ∀ name ∈ seen, name ∈ before.map key

namespace ScanAt

variable {α : Type} {key : α → String} {xs rest : List α} {x : α} {seen : List String}

theorem start (xs : List α) : ScanAt key xs xs [] := ⟨[], rfl, by simp⟩

theorem next (h : ScanAt key xs (x :: rest) seen) : ScanAt key xs rest (key x :: seen) := by
  obtain ⟨before, rfl, hseen⟩ := h
  refine ⟨before ++ [x], by simp, fun name hname => ?_⟩
  rw [List.map_append, List.mem_append]
  rcases List.mem_cons.mp hname with rfl | hname
  · exact .inr List.mem_cons_self
  · exact .inl (hseen name hname)

theorem mem (h : ScanAt key xs (x :: rest) seen) : x ∈ xs := by
  obtain ⟨before, rfl, -⟩ := h
  exact List.mem_append_right _ List.mem_cons_self

/-- A name that is remembered when its turn comes stands twice. -/
theorem duplicate (h : ScanAt key xs (x :: rest) seen) (hx : key x ∈ seen) :
    Duplicate (key x) (xs.map key) := by
  obtain ⟨before, rfl, hseen⟩ := h
  rw [List.duplicate_iff_two_le_count, List.map_append, List.count_append, List.map_cons,
    List.count_cons_self]
  have hbefore := List.count_pos_iff.mpr (hseen _ hx)
  omega

end ScanAt

theorem blames_of_checkRecords {records : List Record} {seen : List String}
    {e : DeclarationError} (hscan : ScanAt (·.name) g.records records seen)
    (h : checkRecords seen records = .error e) : g.Blames e := by
  induction records generalizing seen with
  | nil => cases h
  | cons r rest ih =>
    rw [checkRecords] at h
    split at h
    · next hname =>
      cases h
      exact ⟨_, .duplicateRecord hscan.mem (hscan.duplicate hname), rfl⟩
    split at h
    · next name hproperty =>
      cases h
      have htwice := duplicate_of_firstRepeat hproperty
      obtain ⟨p, hp, rfl⟩ := List.mem_map.mp htwice.mem
      exact ⟨_, .duplicateProperty hscan.mem hp htwice, rfl⟩
    · exact ih hscan.next h

theorem blames_of_checkEnums {enums : List Enumeration} {seen : List String}
    {e : DeclarationError} (hscan : ScanAt (·.name) g.enums enums seen)
    (h : checkEnums (g.records.map (·.name)) seen enums = .error e) : g.Blames e := by
  induction enums generalizing seen with
  | nil => cases h
  | cons d rest ih =>
    rw [checkEnums] at h
    split at h
    · next hname =>
      cases h
      exact ⟨_, .duplicateEnum hscan.mem (hscan.duplicate hname), rfl⟩
    split at h
    · next hrecord =>
      cases h
      obtain ⟨r, hr, hname⟩ := List.mem_map.mp hrecord
      exact ⟨_, .recordAndEnum hr hscan.mem hname, rfl⟩
    split at h
    · next hempty =>
      cases h
      exact ⟨_, .emptyEnum hscan.mem (List.isEmpty_iff.mp hempty), rfl⟩
    split at h
    · next value hvalue =>
      cases h
      exact ⟨_, .duplicateValue hscan.mem (duplicate_of_firstRepeat hvalue), rfl⟩
    · exact ih hscan.next h

/-- **The check reports real faults only.** -/
theorem blames_of_check {e : DeclarationError} (h : g.check = .error e) :
    g.Blames e := by
  rcases Outcome.bind_eq_error_iff.mp h with hrecords | ⟨⟨⟩, -, henums⟩
  · exact blames_of_checkRecords (.start _) hrecords
  · exact blames_of_checkEnums (.start _) henums

/-! ## Look-ups -/

/-- With keys that are not repeated, a search for a key finds all elements that have it. -/
theorem filter_eq_toList_find? {α : Type} {key : α → String} {xs : List α}
    (hkeys : (xs.map key).Nodup) (k : String) :
    xs.filter (key · == k) = (xs.find? (key · == k)).toList := by
  induction xs with
  | nil => rfl
  | cons x rest ih =>
    obtain ⟨hx, hrest⟩ := List.nodup_cons.mp hkeys
    by_cases hk : key x = k
    · have hnone : rest.filter (key · == k) = [] := by
        rw [List.filter_eq_nil_iff]
        intro y hy heq
        rw [beq_iff_eq] at heq
        exact hx (List.mem_map.mpr ⟨y, hy, heq.trans hk.symm⟩)
      rw [List.filter_cons_of_pos (by simpa using hk), List.find?_cons_of_pos (by simpa using hk),
        hnone]
      rfl
    · rw [List.filter_cons_of_neg (by simpa using hk), List.find?_cons_of_neg (by simpa using hk),
        ih hrest]

theorem WellFormed.filter_records (hg : g.WellFormed) (name : String) :
    g.records.filter (·.name == name) = (g.record? name).toList :=
  filter_eq_toList_find? hg.records name

theorem WellFormed.filter_enums (hg : g.WellFormed) (name : String) :
    g.enums.filter (·.name == name) = (g.enum? name).toList :=
  filter_eq_toList_find? hg.enums name

theorem WellFormed.record?_or_enum?_eq_none (hg : g.WellFormed) (name : String) :
    g.record? name = none ∨ g.enum? name = none := by
  cases he : g.enum? name with
  | none => exact .inr rfl
  | some e =>
    refine .inl (Option.not_isSome_iff_eq_none.mp fun hsome => ?_)
    obtain ⟨r, hr, hname⟩ := record?_isSome_iff.mp hsome
    have hename : e.name = name := by simpa using List.find?_some he
    exact hg.disjoint e (mem_of_enum? he) (List.mem_map.mpr ⟨r, hr, hname.trans hename.symm⟩)

/-- **The check decides well-formedness.** It accepts exactly the graphs whose names are declared
once and whose enumerations have values, all different. Otherwise it names a declaration that is
at fault, and says with which fault. In a graph that it accepts, the declarations of a name are
those that the look-ups find: a record, or an enumeration, or nothing. -/
theorem check_decides (g : Graph) :
    (g.check = .ok () ↔ g.WellFormed) ∧
    (∀ e, g.check = .error e → g.Blames e) ∧
    (g.check = .ok () → ∀ name,
      g.records.filter (·.name == name) = (g.record? name).toList ∧
      g.enums.filter (·.name == name) = (g.enum? name).toList ∧
      (g.record? name = none ∨ g.enum? name = none)) := by
  refine ⟨check_eq_ok_iff, fun e => blames_of_check, fun h name => ?_⟩
  have hg := check_eq_ok_iff.mp h
  exact ⟨hg.filter_records name, hg.filter_enums name, hg.record?_or_enum?_eq_none name⟩

end Graph

end CollectionSchema
