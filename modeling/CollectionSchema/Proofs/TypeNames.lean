import CollectionSchema.Declaration.TypeName
import Mathlib.Data.List.DropRight

/-!
# The grammar of type names

A type is written as a name that refers to it, or as the text of its element between `List<` and
`>`, with blanks around either (`TypeName.Denotes`). The reader trims a text and takes off both ends
of a list one after the other; since a text in brackets has no blanks at its ends and a plain name
no brackets, this is what the grammar says.

* `Text.trim_of_padded`: trimming finds the text between the blanks.
* `TypeName.text_induction`: every text is blank, a name, wrapped or malformed, and only a wrapped
  one has another text to read inside. `TypeName.read_sound` is the induction over it.
* `TypeRef.parse_display_iff`: which types are read from their own text.

`TypeRef.parse_spec` joins them.
-/

namespace CollectionSchema

/-! ## Trimming -/

namespace Text

/-- The text is the inner one between blanks. -/
def Padded (inner text : List Char) : Prop :=
  ∃ before after, text = before ++ inner ++ after ∧
    (∀ c ∈ before, isBlank c = true) ∧ ∀ c ∈ after, isBlank c = true

/-- Neither end of the text is blank. -/
structure Tight (text : List Char) : Prop where
  head : ∀ c, text.head? = some c → isBlank c = false
  last : ∀ c, text.getLast? = some c → isBlank c = false

/-- Whether a text has another one between blanks, as it is computed. -/
theorem padded_iff_all {inner text : List Char} : Padded inner text ↔
    ∃ before after, text = before ++ inner ++ after ∧
      before.all isBlank = true ∧ after.all isBlank = true := by
  simp only [Padded, List.all_eq_true]

theorem padded_refl (text : List Char) : Padded text text :=
  ⟨[], [], by simp, by simp, by simp⟩

theorem tight_of_forall {text : List Char} (h : ∀ c ∈ text, isBlank c = false) : Tight text where
  head c hc := h c (List.mem_of_mem_head? hc)
  last c hc := h c (List.mem_of_mem_getLast? hc)

theorem trim_eq (text : List Char) : trim text = (text.dropWhile isBlank).rdropWhile isBlank := by
  rw [trim, trimEnd_eq, List.rdropWhile]

theorem padded_trim (text : List Char) : Padded (trim text) text := by
  refine ⟨text.takeWhile isBlank, (text.dropWhile isBlank).rtakeWhile isBlank, ?_, ?_, ?_⟩
  · rw [trim_eq, List.append_assoc, List.rdropWhile_append_rtakeWhile,
      List.takeWhile_append_dropWhile]
  · intro c hc
    exact List.mem_takeWhile_imp hc
  · intro c hc
    exact List.mem_rtakeWhile_imp hc

theorem tight_trim (text : List Char) : Tight (trim text) := by
  rw [trim_eq]
  constructor
  · intro c hc
    obtain ⟨rest, hrest⟩ := List.rdropWhile_prefix isBlank (l := text.dropWhile isBlank)
    have hhead : (text.dropWhile isBlank).head? = some c := by
      rw [← hrest, List.head?_append, hc, Option.some_or]
    have hnot := List.head?_dropWhile_not isBlank text
    simpa [hhead] using hnot
  · intro c hc
    have hne : (text.dropWhile isBlank).rdropWhile isBlank ≠ [] := by
      rintro heq
      rw [heq] at hc
      cases hc
    have hnot := List.rdropWhile_last_not isBlank _ hne
    rw [List.getLast?_eq_some_getLast hne, Option.some.injEq] at hc
    simpa [hc] using hnot

theorem dropWhile_blanks {before rest : List Char} (hbefore : ∀ c ∈ before, isBlank c = true)
    (hrest : ∀ c, rest.head? = some c → isBlank c = false) :
    (before ++ rest).dropWhile isBlank = rest := by
  rw [List.dropWhile_append_of_pos hbefore]
  cases rest with
  | nil => rfl
  | cons c rest => rw [List.dropWhile_cons_of_neg (by simp [hrest c rfl])]

theorem trim_eq_nil_iff {text : List Char} : trim text = [] ↔ ∀ c ∈ text, isBlank c = true := by
  constructor
  · intro h
    obtain ⟨before, after, htext, hbefore, hafter⟩ := padded_trim text
    rw [h, List.append_nil] at htext
    intro c hc
    rw [htext] at hc
    rcases List.mem_append.mp hc with hc | hc
    · exact hbefore c hc
    · exact hafter c hc
  · intro h
    rw [trim, List.dropWhile_eq_nil_iff.mpr h]
    rfl

/-- Trimming takes off all blanks around a text, and only these. -/
theorem trim_of_padded {inner text : List Char} (h : Padded inner text) (htight : Tight inner) :
    trim text = inner := by
  obtain ⟨before, after, rfl, hbefore, hafter⟩ := h
  cases inner with
  | nil =>
    refine trim_eq_nil_iff.mpr fun c hc => ?_
    rw [List.append_nil] at hc
    rcases List.mem_append.mp hc with hc | hc
    · exact hbefore c hc
    · exact hafter c hc
  | cons first rest =>
    have hfront : (before ++ (first :: rest ++ after)).dropWhile isBlank = first :: rest ++ after :=
      dropWhile_blanks hbefore fun c hc => htight.head c (by simpa using hc)
    have hback : (after.reverse ++ (first :: rest).reverse).dropWhile isBlank =
        (first :: rest).reverse := by
      refine dropWhile_blanks (fun c hc => hafter c (List.mem_reverse.mp hc)) fun c hc => ?_
      rw [List.head?_reverse] at hc
      exact htight.last c hc
    rw [trim, trimEnd_eq, List.append_assoc, hfront, List.reverse_append, hback,
      List.reverse_reverse]

end Text

/-! ## The grammar -/

namespace TypeName

/-- A text with `List<` before and `>` behind it. -/
def wrap (inner : List Char) : List Char := ['L', 'i', 's', 't', '<'] ++ inner ++ ['>']

/-- A name: not empty, and without brackets, commas and blanks. -/
def IsPlain (name : List Char) : Prop :=
  name ≠ [] ∧ ∀ c ∈ name, c ≠ '<' ∧ c ≠ '>' ∧ c ≠ ',' ∧ Text.isBlank c = false

/-- What a name refers to: a primitive before an enumeration, and an enumeration before a record. -/
inductive Refers (enums : List String) : String → TypeRef → Prop
  | primitive (kind : Primitive) : Refers enums kind.name (.primitive kind)
  | enumeration {name : String} : (∀ kind : Primitive, kind.name ≠ name) → name ∈ enums →
      Refers enums name (.enumeration name)
  | record {name : String} : (∀ kind : Primitive, kind.name ≠ name) → name ∉ enums →
      Refers enums name (.record name)

/-- The texts of a type: a name that refers to it, or its element between `List<` and `>`, with
blanks around either. -/
inductive Denotes (enums : List String) : List Char → TypeRef → Prop
  | name {text name : List Char} {type : TypeRef} : Text.Padded name text → IsPlain name →
      Refers enums (String.ofList name) type → Denotes enums text type
  | list {text inner : List Char} {element : TypeRef} : Text.Padded (wrap inner) text →
      Denotes enums inner element → Denotes enums text (.list element)

/-- What is left of a text when some pairs of `List<` and `>` are taken off, with the blanks around
them. -/
inductive Strips : List Char → List Char → Prop
  | refl (text : List Char) : Strips text text
  | step {text inner rest : List Char} : Text.Padded (wrap inner) text → Strips inner rest →
      Strips text rest

/-- The text has nothing but blanks in the innermost list. -/
def IsVacant (text : List Char) : Prop :=
  ∃ rest, Strips text rest ∧ ∀ c ∈ rest, Text.isBlank c = true

/-- A text without blanks at its ends that is neither empty, nor a name, nor wrapped. -/
structure IsMalformed (text : List Char) : Prop where
  tight : Text.Tight text
  ne_nil : text ≠ []
  not_plain : ¬ IsPlain text
  not_wrapped : ∀ inner, text ≠ wrap inner

/-- The text has a part in the innermost list that is no type name. -/
def BreaksAt (text name : List Char) : Prop :=
  ∃ rest, Strips text rest ∧ Text.Padded name rest ∧ IsMalformed name

variable {enums : List String}

/-! ### Names and wrapped texts -/

theorem isReserved_eq_false_iff {c : Char} : isReserved c = false ↔
    c ≠ '<' ∧ c ≠ '>' ∧ c ≠ ',' ∧ Text.isBlank c = false := by
  simp [isReserved, and_assoc]

theorem isPlain_iff {name : List Char} :
    IsPlain name ↔ name ≠ [] ∧ name.any isReserved = false := by
  simp only [IsPlain, List.any_eq_false, Bool.not_eq_true, isReserved_eq_false_iff]

theorem IsPlain.tight {name : List Char} (h : IsPlain name) : Text.Tight name :=
  Text.tight_of_forall fun c hc => (h.2 c hc).2.2.2

theorem isPlain_primitive (kind : Primitive) : IsPlain kind.name.toList := by
  rw [isPlain_iff]
  cases kind <;> decide

theorem tight_wrap (inner : List Char) : Text.Tight (wrap inner) where
  head c hc := by
    obtain rfl : 'L' = c := by simpa [wrap] using hc
    decide
  last c hc := by
    rw [wrap, List.getLast?_concat] at hc
    obtain rfl := Option.some.inj hc
    decide

theorem wrap_ne_nil (inner : List Char) : wrap inner ≠ [] := by
  simp [wrap]

theorem element?_wrap (inner : List Char) : element? (wrap inner) = some (some inner) := by
  simp [wrap, element?]

/-- A plain name does not even begin like a list. -/
theorem element?_of_isPlain {name : List Char} (h : IsPlain name) : element? name = none := by
  unfold element?
  split
  · exact absurd rfl (h.2 '<' (by simp)).1
  · rfl

/-- What is neither wrapped nor plain begins like a list or has a reserved character. -/
theorem eq_wrap_of_element? {name inner : List Char} (h : element? name = some (some inner)) :
    name = wrap inner := by
  unfold element? at h
  split at h
  · next rest =>
    split at h
    · next hlast =>
      obtain ⟨rest, rfl⟩ := List.getLast?_eq_some_iff.mp hlast
      cases h
      simp [wrap]
    · cases h
  · cases h

theorem primitive_ofName?_eq_none_iff {name : String} :
    Primitive.ofName? name = none ↔ ∀ kind : Primitive, kind.name ≠ name := by
  constructor
  · rintro hnone kind rfl
    rw [Primitive.ofName?_name] at hnone
    cases hnone
  · intro h
    simp [Primitive.ofName?, h]

theorem refers_iff {name : String} {type : TypeRef} :
    Refers enums name type ↔ refer enums name = type := by
  unfold refer
  constructor
  · rintro (kind | ⟨hkind, hmem⟩ | ⟨hkind, hmem⟩)
    · rw [Primitive.ofName?_name]
    · rw [primitive_ofName?_eq_none_iff.mpr hkind, if_pos hmem]
    · rw [primitive_ofName?_eq_none_iff.mpr hkind, if_neg hmem]
  · rintro rfl
    cases hname : Primitive.ofName? name with
    | some kind =>
      obtain rfl : kind.name = name := by
        simpa using List.find?_some hname
      exact .primitive kind
    | none =>
      have hkind := primitive_ofName?_eq_none_iff.mp hname
      dsimp only
      split
      · exact .enumeration hkind ‹_›
      · exact .record hkind ‹_›

/-! ## Reading -/

theorem read_eq (text : List Char) : read enums text =
    if (Text.trim text).isEmpty then .error .empty
    else match element? (Text.trim text) with
      | some (some inner) => (do return .list (← read enums inner))
      | some none => .error (.malformed (String.ofList (Text.trim text)))
      | none =>
        if (Text.trim text).any isReserved then
          .error (.malformed (String.ofList (Text.trim text)))
        else .ok (refer enums (String.ofList (Text.trim text))) := by
  rw [read]
  split
  · rfl
  · split <;> simp only [*]

theorem read_of_blank {text : List Char} (h : ∀ c ∈ text, Text.isBlank c = true) :
    read enums text = .error .empty := by
  rw [read_eq, Text.trim_eq_nil_iff.mpr h]
  rfl

theorem read_of_plain {text name : List Char} (h : Text.Padded name text) (hname : IsPlain name) :
    read enums text = .ok (refer enums (String.ofList name)) := by
  obtain ⟨hne, hany⟩ := isPlain_iff.mp hname
  rw [read_eq, Text.trim_of_padded h hname.tight, element?_of_isPlain hname, hany]
  simp [hne]

theorem read_of_wrap {text inner : List Char} (h : Text.Padded (wrap inner) text) :
    read enums text = (do return .list (← read enums inner)) := by
  rw [read_eq, Text.trim_of_padded h (tight_wrap inner), element?_wrap]
  simp [wrap_ne_nil]

theorem read_of_malformed {text name : List Char} (h : Text.Padded name text)
    (hname : IsMalformed name) : read enums text = .error (.malformed (String.ofList name)) := by
  have hreserved : name.any isReserved = true := by
    have hnot := hname.not_plain
    rw [isPlain_iff, not_and] at hnot
    simpa using hnot hname.ne_nil
  rw [read_eq, Text.trim_of_padded h hname.tight, hreserved]
  have hne : name.isEmpty = false := by simpa using hname.ne_nil
  simp only [hne, Bool.false_eq_true, if_false, if_true]
  split
  · next inner helement => exact absurd (eq_wrap_of_element? helement) (hname.not_wrapped inner)
  · rfl
  · rfl

/-- Every text is blank, a name, wrapped or malformed, with blanks around it. -/
theorem text_induction {motive : List Char → Prop}
    (blank : ∀ text, (∀ c ∈ text, Text.isBlank c = true) → motive text)
    (name : ∀ text name, Text.Padded name text → IsPlain name → motive text)
    (list : ∀ text inner, Text.Padded (wrap inner) text → motive inner → motive text)
    (malformed : ∀ text name, Text.Padded name text → IsMalformed name → motive text)
    (text : List Char) : motive text := by
  generalize hlength : text.length = length
  induction length using Nat.strongRecOn generalizing text with
  | ind length ih =>
    have hpadded := Text.padded_trim text
    by_cases hnil : Text.trim text = []
    · exact blank text (Text.trim_eq_nil_iff.mp hnil)
    by_cases hplain : IsPlain (Text.trim text)
    · exact name text _ hpadded hplain
    by_cases hwrap : ∃ inner, Text.trim text = wrap inner
    · obtain ⟨inner, hinner⟩ := hwrap
      rw [hinner] at hpadded
      have hlt : inner.length < length := by
        have hle := Text.length_trim_le text
        simp only [hinner, wrap, List.length_append, List.length_singleton] at hle
        omega
      exact list text inner hpadded (ih inner.length hlt inner rfl)
    · exact malformed text _ hpadded ⟨Text.tight_trim text, hnil, hplain, not_exists.mp hwrap⟩

/-! ### What the reader gives -/

theorem read_of_denotes {text : List Char} {type : TypeRef} (h : Denotes enums text type) :
    read enums text = .ok type := by
  induction h with
  | name hpadded hname hrefers => rw [read_of_plain hpadded hname, refers_iff.mp hrefers]
  | list hpadded _ ih =>
    rw [read_of_wrap hpadded, ih]
    rfl

theorem read_of_strips {text rest : List Char} (h : Strips text rest) {e : TypeNameError}
    (hrest : read enums rest = .error e) : read enums text = .error e := by
  induction h with
  | refl text => exact hrest
  | step hpadded _ ih =>
    rw [read_of_wrap hpadded, ih hrest]
    rfl

/-- What the reader says about a text is true of it. -/
theorem read_sound (enums : List String) (text : List Char) :
    match read enums text with
    | .ok type => Denotes enums text type
    | .error .empty => IsVacant text
    | .error (.malformed name) => BreaksAt text name.toList := by
  induction text using text_induction with
  | blank text hblank =>
    rw [read_of_blank hblank]
    exact ⟨text, .refl text, hblank⟩
  | name text name hpadded hname =>
    rw [read_of_plain hpadded hname]
    exact .name hpadded hname (refers_iff.mpr rfl)
  | list text inner hpadded ih =>
    rw [read_of_wrap hpadded]
    cases hread : read enums inner with
    | ok element =>
      rw [hread] at ih
      exact .list hpadded ih
    | error e =>
      rw [hread] at ih
      cases e with
      | empty =>
        obtain ⟨rest, hstrips, hrest⟩ := ih
        exact ⟨rest, .step hpadded hstrips, hrest⟩
      | malformed name =>
        obtain ⟨rest, hstrips, hrest⟩ := ih
        exact ⟨rest, .step hpadded hstrips, hrest⟩
  | malformed text name hpadded hname =>
    rw [read_of_malformed hpadded hname]
    dsimp only
    rw [String.toList_ofList]
    exact ⟨text, .refl text, hpadded, hname⟩

theorem read_eq_ok_iff {text : List Char} {type : TypeRef} :
    read enums text = .ok type ↔ Denotes enums text type := by
  refine ⟨fun h => ?_, read_of_denotes⟩
  have hsound := read_sound enums text
  rwa [h] at hsound

theorem read_eq_empty_iff {text : List Char} :
    read enums text = .error .empty ↔ IsVacant text := by
  constructor
  · intro h
    have hsound := read_sound enums text
    rwa [h] at hsound
  · rintro ⟨rest, hstrips, hrest⟩
    exact read_of_strips hstrips (read_of_blank hrest)

theorem read_eq_malformed_iff {text : List Char} {name : String} :
    read enums text = .error (.malformed name) ↔ BreaksAt text name.toList := by
  constructor
  · intro h
    have hsound := read_sound enums text
    rwa [h] at hsound
  · rintro ⟨rest, hstrips, hpadded, hname⟩
    refine read_of_strips hstrips ?_
    rw [read_of_malformed hpadded hname, String.ofList_toList]

end TypeName

/-! ## Writing -/

namespace TypeRef

variable {enums : List String}

/-- The names in the type are plain, and refer to what the type says. -/
def IsNamed (enums : List String) : TypeRef → Prop
  | primitive _ => True
  | enumeration name => TypeName.IsPlain name.toList ∧
      (∀ kind : Primitive, kind.name ≠ name) ∧ name ∈ enums
  | record name => TypeName.IsPlain name.toList ∧
      (∀ kind : Primitive, kind.name ≠ name) ∧ name ∉ enums
  | list element => element.IsNamed enums

theorem denotes_of_refers {name : String} {type : TypeRef} (hplain : TypeName.IsPlain name.toList)
    (h : TypeName.Refers enums name type) : TypeName.Denotes enums name.toList type := by
  refine .name (Text.padded_refl _) hplain ?_
  rwa [String.ofList_toList]

theorem toList_display_list (element : TypeRef) :
    (list element).display.toList = TypeName.wrap element.display.toList := by
  simp [display, TypeName.wrap]

theorem denotes_display {type : TypeRef} (h : type.IsNamed enums) :
    TypeName.Denotes enums type.display.toList type := by
  induction type with
  | primitive kind => exact denotes_of_refers (TypeName.isPlain_primitive kind) (.primitive kind)
  | enumeration name =>
    obtain ⟨hplain, hkind, hmem⟩ := h
    exact denotes_of_refers hplain (.enumeration hkind hmem)
  | record name =>
    obtain ⟨hplain, hkind, hmem⟩ := h
    exact denotes_of_refers hplain (.record hkind hmem)
  | list element ih =>
    rw [toList_display_list]
    exact .list (Text.padded_refl _) (ih h)

theorem isNamed_of_refers {name : String} {type : TypeRef} (hplain : TypeName.IsPlain name.toList)
    (h : TypeName.Refers enums name type) : type.IsNamed enums := by
  cases h with
  | primitive kind => trivial
  | enumeration hkind hmem => exact ⟨hplain, hkind, hmem⟩
  | record hkind hmem => exact ⟨hplain, hkind, hmem⟩

theorem isNamed_of_denotes {text : List Char} {type : TypeRef}
    (h : TypeName.Denotes enums text type) : type.IsNamed enums := by
  induction h with
  | name _ hplain hrefers =>
    exact isNamed_of_refers (by rwa [String.toList_ofList]) hrefers
  | list _ _ ih => exact ih

/-- **The text of a type is read as the type exactly if its names are plain** and refer to what the
type says. -/
theorem parse_display_iff {type : TypeRef} :
    parse enums type.display = .ok type ↔ type.IsNamed enums := by
  rw [parse, TypeName.read_eq_ok_iff]
  exact ⟨isNamed_of_denotes, denotes_display⟩

/-! ## The reader of type names -/

/-- **The reader accepts exactly the texts of types**, and gives the type that the grammar gives. It
calls a text empty if only blanks are left when the lists around them are stripped, and else names
the part that is no type name. The text of a type with plain names is read as that type, and so is
that of every type that was read. -/
theorem parse_spec (enums : List String) :
    (∀ text type, parse enums text = .ok type ↔ TypeName.Denotes enums text.toList type) ∧
    (∀ text, parse enums text = .error .empty ↔ TypeName.IsVacant text.toList) ∧
    (∀ text, (∃ name, parse enums text = .error (.malformed name)) ↔
      (∀ type, ¬ TypeName.Denotes enums text.toList type) ∧ ¬ TypeName.IsVacant text.toList) ∧
    (∀ text name, parse enums text = .error (.malformed name) ↔
      TypeName.BreaksAt text.toList name.toList) ∧
    (∀ type : TypeRef, type.IsNamed enums → parse enums type.display = .ok type) ∧
    ∀ text type, parse enums text = .ok type → parse enums type.display = .ok type := by
  have hok : ∀ text type,
      parse enums text = .ok type ↔ TypeName.Denotes enums text.toList type :=
    fun text type => TypeName.read_eq_ok_iff
  have hempty : ∀ text, parse enums text = .error .empty ↔ TypeName.IsVacant text.toList :=
    fun text => TypeName.read_eq_empty_iff
  refine ⟨hok, hempty, fun text => ?_, fun text name => TypeName.read_eq_malformed_iff,
    fun type => parse_display_iff.mpr, fun text type h => ?_⟩
  · simp only [← hok, ← hempty]
    rcases parse enums text with (_ | name) | type <;> simp
  · exact parse_display_iff.mpr (isNamed_of_denotes ((hok text type).mp h))

/-- A list of lists of roles, with and without blanks, a list of nothing and a list of a map. -/
theorem parse_spec_roles :
    parse ["Role"] " List< List<Role> >" = .ok (.list (.list (.enumeration "Role"))) ∧
    parse ["Role"] "List<List<Role>>" = .ok (.list (.list (.enumeration "Role"))) ∧
    parse ["Role"] "List< >" = .error .empty ∧
    parse ["Role"] "List<Map<Role> >" = .error (.malformed "Map<Role>") := by
  obtain ⟨hok, hempty, -, hmalformed, -, hwritten⟩ := parse_spec ["Role"]
  have hrole : TypeName.Denotes ["Role"] "Role".toList (.enumeration "Role") := by
    refine denotes_of_refers (by rw [TypeName.isPlain_iff]; decide) (.enumeration ?_ (by decide))
    intro kind
    cases kind <;> decide
  have hlist : TypeName.Denotes ["Role"] " List<Role> ".toList (.list (.enumeration "Role")) :=
    .list (Text.padded_iff_all.mpr ⟨[' '], [' '], by decide⟩) hrole
  have hroles := (hok " List< List<Role> >" _).mpr
    (.list (Text.padded_iff_all.mpr ⟨[' '], [], by decide⟩) hlist)
  have hmap : TypeName.IsMalformed "Map<Role>".toList :=
    { tight := ⟨by rintro c ⟨⟩; decide, by rintro c ⟨⟩; decide⟩
      ne_nil := by decide
      not_plain := by rw [TypeName.isPlain_iff]; decide
      not_wrapped := by simp [TypeName.wrap] }
  have hvacant : ∀ c ∈ [' '], Text.isBlank c = true := List.all_eq_true.mp (by decide)
  refine ⟨hroles, hwritten _ _ hroles, (hempty _).mpr ?_, (hmalformed _ _).mpr ?_⟩
  · exact ⟨[' '], .step (Text.padded_refl _) (.refl _), hvacant⟩
  · exact ⟨"Map<Role> ".toList, .step (Text.padded_refl _) (.refl _),
      Text.padded_iff_all.mpr ⟨[], [' '], by decide⟩, hmap⟩

end TypeRef

end CollectionSchema
