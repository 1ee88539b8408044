import CollectionSchema.Files.Atomic
import CollectionSchema.Files.FileSystem

/-!
# Where paths lead

Where a path leads depends on the working directory and on the names of the path only
(`Path.location`). A file system decides whether the way is open, not where it ends
(`FileSystem.location_of_locatePath`).

* `Path.location_join`: the way of a joined path goes on where the way of the directory ends.
* `Path.getLast?_location`: a way ends at the last name of the path.
* `Path.location_temporary`: where a file is while it is written, next to where it is to be.
-/

namespace CollectionSchema

namespace Text

theorem pieces_append_cons (separator : Char) (left right : List Char) :
    pieces separator (left ++ separator :: right) =
      pieces separator left ++ pieces separator right := by
  induction left with
  | nil => exact pieces_cons_self ..
  | cons c left ih =>
    rw [List.cons_append]
    by_cases hc : c = separator
    · rw [hc, pieces_cons_self, pieces_cons_self, ih, List.cons_append]
    · obtain ⟨piece, others, hleft⟩ := List.exists_cons_of_ne_nil (pieces_ne_nil separator left)
      rw [hleft, List.cons_append] at ih
      rw [pieces_cons_of_ne hc hleft, pieces_cons_of_ne hc ih, List.cons_append]

theorem pieces_of_not_mem {separator : Char} {text : List Char} (h : separator ∉ text) :
    pieces separator text = [text] := by
  induction text with
  | nil => rfl
  | cons c text ih =>
    obtain ⟨hc, htext⟩ : separator ≠ c ∧ separator ∉ text := by simpa using h
    exact pieces_cons_of_ne (Ne.symm hc) (ih htext)

/-- Texts with separators between them have these texts as their pieces. -/
theorem pieces_intercalate {separator : Char} {texts : List (List Char)} (hne : texts ≠ [])
    (h : ∀ text ∈ texts, separator ∉ text) :
    pieces separator ([separator].intercalate texts) = texts := by
  induction texts with
  | nil => exact absurd rfl hne
  | cons text rest ih =>
    obtain ⟨htext, hrest⟩ := List.forall_mem_cons.mp h
    cases rest with
    | nil => simpa [List.intercalate] using pieces_of_not_mem htext
    | cons other others =>
      have hpieces := ih (List.cons_ne_nil _ _) hrest
      have hsplit : [separator].intercalate (text :: other :: others) =
          text ++ separator :: [separator].intercalate (other :: others) := by
        simp [List.intercalate]
      rw [hsplit, pieces_append_cons, pieces_of_not_mem htext, hpieces, List.singleton_append]

/-- What is added to a text without a separator is added to its last piece. -/
theorem exists_pieces_append (separator : Char) (text : List Char) {ending : List Char}
    (h : separator ∉ ending) :
    ∃ init last, pieces separator (text ++ ending) = init ++ [last ++ ending] := by
  induction text with
  | nil => exact ⟨[], [], pieces_of_not_mem h⟩
  | cons c text ih =>
    obtain ⟨init, last, hpieces⟩ := ih
    rw [List.cons_append]
    by_cases hc : c = separator
    · rw [hc, pieces_cons_self, hpieces]
      exact ⟨[] :: init, last, rfl⟩
    · cases init with
      | nil => exact ⟨[], c :: last, pieces_cons_of_ne hc hpieces⟩
      | cons piece init => exact ⟨(c :: piece) :: init, last, pieces_cons_of_ne hc hpieces⟩

end Text

namespace Path

/-! ## Names -/

theorem not_mem_of_mem_names {p : Path} {name : String} (h : name ∈ p.names) :
    '/' ∉ name.toList := by
  obtain ⟨piece, hpiece, rfl⟩ := List.mem_map.mp h
  rw [String.toList_ofList]
  exact Text.not_mem_of_mem_pieces (List.mem_filter.mp hpiece).1

theorem names_of_not_mem {name : String} (hslash : '/' ∉ name.toList)
    (hstep : isStep name.toList = true) : (Path.mk name).names = [name] := by
  simp [names, pieces, Text.pieces_of_not_mem hslash, hstep]

theorem isAbsolute_of_not_mem {name : String} (hslash : '/' ∉ name.toList) :
    (Path.mk name).isAbsolute = false := by
  rw [isAbsolute, beq_eq_false_iff_ne]
  intro h
  exact hslash (List.mem_of_mem_head? h)

theorem names_join {left right : Path} (h : right.isAbsolute = false) :
    (left.join right).names = left.names ++ right.names := by
  unfold join
  rw [if_neg (by simp [h])]
  split
  · next hleft =>
    rcases hleft with hempty | hslash
    · have htext : left.text = "" := by simpa using hempty
      simp [names, pieces, htext, isStep]
    · obtain ⟨init, hinit⟩ := List.getLast?_eq_some_iff.mp hslash
      have hpieces := Text.pieces_append_cons '/' init
      simp [names, pieces, hinit, hpieces, isStep]
  · have hpieces := Text.pieces_append_cons '/' left.text.toList right.text.toList
    simp [names, pieces, hpieces]

theorem fileName?_eq_some_iff {p : Path} {name : String} :
    p.fileName? = some name ↔ p.names.getLast? = some name ∧ name ≠ ".." := by
  rw [fileName?, Option.filter_eq_some_iff, bne_iff_ne]

/-- A joined path leads to what its right side leads to. -/
theorem fileName?_join {right : Path} {name : String} (h : right.fileName? = some name)
    (left : Path) : (left.join right).fileName? = some name := by
  obtain ⟨hlast, hback⟩ := fileName?_eq_some_iff.mp h
  cases habsolute : right.isAbsolute with
  | true =>
    have hjoin : left.join right = right := if_pos habsolute
    rw [hjoin, h]
  | false =>
    refine fileName?_eq_some_iff.mpr ⟨?_, hback⟩
    rw [names_join habsolute, List.getLast?_append, hlast, Option.some_or]

/-- What is added to a path without a slash is added to the name that it leads to. -/
theorem exists_getLast?_names {ending : String} (hslash : '/' ∉ ending.toList)
    (hstep : ∀ start, isStep (start ++ ending.toList) = true) (text : String) :
    ∃ start, (Path.mk (text ++ ending)).names.getLast? =
      some (String.ofList (start ++ ending.toList)) := by
  obtain ⟨init, last, hpieces⟩ := Text.exists_pieces_append '/' text.toList hslash
  refine ⟨last, ?_⟩
  simp [names, pieces, hpieces, hstep]

/-! ## Locations -/

/-- Where names lead from a location. -/
def resolve : Location → List String → Location
  | location, [] => location
  | location, name :: rest =>
    if name = ".." then resolve location.dropLast rest else resolve (location ++ [name]) rest

/-- Where a path leads from a working directory. -/
def location (p : Path) (working : Location) : Location :=
  resolve (if p.isAbsolute then [] else working) p.names

theorem resolve_append (start : Location) (names others : List String) :
    resolve start (names ++ others) = resolve (resolve start names) others := by
  induction names generalizing start with
  | nil => rfl
  | cons name names ih =>
    rw [List.cons_append, resolve, resolve]
    split
    · exact ih _
    · exact ih _

theorem resolve_singleton (start : Location) {name : String} (h : name ≠ "..") :
    resolve start [name] = start ++ [name] :=
  if_neg h

theorem isAbsolute_join {left right : Path} (h : right.isAbsolute = false) :
    (left.join right).isAbsolute = left.isAbsolute := by
  unfold join
  rw [if_neg (by simp [h])]
  by_cases hleft : left.text = ""
  · simpa [isAbsolute, hleft] using h
  · obtain ⟨c, rest, hc⟩ := List.exists_cons_of_ne_nil (mt String.toList_eq_nil_iff.mp hleft)
    split <;> simp [isAbsolute, hc]

theorem location_join {left right : Path} (h : right.isAbsolute = false) (working : Location) :
    (left.join right).location working = resolve (left.location working) right.names := by
  rw [location, isAbsolute_join h, names_join h, resolve_append, location]

/-- A way ends at the last name of the path, unless that leads back. -/
theorem getLast?_location {p : Path} {name : String} (h : p.fileName? = some name)
    (working : Location) : (p.location working).getLast? = some name := by
  obtain ⟨hlast, hback⟩ := fileName?_eq_some_iff.mp h
  obtain ⟨init, hinit⟩ := List.getLast?_eq_some_iff.mp hlast
  rw [location, hinit, resolve_append, resolve_singleton _ hback]
  exact List.getLast?_concat

/-! ## Directories -/

theorem filter_fromLastStep (pieces : List (List Char)) :
    (fromLastStep pieces).filter isStep = pieces.filter isStep := by
  fun_induction fromLastStep pieces with
  | case4 piece earlier _ hstep ih => rw [ih, List.filter_cons_of_neg hstep]
  | _ => rfl

theorem fromLastStep_ne_nil {pieces : List (List Char)} (h : pieces ≠ []) :
    fromLastStep pieces ≠ [] := by
  fun_induction fromLastStep pieces with
  | case1 => exact h
  | case4 piece earlier hne hstep ih => exact ih hne
  | _ => exact List.cons_ne_nil _ _

theorem isStep_of_fromLastStep {pieces outer : List (List Char)} {piece : List Char}
    (h : fromLastStep pieces = piece :: outer) (houter : outer ≠ []) : isStep piece = true := by
  fun_induction fromLastStep pieces with
  | case1 => cases h
  | case2 first =>
    cases h
    exact absurd rfl houter
  | case3 last earlier _ hstep =>
    cases h
    exact hstep
  | case4 last earlier _ _ ih => exact ih h

/-- A path is absolute if its first piece is empty and not the only one. -/
theorem isAbsolute_of_pieces {p : Path} {first : List Char} {rest : List (List Char)}
    (h : p.pieces = first :: rest) : p.isAbsolute = (first.isEmpty && !rest.isEmpty) := by
  unfold isAbsolute
  unfold pieces at h
  cases htext : p.text.toList with
  | nil =>
    rw [htext] at h
    cases h
    rfl
  | cons c text =>
    rw [htext] at h
    obtain ⟨piece, others, hpieces⟩ :=
      List.exists_cons_of_ne_nil (Text.pieces_ne_nil '/' text)
    by_cases hc : c = '/'
    · rw [hc, Text.pieces_cons_self, hpieces] at h
      cases h
      simp [hc]
    · rw [Text.pieces_cons_of_ne hc hpieces] at h
      cases h
      simp [hc]

theorem pieces_ofPieces {pieces : List (List Char)} (hne : pieces ≠ [])
    (hroot : pieces ≠ [[]]) (hslash : ∀ piece ∈ pieces, '/' ∉ piece) :
    (ofPieces pieces).pieces = pieces := by
  have htext : (ofPieces pieces).text.toList = ['/'].intercalate pieces := by
    unfold ofPieces
    split
    · exact absurd rfl hroot
    · exact String.toList_ofList
  rw [Path.pieces, htext, Text.pieces_intercalate hne hslash]

theorem names_ofPieces {pieces : List (List Char)} (hne : pieces ≠ [])
    (hslash : ∀ piece ∈ pieces, '/' ∉ piece) :
    (ofPieces pieces).names = (pieces.filter isStep).map String.ofList := by
  by_cases hroot : pieces = [[]]
  · subst hroot
    rfl
  · rw [names, pieces_ofPieces hne hroot hslash]

theorem isAbsolute_ofPieces {first : List Char} {rest : List (List Char)}
    (hslash : ∀ piece ∈ first :: rest, '/' ∉ piece) :
    (ofPieces (first :: rest)).isAbsolute = first.isEmpty := by
  by_cases hroot : first :: rest = [[]]
  · cases hroot
    rfl
  · rw [isAbsolute_of_pieces (pieces_ofPieces (List.cons_ne_nil _ _) hroot hslash)]
    cases first with
    | nil =>
      have hrest : rest ≠ [] := fun hnil => hroot (hnil ▸ rfl)
      simp [hrest]
    | cons c first => rfl

theorem filter_pieces_eq_reverse (p : Path) :
    p.pieces.filter isStep = ((fromLastStep p.pieces.reverse).filter isStep).reverse := by
  rw [filter_fromLastStep, List.filter_reverse, List.reverse_reverse]

/-- The directory of a path is written in front of the name that the path leads to. -/
theorem names_of_directory?_eq_some {p d : Path} (h : p.directory? = some d) :
    d.isAbsolute = p.isAbsolute ∧ ∃ name, p.names = d.names ++ [name] := by
  unfold directory? at h
  split at h
  · cases h
  · cases h
  · next piece outer houter hlast =>
    cases h
    have hsuffix : piece :: outer <:+ p.pieces.reverse := hlast ▸ fromLastStep_suffix _
    have hlead : (fromLastStep outer).reverse <+: p.pieces := by
      rw [← List.reverse_suffix, List.reverse_reverse]
      exact ((fromLastStep_suffix outer).trans (List.suffix_cons piece outer)).trans hsuffix
    have hslash : ∀ piece ∈ (fromLastStep outer).reverse, '/' ∉ piece := fun piece hpiece =>
      Text.not_mem_of_mem_pieces (hlead.subset hpiece)
    have hne : (fromLastStep outer).reverse ≠ [] :=
      List.reverse_ne_nil_iff.mpr (fromLastStep_ne_nil houter)
    constructor
    · obtain ⟨first, rest, hpieces⟩ := List.exists_cons_of_ne_nil hne
      obtain ⟨more, hmore⟩ := hlead
      rw [hpieces] at hslash hmore ⊢
      have hmany : rest ++ more ≠ [] := by
        intro hnil
        have hlength : outer.length + 1 ≤ p.pieces.length := by simpa using hsuffix.length_le
        rw [← hmore, List.cons_append, hnil, List.length_singleton] at hlength
        exact houter (List.length_eq_zero_iff.mp (by omega))
      rw [isAbsolute_ofPieces hslash, isAbsolute_of_pieces hmore.symm]
      simp [hmany]
    · refine ⟨String.ofList piece, ?_⟩
      rw [names_ofPieces hne hslash, List.filter_reverse, filter_fromLastStep, names,
        filter_pieces_eq_reverse, hlast,
        List.filter_cons_of_pos (isStep_of_fromLastStep hlast houter), List.reverse_cons,
        List.map_append, List.map_singleton]

theorem names_of_directory?_eq_none {p : Path} {name : String} (h : p.directory? = none)
    (hname : p.fileName? = some name) : p.isAbsolute = false ∧ p.names = [name] := by
  have hlast := (fileName?_eq_some_iff.mp hname).1
  unfold directory? at h
  split at h
  · next hnil =>
    have hpieces : p.pieces.reverse ≠ [] := List.reverse_ne_nil_iff.mpr (Text.pieces_ne_nil _ _)
    exact absurd hnil (fromLastStep_ne_nil hpieces)
  · next piece hsingle =>
    have hsuffix : [piece] <:+ p.pieces.reverse := hsingle ▸ fromLastStep_suffix _
    have hlead : [piece] <+: p.pieces := by
      rw [← List.reverse_suffix]
      exact hsuffix
    obtain ⟨more, hmore⟩ := hlead
    rw [names, filter_pieces_eq_reverse, hsingle] at hlast
    by_cases hstep : isStep piece = true
    · rw [List.filter_cons_of_pos hstep] at hlast
      have hpiece : String.ofList piece = name := by simpa using hlast
      constructor
      · rw [isAbsolute_of_pieces hmore.symm]
        cases piece with
        | nil => cases hstep
        | cons c piece => rfl
      · rw [names, filter_pieces_eq_reverse, hsingle, List.filter_cons_of_pos hstep, ← hpiece]
        rfl
    · rw [List.filter_cons_of_neg hstep] at hlast
      cases hlast
  · cases h

/-! ## Siblings -/

/-- A sibling is reached by another name from the same directory. -/
theorem location_sibling {p : Path} {name other : String} (h : p.fileName? = some name)
    (hslash : '/' ∉ other.toList) (hstep : isStep other.toList = true) (hback : other ≠ "..")
    (working : Location) :
    (p.sibling other).location working = (p.location working).dropLast ++ [other] := by
  obtain ⟨hlast, hname⟩ := fileName?_eq_some_iff.mp h
  have habsolute := isAbsolute_of_not_mem hslash
  have hnames := names_of_not_mem hslash hstep
  unfold sibling
  cases hdirectory : p.directory? with
  | none =>
    obtain ⟨hrelative, hsingle⟩ := names_of_directory?_eq_none hdirectory h
    rw [location, location, habsolute, hnames, hrelative, hsingle, resolve_singleton _ hback,
      resolve_singleton _ hname]
    simp
  | some directory =>
    obtain ⟨hsame, found, hfound⟩ := names_of_directory?_eq_some hdirectory
    obtain rfl : found = name := by simpa [hfound] using hlast
    have hway : p.location working = directory.location working ++ [found] := by
      rw [location, location, ← hsame, hfound, resolve_append, resolve_singleton _ hname]
    simp only
    rw [location_join habsolute, hnames, resolve_singleton _ hback, hway, List.dropLast_concat]

theorem toList_temporaryName (name : String) :
    (temporaryName name).toList = ('.' :: name.toList) ++ ".tmp".toList := by
  simp [temporaryName]

theorem getLast?_temporaryName (name : String) :
    (temporaryName name).toList.getLast? = some 'p' := by
  rw [toList_temporaryName, List.getLast?_append]
  rfl

/-- A file is written under a hidden name in its own directory. -/
theorem location_temporary {p temporary : Path} (h : p.temporary? = some temporary)
    (working : Location) : ∃ name, p.fileName? = some name ∧
      temporary.location working = (p.location working).dropLast ++ [temporaryName name] := by
  obtain ⟨name, hname, rfl⟩ := Option.map_eq_some_iff.mp h
  have hmem : name ∈ p.names := List.mem_of_getLast? (fileName?_eq_some_iff.mp hname).1
  have hslash : '/' ∉ (temporaryName name).toList := by
    simp [toList_temporaryName, not_mem_of_mem_names hmem]
  have hstep : isStep (temporaryName name).toList = true := by
    simp [toList_temporaryName, isStep]
  have hback : temporaryName name ≠ ".." := by
    intro heq
    simpa [toList_temporaryName] using congrArg (·.toList.length) heq
  exact ⟨name, hname, location_sibling hname hslash hstep hback working⟩

/-- A file is not written under its own name. -/
theorem location_temporary_ne {p temporary : Path} (h : p.temporary? = some temporary)
    (working : Location) : temporary.location working ≠ p.location working := by
  obtain ⟨name, hname, htemporary⟩ := location_temporary h working
  intro heq
  have hlast := getLast?_location hname working
  rw [← heq, htemporary, List.getLast?_concat] at hlast
  have hlength := congrArg (·.toList.length) (Option.some.inj hlast)
  rw [toList_temporaryName, List.length_append, List.length_cons] at hlength
  omega

end Path

/-! ## Ways through a file system -/

namespace FileSystem

variable {fs : FileSystem} {location : Location}

theorem eq_resolve_of_locate {start : Location} {names : List String}
    (h : fs.locate start names = .ok location) : location = Path.resolve start names := by
  induction names generalizing start with
  | nil =>
    cases h
    rfl
  | cons name names ih =>
    rw [locate] at h
    split at h
    · cases h
    · cases h
    · rw [Path.resolve]
      split at h
      · rw [if_pos ‹_›]
        exact ih h
      · rw [if_neg ‹_›]
        split at h
        · cases h
        · exact ih h

/-- A file system decides whether a way is open, not where it leads. -/
theorem location_of_locatePath {p : Path} (h : fs.locatePath p = .ok location) :
    location = p.location fs.working := by
  unfold locatePath at h
  split at h
  · cases h
  · split at h
    · cases h
    · split at h
      · cases h
      · exact eq_resolve_of_locate h

end FileSystem

end CollectionSchema
