import CollectionSchema.Proofs.NestingRelation
import CollectionSchema.Proofs.RootAccounting

/-!
# What the records of a schema refer to

The references of a root are looked at before it is built, inside lists of any depth; those of the
records inside it only as they are built, inside one list at most. A list of lists is the end of
both: its elements are not built, whatever they are called.

* `exists_compile_boards`: a schema may stand over names that nobody declares, in a record behind
  a list of lists, or in a list of lists of an inlined record.
* `declared_of_compile`: all other names below a root with a schema are declared.
-/

namespace CollectionSchema.Graph

open Relation

variable {g : Graph}

def IsDeclared (g : Graph) (name : String) : Prop :=
  (∃ s ∈ g.records, s.name = name) ∨ ∃ e ∈ g.enums, e.name = name

theorem isDeclared_of_not_incomplete {r : Record} (h : ¬ g.Incomplete r) {p : Property}
    (hp : p ∈ r.properties) {name : String} (hname : p.type.Mentions name) :
    g.IsDeclared name := by
  by_contra hnot
  simp only [IsDeclared, not_or, not_exists, not_and] at hnot
  exact h (.inr ⟨p, hp, name, hname, hnot.1, hnot.2⟩)

/-- A schema of the forest is that of a complete root. -/
theorem exists_complete_of_mem_forest {c : Compiled} (h : g.compile = .ok c)
    {schema : CompiledSchema} (hschema : schema ∈ c.forest) :
    ∃ root ∈ g.roots, root.name = schema.record ∧ ¬ g.Incomplete root := by
  obtain ⟨-, -, hsettled⟩ := compile_eq_ok_iff.mp h
  have hforest := (forall₂_settle_iff.mp hsettled).2
  obtain ⟨root, hkept, hof⟩ := Outcome.exists_source hforest hschema
  obtain ⟨hroot, hcomplete⟩ := List.mem_filter.mp hkept
  exact ⟨root, hroot, hof.record.symm, of_decide_eq_true hcomplete⟩

/-! ### Boards -/

/-- A board of rows of cells, with a note. -/
def board : Record where
  name := "Board"
  root := some ⟨some "boards"⟩
  properties := [⟨"cells", .list (.list (.record "Cell")), false, []⟩,
    ⟨"note", .record "Note", false, []⟩]

/-- Nobody declares the style of a cell. -/
def cell : Record where
  name := "Cell"
  root := none
  properties := [⟨"style", .record "Style", false, []⟩]

/-- Nobody declares the marks of a note. -/
def note : Record where
  name := "Note"
  root := none
  properties := [⟨"marks", .list (.list (.enumeration "Mark")), false, []⟩]

def boards : Graph where
  records := [board, cell, note]
  enums := []
  pending := []

theorem exists_build_board : ∃ n, boards.build .empty board = .ok n := by
  simp [build, Builder.buildFrom_eq, Builder.entry, Builder.property, Builder.elements,
    Builder.enter, boards, board, cell, note, record?, bind, Except.bind, pure, Except.pure]

theorem not_isDeclared_boards {name : String} (hboard : name ≠ "Board") (hcell : name ≠ "Cell")
    (hnote : name ≠ "Note") : ¬ boards.IsDeclared name := by
  simp [IsDeclared, boards, board, cell, note, hboard.symm, hcell.symm, hnote.symm]

/-- **A schema may stand over names that nobody declares.** A board has a schema, though the record
in its list of lists refers to one, and the record that it inlines has a list of lists of one. -/
theorem exists_compile_boards :
    (∃ c, boards.compile = .ok c ∧ ∃ schema ∈ c.forest, schema.record = "Board") ∧
    (boards.Embeds "Board" "Cell" ∧ cell ∈ boards.records ∧ ∃ p ∈ cell.properties,
      p.type.Mentions "Style" ∧ ¬ boards.IsDeclared "Style") ∧
    boards.Embeds "Board" "Note" ∧ note ∈ boards.records ∧ ∃ p ∈ note.properties,
      p.type.Mentions "Mark" ∧ ¬ boards.IsDeclared "Mark" := by
  have hboard : board ∈ boards.records := by simp [boards]
  have hcell : cell ∈ boards.records := by simp [boards]
  have hnote : note ∈ boards.records := by simp [boards]
  have hcheck : boards.check = .ok () := by decide
  have hcollect : Registry.collect boards = .ok .empty := by rfl
  have hdeferral : boards.deferral? board = none := by decide
  have hcollection : collection? board = some "boards" := by decide
  refine ⟨?_, ⟨?_, hcell, ?_⟩, ?_, hnote, ?_⟩
  · exact exists_compile_of_roots_eq hcheck hcollect rfl hdeferral hcollection exists_build_board
  · exact ⟨⟨cell, hcell, rfl⟩, board, hboard, rfl, _, List.mem_cons_self, rfl⟩
  · exact ⟨_, List.mem_cons_self, .record "Style",
      not_isDeclared_boards (by decide) (by decide) (by decide)⟩
  · exact ⟨⟨note, hnote, rfl⟩, board, hboard, rfl, _,
      List.mem_cons_of_mem _ List.mem_cons_self, rfl⟩
  · exact ⟨_, List.mem_cons_self, .list (.list (.enumeration "Mark")),
      not_isDeclared_boards (by decide) (by decide) (by decide)⟩

/-! ## Names below a root -/

/-- **The names below a root with a schema are declared**: all that its own properties mention,
inside lists of any depth, and in the records that it inlines, at any depth, all that a property
or the elements of a list have as type, as the kind they are used as. -/
theorem declared_of_compile {g : Graph} {c : Compiled} (h : g.compile = .ok c) :
    ∀ schema ∈ c.forest, ∃ root ∈ g.roots, root.name = schema.record ∧
      (∀ p ∈ root.properties, ∀ name, p.type.Mentions name → g.IsDeclared name) ∧
      ∀ s, ReflTransGen g.Inlines root s → g.Resolves s := by
  intro schema hschema
  obtain ⟨root, hroot, hname, hcomplete⟩ := exists_complete_of_mem_forest h hschema
  have htree := resolvedTree_of_compile h hroot hcomplete
  refine ⟨root, hroot, hname, ?_, htree.resolves⟩
  intro p hp name hmentions
  exact isDeclared_of_not_incomplete hcomplete hp hmentions

/-- What a shipment mentions is declared, and what its address refers to. -/
theorem declared_of_compile_shipments :
    ∃ c, shipments.compile = .ok c ∧ (∃ schema ∈ c.forest, schema.record = "Shipment") ∧
      (∀ p ∈ shipment.properties, ∀ name, p.type.Mentions name → shipments.IsDeclared name) ∧
        shipments.Resolves address := by
  obtain ⟨c, hc, schema, hschema, hrecord⟩ := exists_compile_shipments
  obtain ⟨root, hroot, hname, hmentioned, hresolves⟩ := declared_of_compile hc schema hschema
  obtain rfl : root = shipment :=
    eq_shipment_of_name (mem_roots_iff.mp hroot).1 (hname.trans hrecord)
  have haddress : address ∈ shipments.records := List.mem_cons_of_mem _ List.mem_cons_self
  have hedge : shipments.Inlines shipment address := ⟨haddress, _, List.mem_cons_self, rfl⟩
  exact ⟨c, hc, ⟨schema, hschema, hrecord⟩, hmentioned, hresolves address (.single hedge)⟩

end CollectionSchema.Graph
