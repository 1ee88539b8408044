import CollectionSchema.Proofs.BuildFaults
import CollectionSchema.Proofs.BuildOrder
import CollectionSchema.Proofs.RootAccounting

/-!
# The nesting report and the compiler

Both look for records inside themselves, but at different references. The report counts a
reference inside lists of any depth (`Graph.Embeds`); the compiler builds a record in the place of
a property or of the elements of a list (`Graph.Inlines`), and of a list of lists it says only that
its elements are lists. So inlining is part of nesting (`transGen_embeds_of_inlines`) and not all
of it.

* `exists_build_of_buildOrder?`: a closed graph with a build order has a node for every record.
* `exists_compile_threads`: a record in a list of lists of itself is on a cycle in the report, and
  yet it has a schema.
* `compile_eq_cyclic_iff`: a closed graph is refused as cyclic exactly if a root reaches a record
  that inlines itself, and the report lists every such record.
-/

namespace CollectionSchema

open Relation

namespace TypeRef

theorem record?_of_inlined? {type : TypeRef} {name : String} (h : type.inlined? = some name) :
    type.record? = some name := by
  rcases inlined?_eq_some_iff.mp h with rfl | rfl
  · rfl
  · rfl

end TypeRef

namespace Graph

variable {g : Graph} {registry : Registry}

/-! ## Inlining is nesting -/

theorem Inlines.embeds {r s : Record} (hr : r ∈ g.records) (h : g.Inlines r s) :
    g.Embeds r.name s.name := by
  obtain ⟨hs, p, hp, hname⟩ := h
  exact ⟨⟨s, hs, rfl⟩, r, hr, rfl, p, hp, TypeRef.record?_of_inlined? hname⟩

theorem transGen_embeds_of_inlines {r s : Record} (hr : r ∈ g.records)
    (h : TransGen g.Inlines r s) : TransGen g.Embeds r.name s.name := by
  induction h with
  | single hedge => exact .single (hedge.embeds hr)
  | tail hpath hedge ih =>
    have hmem := mem_of_reflTransGen_inlines hr hpath.to_reflTransGen
    exact ih.tail (hedge.embeds hmem)

theorem mem_of_transGen_inlines {r s : Record} (h : TransGen g.Inlines r s) : s ∈ g.records := by
  cases h with
  | single hedge => exact hedge.mem
  | tail _ hedge => exact hedge.mem

/-! ## Closed graphs -/

/-- The name that a type refers to, inside lists of any depth, is declared as the kind it is used
as. -/
def ResolvesType (g : Graph) : TypeRef → Prop
  | .primitive _ => True
  | .enumeration name => ∃ e ∈ g.enums, e.name = name
  | .record name => ∃ s ∈ g.records, s.name = name
  | .list element => g.ResolvesType element

/-- Every type of a property refers to a declaration of its kind. -/
def Closed (g : Graph) : Prop := ∀ r ∈ g.records, ∀ p ∈ r.properties, g.ResolvesType p.type

theorem ResolvesType.exists_record {type : TypeRef} (h : g.ResolvesType type) {name : String}
    (hname : type.record? = some name) : ∃ s ∈ g.records, s.name = name := by
  induction type with
  | record other =>
    cases hname
    exact h
  | list element ih => exact ih h hname
  | _ => cases hname

theorem ResolvesType.exists_enum {type : TypeRef} (h : g.ResolvesType type) {name : String}
    (hname : type.enumerated? = some name) : ∃ e ∈ g.enums, e.name = name := by
  rcases TypeRef.enumerated?_eq_some_iff.mp hname with rfl | rfl
  · exact h
  · exact h

theorem ResolvesType.not_unresolved {p : Property} (h : g.ResolvesType p.type) (name : String) :
    ¬ g.Unresolved p name := by
  rintro ⟨hmentions, hrecords, henums⟩
  generalize p.type = type at h hmentions
  induction hmentions with
  | enumeration name =>
    obtain ⟨e, he, hname⟩ := h
    exact henums e he hname
  | record name =>
    obtain ⟨s, hs, hname⟩ := h
    exact hrecords s hs hname
  | list _ ih => exact ih hrecords henums h

theorem Closed.resolves (hclosed : g.Closed) {r : Record} (hr : r ∈ g.records) :
    g.Resolves r := by
  constructor
  · intro p hp name hname
    have hrecord := TypeRef.record?_of_inlined? hname
    exact (hclosed r hr p hp).exists_record hrecord
  · intro p hp name hname
    exact (hclosed r hr p hp).exists_enum hname

theorem Closed.resolves_of_reflTransGen (hclosed : g.Closed) {r : Record} (hr : r ∈ g.records)
    (s : Record) (h : ReflTransGen g.Inlines r s) : g.Resolves s :=
  hclosed.resolves (mem_of_reflTransGen_inlines hr h)

theorem Closed.not_incomplete (hclosed : g.Closed) (hpending : g.pending = []) {r : Record}
    (hr : r ∈ g.records) : ¬ g.Incomplete r := by
  rintro (hmem | ⟨p, hp, name, hunresolved⟩)
  · rw [hpending] at hmem
    cases hmem
  · exact (hclosed r hr p hp).not_unresolved name hunresolved

/-! ## What the report calls acyclic is built -/

/-- **A closed graph with a build order has a node for every record**, whatever its registry: no
build stops at a name or inside a record. -/
theorem exists_build_of_buildOrder? {g : Graph} (hg : g.check = .ok ()) (hclosed : g.Closed)
    {order : List String} (h : g.nestingReport.buildOrder? = some order) (registry : Registry)
    {r : Record} (hr : r ∈ g.records) : ∃ n, g.build registry r = .ok n := by
  have hacyclic := exists_buildOrder?_iff.mp ⟨order, h⟩
  apply exists_build_of_resolvedTree (check_eq_ok_iff.mp hg) hr
  constructor
  · exact hclosed.resolves_of_reflTransGen hr
  · intro s hs hcycle
    have hmem := mem_of_reflTransGen_inlines hr hs
    exact hacyclic s.name (transGen_embeds_of_inlines hmem hcycle)

/-- Addresses come before the shipments that inline them, and shipments have a node. -/
theorem exists_build_of_buildOrder?_shipments :
    shipments.check = .ok () ∧ shipments.Closed ∧
      shipments.nestingReport.buildOrder? = some ["Address", "Shipment"] ∧
      ∃ n, shipments.build .empty shipment = .ok n := by
  have hclosed : shipments.Closed := by
    simp [Closed, shipments, shipment, address, ResolvesType]
  have horder : shipments.nestingReport.buildOrder? = some ["Address", "Shipment"] := by decide
  exact ⟨check_shipments, hclosed, horder,
    exists_build_of_buildOrder? check_shipments hclosed horder .empty shipment_mem⟩

/-! ## Cycles -/

/-- A closed graph in order, whose roots name their collections, fails only at a root whose build
meets a cycle. -/
theorem FirstFault.exists_cyclic (hg : g.check = .ok ())
    (hcollect : Registry.collect g = .ok registry) (hclosed : g.Closed)
    (hroots : ∀ r ∈ g.roots, ∃ collection, r.NamesCollection collection)
    {e : CompileError} (h : g.FirstFault e) : ∃ root ∈ g.roots, ∃ key path,
      g.build registry root = .error (.cyclic key path) ∧ e = .build (.cyclic key path) := by
  -- the other faults are excluded one by one
  cases h with
  | declarations hcheck =>
    rw [hg] at hcheck
    cases hcheck
  | inconsistency _ herror =>
    rw [hcollect] at herror
    cases herror
  | @root registry' before after root _ _ hcollect' hsplit _ _ hfault =>
    rw [hcollect] at hcollect'
    cases hcollect'
    have hroot : root ∈ g.roots := hsplit ▸ List.mem_append_right _ List.mem_cons_self
    have hmem := (mem_roots_iff.mp hroot).1
    cases hfault with
    | collection hnone =>
      obtain ⟨collection, hsome⟩ := hroots root hroot
      exact absurd hsome (hnone collection)
    | @build _ cause _ hbuild =>
      cases cause with
      | unresolved key name =>
        have hresolves := hclosed.resolves_of_reflTransGen hmem
        exact absurd hbuild (build_ne_unresolved hresolves key name)
      | cyclic key path => exact ⟨root, hroot, key, path, hbuild, rfl⟩

/-- A record that is resolved throughout and not built reaches a record inside itself. -/
theorem exists_transGen_of_build_eq_error (hg : g.WellFormed) {r : Record} (hr : r ∈ g.records)
    (hresolves : ∀ s, ReflTransGen g.Inlines r s → g.Resolves s) {cause : BuildError}
    (h : g.build registry r = .error cause) :
    ∃ s, TransGen g.Inlines r s ∧ TransGen g.Inlines s s := by
  by_contra hnone
  have htree : g.ResolvedTree r := by
    refine ⟨hresolves, ?_⟩
    intro s hs hcycle
    exact hnone ⟨s, TransGen.trans_right hs hcycle, hcycle⟩
  have hbuilt : ∃ n, g.build registry r = .ok n := exists_build_of_resolvedTree hg hr htree
  obtain ⟨n, hn⟩ := hbuilt
  rw [h] at hn
  cases hn

/-! ### Threads and teams -/

/-- A thread with its replies, each list of them a thread of its own. -/
def thread : Record where
  name := "Thread"
  root := some ⟨some "threads"⟩
  properties := [⟨"replies", .list (.list (.record "Thread")), false, []⟩]

def threads : Graph where
  records := [thread]
  enums := []
  pending := []

theorem thread_mem : thread ∈ threads.roots := List.mem_cons_self

theorem embeds_thread : threads.Embeds "Thread" "Thread" :=
  ⟨⟨thread, List.mem_cons_self, rfl⟩, thread, List.mem_cons_self, rfl, _, List.mem_cons_self, rfl⟩

theorem closed_threads : threads.Closed := by
  simp [Closed, threads, thread, ResolvesType]

theorem exists_build_thread : ∃ n, threads.build .empty thread = .ok n := by
  simp [build, Builder.buildFrom_eq, Builder.entry, Builder.property, Builder.elements, threads,
    thread, bind, Except.bind, pure, Except.pure]

/-- **A cycle through a list of lists does not stop the compiler.** The graph is in order and
closed and its root embeds itself, but of the replies its schema says only that they are lists. -/
theorem exists_compile_threads :
    threads.check = .ok () ∧ Registry.collect threads = .ok .empty ∧ threads.pending = [] ∧
      threads.Closed ∧ (∀ r ∈ threads.roots, ∃ collection, r.NamesCollection collection) ∧
      (∃ root ∈ threads.roots, ∃ name, TransGen threads.Embeds root.name name ∧
        TransGen threads.Embeds name name) ∧
      ∃ c, threads.compile = .ok c ∧ ∃ schema ∈ c.forest, schema.record = "Thread" := by
  have hcheck : threads.check = .ok () := by decide
  have hcollect : Registry.collect threads = .ok .empty := by rfl
  have hdeferral : threads.deferral? thread = none := by decide
  have hcollection : collection? thread = some "threads" := by decide
  have hcycle : TransGen threads.Embeds "Thread" "Thread" := .single embeds_thread
  refine ⟨hcheck, hcollect, rfl, closed_threads, ?_, ?_, ?_⟩
  · intro r hr
    obtain rfl : r = thread := List.mem_singleton.mp hr
    exact ⟨"threads", collection?_eq_some_iff.mp hcollection⟩
  · exact ⟨thread, thread_mem, "Thread", hcycle, hcycle⟩
  · exact exists_compile_of_roots_eq hcheck hcollect rfl hdeferral hcollection exists_build_thread

/-- A team and its members, each of whom is in a team. -/
def team : Record where
  name := "Team"
  root := some ⟨some "teams"⟩
  properties := [⟨"members", .list (.record "Member"), false, []⟩]

def member : Record where
  name := "Member"
  root := none
  properties := [⟨"team", .record "Team", true, []⟩]

def teams : Graph where
  records := [team, member]
  enums := []
  pending := []

theorem team_mem : team ∈ teams.roots := List.mem_cons_self

theorem closed_teams : teams.Closed := by
  simp [Closed, teams, team, member, ResolvesType]

theorem transGen_team : TransGen teams.Inlines team team := by
  have hmember : teams.Inlines team member :=
    ⟨List.mem_cons_of_mem _ List.mem_cons_self, _, List.mem_cons_self, rfl⟩
  have hteam : teams.Inlines member team := ⟨List.mem_cons_self, _, List.mem_cons_self, rfl⟩
  exact .tail (.single hmember) hteam

/-! ### Refused graphs -/

/-- **A closed graph is refused as cyclic exactly if one of its roots reaches a record that inlines
itself**, and every such record is among those that the nesting report lists. -/
theorem compile_eq_cyclic_iff {g : Graph} (hg : g.check = .ok ()) {registry : Registry}
    (hcollect : Registry.collect g = .ok registry) (hpending : g.pending = [])
    (hclosed : g.Closed) (hroots : ∀ r ∈ g.roots, ∃ collection, r.NamesCollection collection) :
    ((∃ key path, g.compile = .error (.build (.cyclic key path))) ↔
      ∃ root ∈ g.roots, ∃ s, TransGen g.Inlines root s ∧ TransGen g.Inlines s s) ∧
    ∀ s, TransGen g.Inlines s s →
      ∃ records, g.nestingReport.cycle? = some records ∧ s.name ∈ records := by
  refine ⟨⟨?_, ?_⟩, ?_⟩
  · rintro ⟨key, path, hcompile⟩
    have hfault := compile_eq_error_iff.mp hcompile
    obtain ⟨root, hroot, _, _, hbuild, -⟩ := hfault.exists_cyclic hg hcollect hclosed hroots
    have hwf := check_eq_ok_iff.mp hg
    have hmem := (mem_roots_iff.mp hroot).1
    have hresolves := hclosed.resolves_of_reflTransGen hmem
    exact ⟨root, hroot, exists_transGen_of_build_eq_error hwf hmem hresolves hbuild⟩
  · rintro ⟨root, hroot, s, hpath, hcycle⟩
    have hmem := (mem_roots_iff.mp hroot).1
    -- a root that reaches a cycle is not built, and a closed graph is refused for nothing else
    cases hcompile : g.compile with
    | ok c =>
      have hcomplete := hclosed.not_incomplete hpending hmem
      have htree := resolvedTree_of_compile hcompile hroot hcomplete
      exact absurd hcycle (htree.acyclic s hpath.to_reflTransGen)
    | error e =>
      have hfault := compile_eq_error_iff.mp hcompile
      obtain ⟨_, -, key, path, -, rfl⟩ := hfault.exists_cyclic hg hcollect hclosed hroots
      exact ⟨key, path, rfl⟩
  · intro s hcycle
    have hmem := mem_of_transGen_inlines hcycle
    exact exists_cycle?_of_transGen_embeds (transGen_embeds_of_inlines hmem hcycle)

/-- Teams of members of teams are refused, and the report lists them. -/
theorem compile_eq_cyclic_iff_teams :
    teams.check = .ok () ∧ Registry.collect teams = .ok .empty ∧ teams.pending = [] ∧
      teams.Closed ∧ (∀ r ∈ teams.roots, ∃ collection, r.NamesCollection collection) ∧
      (∃ key path, teams.compile = .error (.build (.cyclic key path))) ∧
      ∃ records, teams.nestingReport.cycle? = some records ∧ "Team" ∈ records := by
  have hcheck : teams.check = .ok () := by decide
  have hcollect : Registry.collect teams = .ok .empty := by rfl
  have hroots : ∀ r ∈ teams.roots, ∃ collection, r.NamesCollection collection := by
    intro r hr
    obtain rfl : r = team := List.mem_singleton.mp hr
    have hcollection : collection? team = some "teams" := by decide
    exact ⟨"teams", collection?_eq_some_iff.mp hcollection⟩
  obtain ⟨hrefused, hlisted⟩ := compile_eq_cyclic_iff hcheck hcollect rfl closed_teams hroots
  exact ⟨hcheck, hcollect, rfl, closed_teams, hroots,
    hrefused.mpr ⟨team, team_mem, team, transGen_team, transGen_team⟩, hlisted team transGen_team⟩

end Graph

end CollectionSchema
