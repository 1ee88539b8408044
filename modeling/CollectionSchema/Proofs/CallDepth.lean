import CollectionSchema.Proofs.BuildFaults
import CollectionSchema.Proofs.Locality
import CollectionSchema.Proofs.NestingRelation
import Mathlib.Data.List.Perm.Subperm

/-!
# How deep builds are nested

A build as it goes on a machine: one path for the whole run. Every call for a record puts the
name of the record at the end of the path and takes it off again before it returns, and only so
many calls may be open at once (`Builder.call`). The path is not passed down, so that it is right at
every call has to be shown.

* `Builder.Restores`: a call that returns leaves the path as it was, however deep calls may nest.
* `Graph.CallPath`: the names on the path of a call are different, and all but the first are
  declared. So there are at most one more of them than declared names.
* `Builder.Follows`: a run along a path has the outcome of a build, and its calls have such paths.
  One case for each way in which runs are put together, and `Follows.call` from them.
* `Graph.exists_call_eq_build`: every build ends, with calls that deep at most.
-/

namespace CollectionSchema

namespace Graph

variable {g : Graph} {first : String} {path : List String}

/-- The path of a call for a record that a build enters: it starts at the first record, no name
stands on it twice, and all but the first are names of declared records. -/
structure CallPath (g : Graph) (first : String) (path : List String) : Prop where
  first : path.head? = some first
  nodup : path.Nodup
  declared : ∀ name ∈ path.tail, g.IsRecordName name

theorem callPath_singleton (g : Graph) (first : String) : g.CallPath first [first] where
  first := rfl
  nodup := List.nodup_singleton first
  declared := by simp

/-- A declared record that is not on the path may be entered next. -/
theorem CallPath.snoc (h : g.CallPath first path) {name : String} (hfresh : name ∉ path)
    (hdeclared : g.IsRecordName name) : g.CallPath first (path ++ [name]) where
  first := by rw [List.head?_append, h.first, Option.some_or]
  nodup := by
    rw [← List.concat_eq_append]
    exact h.nodup.concat hfresh
  declared := by
    have hne : path ≠ [] := by
      rintro rfl
      cases h.first
    intro other hother
    rw [List.tail_append_of_ne_nil hne] at hother
    rcases List.mem_append.mp hother with hother | hother
    · exact h.declared other hother
    · rw [List.mem_singleton.mp hother]
      exact hdeclared

/-- Behind the first name there is room for every declared name once. -/
theorem CallPath.length_le (h : g.CallPath first path) :
    path.length ≤ g.recordNames.length + 1 := by
  have hsubset : path.tail ⊆ g.recordNames :=
    fun name hname => mem_recordNames_iff.mpr (h.declared name hname)
  have hnodup : path.tail.Nodup := h.nodup.sublist (List.tail_sublist path)
  have hlength := (hnodup.subperm hsubset).length_le
  rw [List.length_tail] at hlength
  omega

end Graph

namespace Builder

/-! ## Runs with one path -/

/-- What a run keeps: the names of the records that are being built, outermost first, and the paths
with which records have been entered so far. -/
structure CallStack where
  path : List String
  entered : List (List String)
deriving DecidableEq, Repr

namespace CallStack

def empty : CallStack := ⟨[], []⟩

/-- A record is entered. -/
def push (name : String) (stack : CallStack) : CallStack :=
  ⟨stack.path ++ [name], stack.entered ++ [stack.path ++ [name]]⟩

/-- The record that was entered last is left. -/
def pop (stack : CallStack) : CallStack := { stack with path := stack.path.dropLast }

end CallStack

/-- A run that changes the stack. If it fails, the stack stays as it is then; where too many calls
are open, there is no outcome at all. -/
abbrev Run := ExceptT BuildError (StateT CallStack Option)

namespace Run

/-- Too many calls are open. -/
def overflow {α : Type} : Run α := ExceptT.mk fun _ => none

/-- What does not touch the stack. -/
def ofExcept {α : Type} (outcome : Except BuildError α) : Run α := ExceptT.mk (pure outcome)

end Run

/-- The record with a name, unless it is being built. -/
def reach (g : Graph) (path : List String) (key : FieldKey) (name : String) :
    Except BuildError Record :=
  match g.record? name with
  | none => .error (.unresolved key name)
  | some r => if path.contains name then .error (.cyclic key (path ++ [name])) else .ok r

/-- Looks for a record where the path is now. -/
def fetch (g : Graph) (key : FieldKey) (name : String) : Run Record := do
  .ofExcept (reach g (← get).path key name)

/-- A property of a record with its node. The record inside, if there is one, is built before the
node is put together. -/
def callEntry (g : Graph) (registry : Registry) (nested : FieldKey → String → Run Node)
    (r : Record) (p : Property) : Run (String × Node) := do
  match p.type.inlined? with
  | none => .ofExcept (entry g registry (fun key name => .error (.unresolved key name)) r p)
  | some name =>
    let inner ← nested ⟨r.name, p.name⟩ name
    .ofExcept (entry g registry (fun _ _ => .ok inner) r p)

/-- The node of a record, with at most so many calls open. -/
def call (g : Graph) (registry : Registry) : Nat → Record → Run Node
  | 0, _ => .overflow
  | depth + 1, r => do
    modify (·.push r.name)
    let nodes ← r.properties.mapM
      (callEntry g registry (fun key name => fetch g key name >>= call g registry depth) r)
    modify (·.pop)
    return .object (required r) (.ofList nodes)

/-- The properties of a record with their nodes, with at most so many calls open inside. -/
def callEntries (g : Graph) (registry : Registry) (depth : Nat) (r : Record) :
    Run (List (String × Node)) :=
  r.properties.mapM
    (callEntry g registry (fun key name => fetch g key name >>= call g registry depth) r)

variable {α β : Type} {g : Graph} {registry : Registry}

/-! ## Entries -/

theorem entry_congr {nested nested' : FieldKey → String → Except BuildError Node} {r : Record}
    {p : Property} (h : ∀ name, p.type.inlined? = some name →
      nested ⟨r.name, p.name⟩ name = nested' ⟨r.name, p.name⟩ name) :
    entry g registry nested r p = entry g registry nested' r p := by
  unfold entry
  rw [property_congr rfl h fun _ _ => rfl]

/-- The record inside a property is built first, or the property is at fault with it. -/
theorem entry_eq_bind {nested : FieldKey → String → Except BuildError Node} {r : Record}
    {p : Property} {name : String} (hname : p.type.inlined? = some name) :
    entry g registry nested r p = (do
      let inner ← nested ⟨r.name, p.name⟩ name
      entry g registry (fun _ _ => .ok inner) r p) := by
  cases hinner : nested ⟨r.name, p.name⟩ name with
  | error e =>
    rw [Outcome.error_bind, entry_eq_error_iff]
    exact property_eq_error_iff.mpr (.inl ⟨name, hname, hinner⟩)
  | ok inner =>
    rw [Outcome.ok_bind]
    refine entry_congr fun other hother => ?_
    rw [hname] at hother
    cases hother
    exact hinner

theorem reach_eq_ok_iff {path : List String} {key : FieldKey} {name : String} {r : Record} :
    reach g path key name = .ok r ↔ g.record? name = some r ∧ name ∉ path := by
  unfold reach
  cases g.record? name with
  | none => simp
  | some s => by_cases h : name ∈ path <;> simp [h]

theorem enter_eq_bind (path : List String) (key : FieldKey) (name : String) :
    enter g registry path key name = reach g path key name >>= buildFrom g registry path := by
  unfold enter reach
  cases g.record? name with
  | none => rfl
  | some s => by_cases h : name ∈ path <;> simp [h]

/-! ## Calls that return -/

/-- A run goes on with its result, or stops with its error and the stack as it is then. -/
theorem run_bind_eq_some_iff {x : Run α} {f : α → Run β} {stack stack' : CallStack}
    {outcome : Except BuildError β} :
    (x >>= f).run.run stack = some (outcome, stack') ↔
      (∃ a middle, x.run.run stack = some (.ok a, middle) ∧
        (f a).run.run middle = some (outcome, stack')) ∨
      ∃ e, x.run.run stack = some (.error e, stack') ∧ outcome = .error e := by
  have hbind : (x >>= f).run.run stack = (x.run.run stack).bind fun result =>
      match result.1 with
      | .ok a => (f a).run.run result.2
      | .error e => some (.error e, result.2) := by
    change (x.run.run stack).bind _ = _
    congr 1
    funext ⟨result, middle⟩
    cases result <;> rfl
  rw [hbind]
  cases x.run.run stack with
  | none => simp
  | some result =>
    obtain ⟨result, middle⟩ := result
    cases result with
    | ok a => simp
    | error e => simp [eq_comm, and_comm]

theorem run_fetch (key : FieldKey) (name : String) (stack : CallStack) :
    (fetch g key name).run.run stack = some (reach g stack.path key name, stack) := rfl

/-- A call runs with its name on the path, and takes it off if it returns. -/
theorem run_call_eq_some_iff {depth : Nat} {r : Record} {stack stack' : CallStack}
    {outcome : Except BuildError Node} :
    (call g registry (depth + 1) r).run.run stack = some (outcome, stack') ↔
      (∃ nodes inner, (callEntries g registry depth r).run.run (stack.push r.name) =
          some (.ok nodes, inner) ∧ outcome = .ok (.object (required r) (.ofList nodes)) ∧
            stack' = inner.pop) ∨
      ∃ e, (callEntries g registry depth r).run.run (stack.push r.name) =
        some (.error e, stack') ∧ outcome = .error e := by
  have hcall : (call g registry (depth + 1) r).run.run stack =
      (callEntries g registry depth r >>= fun nodes => do
        modify (·.pop)
        return .object (required r) (.ofList nodes)).run.run (stack.push r.name) := rfl
  rw [hcall, run_bind_eq_some_iff]
  refine or_congr_left (exists₂_congr fun nodes inner => and_congr_right fun _ => ?_)
  have hreturn : ((do
      modify (·.pop)
      return .object (required r) (.ofList nodes) : Run Node).run.run inner) =
        some (.ok (.object (required r) (.ofList nodes)), inner.pop) := rfl
  rw [hreturn, Option.some.injEq, Prod.mk.injEq]
  exact and_congr eq_comm eq_comm

/-- A run that succeeds leaves the path as it was. -/
def Restores (x : Run α) : Prop :=
  ∀ stack a stack', x.run.run stack = some (.ok a, stack') → stack'.path = stack.path

namespace Restores

theorem ofExcept (outcome : Except BuildError α) : Restores (.ofExcept outcome) := by
  rintro stack a stack' ⟨⟩
  rfl

theorem bind {x : Run α} {f : α → Run β} (hx : Restores x) (hf : ∀ a, Restores (f a)) :
    Restores (x >>= f) := by
  intro stack b stack' hrun
  rcases run_bind_eq_some_iff.mp hrun with ⟨a, middle, ha, hb⟩ | ⟨e, -, he⟩
  · rw [hf a middle b stack' hb, hx stack a middle ha]
  · cases he

theorem mapM {f : α → Run β} {xs : List α} (hf : ∀ x ∈ xs, Restores (f x)) :
    Restores (xs.mapM f) := by
  induction xs with
  | nil => exact ofExcept (.ok [])
  | cons x xs ih =>
    obtain ⟨hx, hxs⟩ := List.forall_mem_cons.mp hf
    rw [List.mapM_cons]
    exact hx.bind fun y => (ih hxs).bind fun ys => ofExcept (.ok (y :: ys))

theorem fetch (key : FieldKey) (name : String) : Restores (Builder.fetch g key name) := by
  rintro stack r stack' hrun
  rw [run_fetch] at hrun
  obtain ⟨-, rfl⟩ := Prod.mk.inj (Option.some.inj hrun)
  rfl

theorem callEntry {nested : FieldKey → String → Run Node}
    (hnested : ∀ key name, Restores (nested key name)) (r : Record) (p : Property) :
    Restores (Builder.callEntry g registry nested r p) := by
  unfold Builder.callEntry
  cases p.type.inlined? with
  | none => exact ofExcept _
  | some name => exact (hnested _ name).bind fun _ => ofExcept _

/-- **A call that returns has taken its own name off the path, and nothing else.** -/
theorem call (depth : Nat) (r : Record) : Restores (Builder.call g registry depth r) := by
  induction depth generalizing r with
  | zero =>
    intro stack n stack' hrun
    cases hrun
  | succ depth ih =>
    intro stack n stack' hrun
    have hentries : Restores (callEntries g registry depth r) :=
      mapM fun p _ => callEntry (fun key name => (fetch key name).bind ih) r p
    rcases run_call_eq_some_iff.mp hrun with ⟨nodes, inner, hnodes, -, rfl⟩ | ⟨e, -, he⟩
    · rw [CallStack.pop, hentries _ nodes inner hnodes, CallStack.push, List.dropLast_concat]
    · cases he

end Restores

/-! ## Runs along a path -/

/-- From every stack with the path, the run has the outcome, and whatever it enters is entered with
a path for which a record is built. -/
def Follows (g : Graph) (first : String) (path : List String) (x : Run α)
    (outcome : Except BuildError α) : Prop :=
  ∀ entered, ∃ calls stack, x.run.run ⟨path, entered⟩ = some (outcome, stack) ∧
    stack.entered = entered ++ calls ∧ ∀ call ∈ calls, g.CallPath first call

namespace Follows

variable {first : String} {path : List String}

theorem ofExcept (outcome : Except BuildError α) :
    Follows g first path (.ofExcept outcome) outcome :=
  fun entered => ⟨[], ⟨path, entered⟩, rfl, (List.append_nil entered).symm, by simp⟩

theorem bind {x : Run α} {f : α → Run β} {outcome : Except BuildError α}
    {rest : α → Except BuildError β} (hrestores : Restores x)
    (hx : Follows g first path x outcome)
    (hf : ∀ a, outcome = .ok a → Follows g first path (f a) (rest a)) :
    Follows g first path (x >>= f) (outcome >>= rest) := by
  intro entered
  obtain ⟨calls, middle, hrun, hentered, hcalls⟩ := hx entered
  cases outcome with
  | error e =>
    exact ⟨calls, middle, run_bind_eq_some_iff.mpr (.inr ⟨e, hrun, rfl⟩), hentered, hcalls⟩
  | ok a =>
    have hmiddle : middle = ⟨path, middle.entered⟩ :=
      congrArg (CallStack.mk · middle.entered) (hrestores _ a middle hrun)
    obtain ⟨more, stack, hrest, hstack, hmore⟩ := hf a rfl middle.entered
    rw [← hmiddle] at hrest
    refine ⟨calls ++ more, stack, run_bind_eq_some_iff.mpr (.inl ⟨a, middle, hrun, hrest⟩), ?_, ?_⟩
    · rw [hstack, hentered, List.append_assoc]
    · exact List.forall_mem_append.mpr ⟨hcalls, hmore⟩

theorem mapM {f : α → Run β} {outcomes : α → Except BuildError β} {xs : List α}
    (hrestores : ∀ x ∈ xs, Restores (f x))
    (hf : ∀ x ∈ xs, Follows g first path (f x) (outcomes x)) :
    Follows g first path (xs.mapM f) (xs.mapM outcomes) := by
  induction xs with
  | nil => exact ofExcept (.ok [])
  | cons x xs ih =>
    obtain ⟨hx, hxs⟩ := List.forall_mem_cons.mp hf
    obtain ⟨hx', hxs'⟩ := List.forall_mem_cons.mp hrestores
    rw [List.mapM_cons, List.mapM_cons]
    refine hx.bind hx' fun y _ => ?_
    exact (ih hxs' hxs).bind (.mapM hxs') fun ys _ => ofExcept (.ok (y :: ys))

theorem fetch (key : FieldKey) (name : String) :
    Follows g first path (Builder.fetch g key name) (reach g path key name) :=
  fun entered => ⟨[], ⟨path, entered⟩, rfl, (List.append_nil entered).symm, by simp⟩

/-- Whether the record inside is built first or on the way does not matter for the node. -/
theorem callEntry {nested : FieldKey → String → Run Node}
    {outcomes : FieldKey → String → Except BuildError Node} {r : Record} {p : Property}
    (hrestores : ∀ key name, Restores (nested key name))
    (hnested : ∀ key name, Follows g first path (nested key name) (outcomes key name)) :
    Follows g first path (Builder.callEntry g registry nested r p)
      (entry g registry outcomes r p) := by
  unfold Builder.callEntry
  cases hname : p.type.inlined? with
  | none =>
    have hentry : entry g registry outcomes r p =
        entry g registry (fun key name => .error (.unresolved key name)) r p :=
      entry_congr fun name h => by
        rw [hname] at h
        cases h
    rw [hentry]
    exact ofExcept _
  | some name =>
    dsimp only
    rw [entry_eq_bind hname]
    exact (hnested _ name).bind (hrestores _ name) fun inner _ => ofExcept _

/-- **A call follows the build of its record**, if as many calls may be open as there are declared
names off the path, and one more. -/
theorem call {depth : Nat} {r : Record} (hpath : g.CallPath first (path ++ [r.name]))
    (hdepth : g.recordNames.length + 1 ≤ path.length + depth) :
    Follows g first path (Builder.call g registry depth r) (buildFrom g registry path r) := by
  induction depth generalizing path r with
  | zero =>
    have hlength := hpath.length_le
    rw [List.length_append, List.length_singleton] at hlength
    omega
  | succ depth ih =>
    have hnested : ∀ key name, Follows g first (path ++ [r.name])
        (Builder.fetch g key name >>= Builder.call g registry depth)
        (enter g registry (path ++ [r.name]) key name) := by
      intro key name
      rw [enter_eq_bind]
      refine (fetch key name).bind (.fetch key name) fun s hs => ?_
      obtain ⟨hrecord, hfresh⟩ := reach_eq_ok_iff.mp hs
      obtain rfl := Graph.name_of_record? hrecord
      refine ih (hpath.snoc hfresh ⟨s, Graph.mem_of_record? hrecord, rfl⟩) ?_
      rw [List.length_append, List.length_singleton]
      omega
    have hentries : Follows g first (path ++ [r.name]) (callEntries g registry depth r)
        (r.properties.mapM (entry g registry (enter g registry (path ++ [r.name])) r)) := by
      have hrestores : ∀ key name,
          Restores (Builder.fetch g key name >>= Builder.call g registry depth) :=
        fun key name => (Restores.fetch key name).bind (Restores.call depth)
      exact mapM (fun p _ => .callEntry hrestores r p) fun p _ => callEntry hrestores hnested
    intro entered
    obtain ⟨calls, inner, hrun, hentered, hcalls⟩ := hentries (entered ++ [path ++ [r.name]])
    have hcalls' : ∀ call ∈ (path ++ [r.name]) :: calls, g.CallPath first call :=
      List.forall_mem_cons.mpr ⟨hpath, hcalls⟩
    rw [List.append_assoc, List.singleton_append] at hentered
    rw [buildFrom_eq]
    cases hnodes : r.properties.mapM
        (entry g registry (enter g registry (path ++ [r.name])) r) with
    | error e =>
      rw [hnodes] at hrun
      exact ⟨_, inner, run_call_eq_some_iff.mpr (.inr ⟨e, hrun, rfl⟩), hentered, hcalls'⟩
    | ok nodes =>
      rw [hnodes] at hrun
      exact ⟨_, inner.pop, run_call_eq_some_iff.mpr (.inl ⟨nodes, inner, hrun, rfl, rfl⟩),
        hentered, hcalls'⟩

end Follows

end Builder

/-! ## Builds -/

namespace Graph

/-- **The calls of a build nest no deeper than the declared names allow, and every build ends.**
With one call more than there are declared names, a build of any record of any graph has the outcome
of `build`; the names on the path of every call are different and all but the first are declared;
and every call that returns, in this or in any other run, leaves the path as it was. -/
theorem exists_call_eq_build (g : Graph) (registry : Registry) (r : Record) (more : Nat) :
    (∃ stack, (Builder.call g registry (g.recordNames.length + 1 + more) r).run.run .empty =
        some (g.build registry r, stack) ∧
      ∀ path ∈ stack.entered, g.CallPath r.name path ∧
        path.length ≤ g.recordNames.length + 1) ∧
    ∀ depth s stack n stack', (Builder.call g registry depth s).run.run stack =
      some (.ok n, stack') → stack'.path = stack.path := by
  constructor
  · have hdepth : g.recordNames.length + 1 ≤
        ([] : List String).length + (g.recordNames.length + 1 + more) := by
      rw [List.length_nil]
      omega
    have hfollows : Builder.Follows g r.name [] (Builder.call g registry _ r)
        (g.build registry r) := .call (callPath_singleton g r.name) hdepth
    obtain ⟨calls, stack, hrun, hentered, hcalls⟩ := hfollows []
    refine ⟨stack, hrun, ?_⟩
    rw [hentered, List.nil_append]
    exact fun path hpath => ⟨hcalls path hpath, (hcalls path hpath).length_le⟩
  · exact fun depth s => Builder.Restores.call depth s

end Graph

end CollectionSchema
