import CollectionSchema.Log.Directive

/-!
# Log filters

A filter says which events are logged. It is a list of directives; of those about an event
the most specific one decides, and of equally specific ones the last. A filter that cannot be
read is like none.
-/

namespace CollectionSchema

abbrev LogFilter := List LogDirective

namespace LogFilter

/-- The filter with one directive for all sources. -/
def upToLevel (level : Level) : LogFilter := [⟨none, none, none, level.verbosity⟩]

/-- What is logged when nothing is said. -/
def default : LogFilter := upToLevel .info

/-- The filter that a text stands for, if there is one: directives with commas between. A
text without directives stands for errors only. -/
def ofText (text : Option String) : LogFilter :=
  match text with
  | none => default
  | some text =>
    match ((Text.pieces ',' text.toList).filter (!·.isEmpty)).mapM LogDirective.ofText? with
    | none => default
    | some [] => upToLevel .error
    | some directives => directives

/-- The more specific of two directives, or else the second. -/
def prefer (found : Option LogDirective) (d : LogDirective) : Option LogDirective :=
  match found with
  | some best => if d.isLessSpecific best then some best else some d
  | none => some d

/-- The directive that decides about an event. -/
def deciding? (filter : LogFilter) (event : Event) : Option LogDirective :=
  (filter.filter (·.appliesTo event)).foldl prefer none

/-- Whether an event is logged. -/
def allows (filter : LogFilter) (event : Event) : Bool :=
  match filter.deciding? event with
  | some d => event.level.verbosity ≤ d.verbosity
  | none => false

theorem eq_or_mem_of_foldl_prefer {found : Option LogDirective} {ds : List LogDirective}
    {d : LogDirective} (h : ds.foldl prefer found = some d) : found = some d ∨ d ∈ ds := by
  induction ds generalizing found with
  | nil => exact .inl h
  | cons e rest ih =>
    rcases ih h with h | h
    · simp only [prefer] at h
      split at h
      · split at h
        · exact .inl h
        · simp_all
      · simp_all
    · exact .inr (List.mem_cons_of_mem e h)

/-- The directive that decides about an event is one of those about it. -/
theorem mem_of_deciding?_eq_some {filter : LogFilter} {event : Event} {d : LogDirective}
    (h : filter.deciding? event = some d) : d ∈ filter ∧ d.appliesTo event := by
  simpa using eq_or_mem_of_foldl_prefer h

end LogFilter

end CollectionSchema
