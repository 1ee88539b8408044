import CollectionSchema.Declaration.Graph
import CollectionSchema.Declaration.TypeName
import CollectionSchema.Descriptor.Model

/-!
# Checking descriptors

A JSON value is a valid descriptor if it has the shape of one and the types of all
properties can be read. A valid descriptor stands for a graph: a record for every record
entry and an enumeration for every enumeration entry, in order. What is wrong is collected
in a report; a pending name that no record has is only worth a warning.
-/

namespace CollectionSchema

inductive Severity where
  | error
  | warning
deriving DecidableEq, Repr

/-- The kinds of issues. -/
inductive IssueKind where
  | schemaViolation
  | invalidDescriptor
  | invalidTypeName
  | pendingUnknownRecord
deriving DecidableEq, Repr

def IssueKind.code : IssueKind → String
  | schemaViolation => "schema_violation"
  | invalidDescriptor => "invalid_descriptor_json"
  | invalidTypeName => "invalid_type_name"
  | pendingUnknownRecord => "pending_unknown_record"

/-- Something about a descriptor that is wrong or doubtful. `path` is a JSON pointer. -/
structure Issue where
  severity : Severity
  kind : IssueKind
  path : String
  message : String
  hint : Option String
deriving DecidableEq, Repr

/-- The text of an issue. -/
def Issue.display (i : Issue) : String :=
  i.kind.code ++ " at " ++ i.path ++ ": " ++ i.message ++ match i.hint with
  | none => ""
  | some hint => " (hint: " ++ hint ++ ")"

/-- All issues of a descriptor. -/
structure Report where
  errors : List Issue
  warnings : List Issue
deriving DecidableEq, Repr

namespace Report

/-- The number of errors. -/
def summary (r : Report) : String := String.ofList (natText r.errors.length) ++ " error(s)"

/-- The number of errors and their texts. -/
def message (r : Report) : String :=
  r.summary ++ String.join (r.errors.map fun issue => "; " ++ issue.display)

/-- Whether an error is about the shape of the descriptor. -/
def isStructural (r : Report) : Bool := r.errors.any (·.kind == .schemaViolation)

end Report

/-- A descriptor that passed all checks, with its graph and the warnings. -/
structure ValidDescriptor where
  descriptor : Descriptor
  graph : Graph
  warnings : List Issue
deriving Repr

namespace Descriptor

/-- The violations of the shape of descriptors by a value, by pointer and message. -/
def violations (value : Json) : List Violation :=
  (Shape.objectViolations [] value shape).mergeSort Violation.le

/-- The violations of the shape of descriptors, as errors. -/
def structuralErrors (value : Json) : List Issue :=
  (violations value).map fun violation =>
    ⟨.error, .schemaViolation, Violation.pointer violation.path, violation.message, none⟩

/-- The JSON pointer to the type of property `j` of record `i`. -/
def typePointer (i j : Nat) : String :=
  Violation.pointer
    ["records", String.ofList (natText i), "properties", String.ofList (natText j), "type"]

/-- The error for a type that cannot be read. -/
def typeError (i j : Nat) (record property : String) (cause : TypeNameError) : Issue :=
  ⟨.error, .invalidTypeName, typePointer i j,
    record ++ "#" ++ property ++ ": " ++ cause.message,
    some "use a primitive name, List<T>, an enum or a record name"⟩

/-- The names of the enumerations. -/
def enumNames (d : Descriptor) : List String := d.enums.map (·.name)

/-- The errors for the properties of record `i`, from position `j` on. -/
def propertyErrors (enums : List String) (i : Nat) (record : String) (j : Nat) :
    List PropertyEntry → List Issue
  | [] => []
  | p :: rest =>
    (match TypeRef.parse enums p.typeName with
      | .ok _ => []
      | .error cause => [typeError i j record p.name cause]) ++
      propertyErrors enums i record (j + 1) rest

/-- The errors for the records from position `i` on. -/
def recordErrors (enums : List String) (i : Nat) : List RecordEntry → List Issue
  | [] => []
  | r :: rest =>
    propertyErrors enums i r.name 0 r.properties ++ recordErrors enums (i + 1) rest

/-- The errors for types that cannot be read, in document order. -/
def typeErrors (d : Descriptor) : List Issue := recordErrors d.enumNames 0 d.records

/-- The warnings for pending names from position `k` on that are not in `declared`. -/
def pendingWarnings (declared : List String) (k : Nat) : List String → List Issue
  | [] => []
  | name :: rest =>
    (if name ∈ declared then []
      else [⟨.warning, .pendingUnknownRecord,
        Violation.pointer ["pending", String.ofList (natText k)],
        "pending record '" ++ name ++ "' is not declared",
        some "remove it from pending or declare the record"⟩]) ++
      pendingWarnings declared (k + 1) rest

/-- The warnings for pending names that no record has. -/
def warnings (d : Descriptor) : List Issue :=
  pendingWarnings (d.records.map (·.name)) 0 d.pending

/-- The property of an entry; none if its type cannot be read. -/
def property? (enums : List String) (p : PropertyEntry) : Option Property :=
  match TypeRef.parse enums p.typeName with
  | .ok type =>
    some ⟨p.name, type, p.nullable, p.annotations.map fun a => ⟨a.name, a.args⟩⟩
  | .error _ => none

/-- The record of an entry, without the properties whose types cannot be read. -/
def record (enums : List String) (r : RecordEntry) : Record :=
  ⟨r.name, r.root.map fun root => ⟨root.collection⟩, r.properties.filterMap (property? enums)⟩

/-- The graph of a descriptor. -/
def graph (d : Descriptor) : Graph :=
  ⟨d.records.map (record d.enumNames), d.enums.map fun e => ⟨e.name, e.values⟩, d.pending⟩

/-- Checks a JSON value as a descriptor. -/
def validate (value : Json) : Except Report ValidDescriptor :=
  let structural := structuralErrors value
  if !structural.isEmpty then .error ⟨structural, []⟩
  else match ofJson? value with
    | none =>
      .error ⟨[⟨.error, .invalidDescriptor, "/", "not a descriptor", none⟩], []⟩
    | some d =>
      if d.typeErrors.isEmpty then .ok ⟨d, d.graph, d.warnings⟩
      else .error ⟨d.typeErrors, d.warnings⟩

end Descriptor

end CollectionSchema
