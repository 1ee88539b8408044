import CollectionSchema.Json.Basic

/-!
# Annotations

An annotation is a name with arguments. Five kinds are known, each by a full and a short
name; four of them constrain a property and one exempts it from the default constraint.
`Annotation.constraint` gives the constraint that an annotation states, or the argument that
is at fault.
-/

namespace CollectionSchema

/-- An annotation as it is declared. The arguments are ascending by name. -/
structure Annotation where
  name : String
  args : List (String × Json)
deriving Repr, Inhabited

/-- The known kinds of annotations. -/
inductive AnnotationKind where
  | fixedLength
  | pattern
  | lengthBounds
  | numericBounds
  | exemption
deriving DecidableEq, Repr

namespace AnnotationKind

/-- The full name. -/
def name : AnnotationKind → String
  | fixedLength => "FixedLengthNumeric"
  | pattern => "Pattern"
  | lengthBounds => "LengthBounds"
  | numericBounds => "NumericBounds"
  | exemption => "NoDefaultConstraint"

/-- The short name. -/
def shortName : AnnotationKind → String
  | fixedLength => "FixLenNum"
  | pattern => "Regex"
  | lengthBounds => "Len"
  | numericBounds => "NumLimit"
  | exemption => "NoDef"

def all : List AnnotationKind := [fixedLength, pattern, lengthBounds, numericBounds, exemption]

/-- The kind with a full or short name. -/
def ofName? (name : String) : Option AnnotationKind :=
  all.find? fun kind => kind.name == name || kind.shortName == name

/-- Whether annotations of the kind state a constraint. -/
def isConstraint : AnnotationKind → Bool
  | exemption => false
  | _ => true

end AnnotationKind

/-- The constraint that an annotation states. A missing bound is no bound. -/
inductive Constraint where
  | fixedLength (length : Nat)
  | pattern (pattern : String)
  | lengthBounds (min : Nat) (max : Option Nat)
  | numericBounds (min max : Option JsonNumber)
deriving Repr, Inhabited

/-- The constraint as a JSON value: its kind and its parts, null for a missing bound. -/
def Constraint.toJson : Constraint → Json
  | fixedLength length =>
    .object [("kind", .string "fixed_length_numeric"), ("len", .ofNat length)]
  | pattern text => .object [("kind", .string "pattern"), ("pattern", .string text)]
  | lengthBounds min max =>
    .object [("kind", .string "length_bounds"), ("min", .ofNat min),
      ("max", .ofBound (max.map fun n => .integer n))]
  | numericBounds min max =>
    .object [("kind", .string "numeric_bounds"), ("min", .ofBound min), ("max", .ofBound max)]

/-- What is wrong with the value of an argument. -/
inductive ArgumentFault where
  | notPositiveInteger
  | notText
  | notNatural
  | notNumber
  /-- the upper bound `max` lies below the lower bound `min` -/
  | inverted (max min : JsonNumber)
deriving Repr

/-- Why an annotation states no constraint. -/
inductive ConstraintError where
  | missing (arg : String)
  | invalid (arg : String) (fault : ArgumentFault)
  | notAConstraint (name : String)
deriving Repr

def ArgumentFault.message : ArgumentFault → String
  | notPositiveInteger => "must be a positive integer"
  | notText => "must be a non-empty string"
  | notNatural => "must be a non-negative integer"
  | notNumber => "must be a number"
  | inverted max min =>
    String.ofList max.text ++ " is lower than min " ++ String.ofList min.text

def ConstraintError.message : ConstraintError → String
  | missing arg => "missing argument `" ++ arg ++ "`"
  | invalid arg fault => "argument `" ++ arg ++ "` " ++ fault.message
  | notAConstraint name => "`" ++ name ++ "` is not a constraint annotation"

namespace Annotation

/-- The kind of an annotation, if it is known. -/
def kind? (a : Annotation) : Option AnnotationKind := AnnotationKind.ofName? a.name

/-- The value of an argument. Null counts as absent. -/
def arg? (a : Annotation) (name : String) : Option Json :=
  (a.args.lookup name).filter (!·.isNull)

/-- A value as a natural number. -/
def natural? : Json → Option Nat
  | .number (.integer n) => if 0 ≤ n then some n.toNat else none
  | _ => none

/-- An optional natural argument. -/
def naturalArg (a : Annotation) (name : String) : Except ConstraintError (Option Nat) :=
  match a.arg? name with
  | none => .ok none
  | some value =>
    match natural? value with
    | some n => .ok (some n)
    | none => .error (.invalid name .notNatural)

/-- An optional numeric argument. -/
def numberArg (a : Annotation) (name : String) : Except ConstraintError (Option JsonNumber) :=
  match a.arg? name with
  | none => .ok none
  | some (.number n) => .ok (some n)
  | some _ => .error (.invalid name .notNumber)

/-- The longest fixed length: the largest unsigned 32-bit integer. -/
def maxFixedLength : Nat := 4294967295

/-- The length that an annotation fixes. -/
def fixedLength (a : Annotation) : Except ConstraintError Constraint :=
  match a.arg? "len" with
  | none => .error (.missing "len")
  | some value =>
    match natural? value with
    | some n =>
      if 0 < n ∧ n ≤ maxFixedLength then .ok (.fixedLength n)
      else .error (.invalid "len" .notPositiveInteger)
    | none => .error (.invalid "len" .notPositiveInteger)

/-- The pattern that an annotation states. -/
def pattern (a : Annotation) : Except ConstraintError Constraint :=
  match a.arg? "pattern" with
  | none => .error (.missing "pattern")
  | some (.string text) =>
    if text.isEmpty then .error (.invalid "pattern" .notText) else .ok (.pattern text)
  | some _ => .error (.invalid "pattern" .notText)

/-- The length bounds that an annotation states. Without `min` the lower one is zero. -/
def lengthBounds (a : Annotation) : Except ConstraintError Constraint := do
  let min := (← a.naturalArg "min").getD 0
  match ← a.naturalArg "max" with
  | none => return .lengthBounds min none
  | some max =>
    if max < min then .error (.invalid "max" (.inverted (.integer max) (.integer min)))
    else return .lengthBounds min (some max)

/-- Whether a number lies below another, both rounded to binary64. -/
def below (x y : JsonNumber) : Bool := x.toBinary64.lt y.toBinary64

/-- The numeric bounds that an annotation states. They are compared as binary64 numbers. -/
def numericBounds (a : Annotation) : Except ConstraintError Constraint := do
  let min ← a.numberArg "min"
  let max ← a.numberArg "max"
  match min, max with
  | some low, some high =>
    if below high low then .error (.invalid "max" (.inverted high low))
    else return .numericBounds min max
  | _, _ => return .numericBounds min max

/-- The constraint that an annotation states. -/
def constraint (a : Annotation) : Except ConstraintError Constraint :=
  match a.kind? with
  | some .fixedLength => a.fixedLength
  | some .pattern => a.pattern
  | some .lengthBounds => a.lengthBounds
  | some .numericBounds => a.numericBounds
  | some .exemption | none => .error (.notAConstraint a.name)

end Annotation

end CollectionSchema
