import CollectionSchema.Json.Outline

/-!
# Reading JSON values

The value that a text stands for, or the first fault in it. Arrays and objects may nest
`maxNesting` deep; deeper text is malformed. A value that nobody asks for is only skimmed:
its spelling is checked, but neither its depth nor the range of its numbers.
-/

namespace CollectionSchema.Json

/-- How deep arrays and objects may nest. -/
def maxNesting : Nat := 127

namespace Outline

mutual

/-- The value of an outline, where `room` more levels may be opened. The members of objects
are kept as they are written. -/
def resolve (room : Nat) : Outline → Except Fault Json
  | null => .ok .null
  | bool b => .ok (.bool b)
  | number n =>
    match n.number? with
    | some value => .ok (.number value)
    | none => .error .malformed
  | brokenNumber f => .error f
  | string literal => return .string (← literal.text)
  | array items =>
    match room with
    | 0 => .error .malformed
    | room + 1 => return .array (← resolveItems room items)
  | object members =>
    match room with
    | 0 => .error .malformed
    | room + 1 => return .object (← resolveMembers room members)
  | fault f => .error f

def resolveItems (room : Nat) : Items → Except Fault (List Json)
  | .close => .ok []
  | .fault f => .error f
  | .item value rest => do
    let value ← resolve room value
    return value :: (← resolveItems room rest)

def resolveMembers (room : Nat) : Members → Except Fault (List (String × Json))
  | .close => .ok []
  | .fault f => .error f
  | .member name value rest => do
    let name ← name.text
    let value ← resolve room value
    return (name, value) :: (← resolveMembers room rest)

end

mutual

/-- Checks the spelling of a value that is not asked for. A number that breaks off is
malformed even where the text ends. -/
def skim : Outline → Except Fault Unit
  | null | bool _ | number _ => .ok ()
  | brokenNumber _ => .error .malformed
  | string literal => literal.complete
  | array items => skimItems items
  | object members => skimMembers members
  | fault f => .error f

def skimItems : Items → Except Fault Unit
  | .close => .ok ()
  | .fault f => .error f
  | .item value rest => do
    skim value
    skimItems rest

def skimMembers : Members → Except Fault Unit
  | .close => .ok ()
  | .fault f => .error f
  | .member name value rest => do
    name.complete
    skim value
    skimMembers rest

end

end Outline

/-- Reads a text whose whole outline is taken by `read`. Text behind the value is a fault
that counts only after all others. -/
def readWhole {ε α : Type} (ofFault : Fault → ε) (read : Outline → Except ε α) (text : String) :
    Except ε α := do
  let (value, trailing) := outline text.toList
  let result ← read value
  if trailing then .error (ofFault .malformed) else .ok result

/-- The value of a JSON text, with the members of its objects as they are written. -/
def parseMembers (text : String) : Except Fault Json :=
  readWhole id (Outline.resolve maxNesting) text

/-- The value of a JSON text, with the members of its objects in ascending order. -/
def parse (text : String) : Except Fault Json := return (← parseMembers text).sorted

end CollectionSchema.Json
