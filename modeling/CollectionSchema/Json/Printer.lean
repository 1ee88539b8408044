import CollectionSchema.Json.Basic
import CollectionSchema.Text.Digit

/-!
# JSON text

One printer with two styles: compact text has no blanks; pretty text puts every item and
member on a line of its own, indented by two blanks a level, and writes an empty array or
object as `[]` or `{}`.
-/

namespace CollectionSchema.Json

/-- How the parts of a text are set apart. -/
inductive Style where
  | compact
  | pretty
deriving DecidableEq, Repr

/-- What stands in front of an item at nesting `level`. -/
def Style.line : Style → Nat → List Char
  | .compact, _ => []
  | .pretty, level => '\n' :: List.replicate (2 * level) ' '

/-- What stands between the name and the value of a member. -/
def Style.colon : Style → List Char
  | .compact => [':']
  | .pretty => [':', ' ']

/-- A character inside a string: quotes, backslashes and control characters are escaped,
all else stands for itself. -/
def escapeChar (c : Char) : List Char :=
  match c with
  | '"' => ['\\', '"']
  | '\\' => ['\\', '\\']
  | '\x08' => ['\\', 'b']
  | '\x0c' => ['\\', 'f']
  | '\n' => ['\\', 'n']
  | '\r' => ['\\', 'r']
  | '\t' => ['\\', 't']
  | c =>
    if c.toNat < 0x20 then
      ['\\', 'u', '0', '0', Text.hexDigit (c.toNat / 16), Text.hexDigit (c.toNat % 16)]
    else [c]

/-- A string in quotes. -/
def quote (value : String) : List Char :=
  '"' :: value.toList.flatMap escapeChar ++ ['"']

def boolText (b : Bool) : List Char :=
  if b then ['t', 'r', 'u', 'e'] else ['f', 'a', 'l', 's', 'e']

mutual

/-- The text of a value whose first line stands at nesting `level`. -/
def write (style : Style) (level : Nat) : Json → List Char
  | .null => ['n', 'u', 'l', 'l']
  | .bool b => boolText b
  | .number n => n.text
  | .string s => quote s
  | .array [] => ['[', ']']
  | .array (item :: rest) =>
    '[' :: style.line (level + 1) ++ write style (level + 1) item ++
      writeItems style level rest
  | .object [] => ['{', '}']
  | .object ((name, value) :: rest) =>
    '{' :: style.line (level + 1) ++ quote name ++ style.colon ++
      write style (level + 1) value ++ writeMembers style level rest

/-- The items after the first, and the closing bracket. -/
def writeItems (style : Style) (level : Nat) : List Json → List Char
  | [] => style.line level ++ [']']
  | item :: rest =>
    ',' :: style.line (level + 1) ++ write style (level + 1) item ++
      writeItems style level rest

/-- The members after the first, and the closing brace. -/
def writeMembers (style : Style) (level : Nat) : List (String × Json) → List Char
  | [] => style.line level ++ ['}']
  | (name, value) :: rest =>
    ',' :: style.line (level + 1) ++ quote name ++ style.colon ++
      write style (level + 1) value ++ writeMembers style level rest

end

/-- The text without blanks. -/
def compact (value : Json) : String := String.ofList (write .compact 0 value)

/-- The indented text. -/
def pretty (value : Json) : String := String.ofList (write .pretty 0 value)

end CollectionSchema.Json
