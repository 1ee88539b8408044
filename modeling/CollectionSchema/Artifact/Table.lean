import CollectionSchema.Text.Quoted
import CollectionSchema.Text.Raw

/-!
# The document table

A table from collection names to document texts, and its text as a source module: the names
are quoted and the texts stand between raw delimiters, so both can be read back as they are.
-/

namespace CollectionSchema

/-- Document texts by collection name, in build order. -/
structure DocumentTable where
  entries : List (String × String)
deriving DecidableEq, Repr, Inhabited

namespace DocumentTable

/-- The text under a collection name: that of the first entry with the name. -/
def get? (table : DocumentTable) (collection : String) : Option String :=
  table.entries.lookup collection

def isEmpty (table : DocumentTable) : Bool := table.entries.isEmpty

/-- What stands in front of the entries. -/
def header : String :=
  "// @generated by mongoschema. Do not edit.\n\n" ++
  "pub static SCHEMAS: &[(&str, &str)] = &[\n"

/-- What stands behind the entries. -/
def footer : String :=
  "];\n\n" ++
  "/// Validator document of `collection`, if one was generated.\n" ++
  "pub fn get(collection: &str) -> Option<&'static str> \x7b\n" ++
  "    SCHEMAS\n" ++
  "        .iter()\n" ++
  "        .find(|(name, _)| *name == collection)\n" ++
  "        .map(|(_, document)| *document)\n" ++
  "\x7d\n"

/-- What stands around the name and the text of an entry. -/
def entryOpening : String := "    (\n        "

def entryMiddle : String := ",\n        "

def entryClosing : String := ",\n    ),\n"

/-- The text of an entry. -/
def entryText (entry : String × String) : List Char :=
  entryOpening.toList ++ Text.quoted entry.1.toList ++ entryMiddle.toList ++
    Text.raw entry.2.toList ++ entryClosing.toList

/-- The text of the table as a module. -/
def sourceText (table : DocumentTable) : String :=
  String.ofList (header.toList ++ table.entries.flatMap entryText ++ footer.toList)

end DocumentTable

end CollectionSchema
