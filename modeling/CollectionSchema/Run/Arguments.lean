import CollectionSchema.Files.Path

/-!
# Arguments

The words of a command line, and the command that they stand for. An option that takes a
value is followed by it, or holds it behind an equals sign; two dashes by themselves end the
options. An option may be given once, and no value may be empty.
-/

namespace CollectionSchema

/-- The arguments of a run that writes artifacts. -/
structure GenerateArguments where
  descriptor : Path
  outDir : Option Path
  config : Option Path
  logFile : Option Path
  strict : Bool
deriving DecidableEq, Repr

inductive Command where
  | generate (arguments : GenerateArguments)
  | inspect (descriptor : Path)
  | descriptorSchema
  | help
  | version
deriving DecidableEq, Repr

/-- Why words stand for no command. -/
inductive UsageError where
  | noCommand
  | unknownCommand (word : String)
  | unexpected (word : String)
  | noValue (word : String)
  | repeated (word : String)
  | noDescriptor
deriving DecidableEq, Repr

def UsageError.message : UsageError → String
  | noCommand => "a command is required"
  | unknownCommand word => "unrecognized command '" ++ word ++ "'"
  | unexpected word => "unexpected argument '" ++ word ++ "'"
  | noValue word => "a value is required for '" ++ word ++ "'"
  | repeated word => "the argument '" ++ word ++ "' cannot be used multiple times"
  | noDescriptor => "a descriptor is required"

namespace Arguments

/-- An argument: a word by itself, or an option with its value. A flag has none. -/
inductive Item where
  | word (text : String)
  | option (name : String) (value : Option String)
deriving DecidableEq, Repr

/-- Whether a word is written like an option. -/
def isDashed (word : String) : Bool := word.toList.head? == some '-' && word != "-"

/-- The name of an option and the value behind an equals sign. `-h` is short for `--help`. -/
def splitOption (word : String) : Option (String × Option String) :=
  match word.toList with
  | ['-', 'h'] => some ("help", none)
  | '-' :: '-' :: text =>
    let name := String.ofList (text.takeWhile (· != '='))
    match text.dropWhile (· != '=') with
    | [] => some (name, none)
    | _ :: value => some (name, some (String.ofList value))
  | _ => none

/-- The names of the options of a command that take a value, and of those that take none. -/
structure Options where
  valued : List String
  flags : List String

/-- The arguments of a command, up to the first plea for help. -/
def items (options : Options) : List String → Except UsageError (List Item)
  | [] => .ok []
  | word :: rest =>
    if word = "--" then .ok (rest.map .word)
    else if !isDashed word then return .word word :: (← items options rest)
    else match splitOption word with
      | none => .error (.unexpected word)
      | some (name, value) =>
        if name = "help" ∧ value = none then .ok [.option name none]
        else if name ∈ options.flags then
          if value.isSome then .error (.unexpected word)
          else return .option name none :: (← items options rest)
        else if name ∈ options.valued then
          match value, rest with
          | some value, rest => return .option name (some value) :: (← items options rest)
          | none, value :: rest =>
            if isDashed value then .error (.noValue word)
            else return .option name (some value) :: (← items options rest)
          | none, [] => .error (.noValue word)
        else .error (.unexpected word)

/-- The words that stand by themselves. -/
def words (items : List Item) : List String :=
  items.filterMap fun
    | .word text => some text
    | .option _ _ => none

/-- The names of the options that are given. -/
def names (items : List Item) : List String :=
  items.filterMap fun
    | .word _ => none
    | .option name _ => some name

/-- The value of an option. -/
def value? (items : List Item) (name : String) : Option String :=
  items.findSome? fun
    | .word _ => none
    | .option n value => if n = name then value else none

/-- Checks that there is no empty value. -/
def checkItem : Item → Except UsageError Unit
  | .word text => if text.isEmpty then .error (.noValue "[DESCRIPTOR]") else .ok ()
  | .option name value => if value = some "" then .error (.noValue ("--" ++ name)) else .ok ()

/-- Checks that no option is given twice, that no value is empty, and that at most `count`
words stand by themselves. -/
def check (count : Nat) (items : List Item) : Except UsageError Unit := do
  items.forM checkItem
  match (names items).find? fun name => 1 < (names items).count name with
  | some name => throw (.repeated ("--" ++ name))
  | none => pure ()
  match (words items).drop count with
  | word :: _ => throw (.unexpected word)
  | [] => pure ()

/-- The checked arguments of a command. -/
def read (options : Options) (count : Nat) (given : List String) :
    Except UsageError (List Item) := do
  let items ← items options given
  check count items
  return items

/-- The command `generate` with its arguments. -/
def generate (given : List String) : Except UsageError Command := do
  let items ← read ⟨["out", "config", "log-file"], ["strict"]⟩ 1 given
  if "help" ∈ names items then return .help
  match words items with
  | [] => throw .noDescriptor
  | descriptor :: _ =>
    return .generate {
      descriptor := ⟨descriptor⟩
      outDir := (value? items "out").map .mk
      config := (value? items "config").map .mk
      logFile := (value? items "log-file").map .mk
      strict := decide ("strict" ∈ names items) }

/-- The command `inspect` with its argument. -/
def inspect (given : List String) : Except UsageError Command := do
  let items ← read ⟨[], []⟩ 1 given
  if "help" ∈ names items then return .help
  match words items with
  | [] => throw .noDescriptor
  | descriptor :: _ => return .inspect ⟨descriptor⟩

/-- The command `descriptor-schema`, which takes no arguments. -/
def descriptorSchema (given : List String) : Except UsageError Command := do
  let items ← read ⟨[], []⟩ 0 given
  return if "help" ∈ names items then .help else .descriptorSchema

/-- The names of the commands. -/
def commands : List String := ["generate", "inspect", "descriptor-schema", "help"]

/-- A plea for help, perhaps about a command. -/
def help : List String → Except UsageError Command
  | [] => .ok .help
  | [word] => if word ∈ commands then .ok .help else .error (.unknownCommand word)
  | _ :: word :: _ => .error (.unexpected word)

/-- The command that words stand for. -/
def parse : List String → Except UsageError Command
  | [] => .error .noCommand
  | "generate" :: rest => generate rest
  | "inspect" :: rest => inspect rest
  | "descriptor-schema" :: rest => descriptorSchema rest
  | "help" :: rest => help rest
  | "--help" :: _ | "-h" :: _ => .ok .help
  | "--version" :: _ | "-V" :: _ => .ok .version
  | word :: _ => .error (.unknownCommand word)

end Arguments

end CollectionSchema
