import DialogueLint.Fragment

/-!
# Options

What the command line asks for: the files to validate, what they hold, where the settings come from,
and how the outcome is shown.
-/

namespace DialogueLint.Command

/-- How the outcome is shown. -/
inductive View where
  /-- As lines of text. -/
  | text
  /-- As a JSON array. -/
  | json
  deriving Repr, DecidableEq

/-- The views by name. -/
def View.choices : List (String × View) :=
  [("text", .text), ("json", .json)]

/-- What the command line asks for. -/
structure Options where
  /-- The files to validate; a dash stands for standard input. -/
  paths : List String
  /-- What the files hold; if nothing is said, their names tell. -/
  fragment : Option Fragment
  /-- The file that holds the settings. -/
  config : Option String
  /-- How deeply the operands of an expression may be nested, whatever the settings say. -/
  maxDepth : Option Nat
  /-- How the outcome is shown. -/
  view : View
  /-- Whether accepted files are left out. -/
  quiet : Bool
  deriving Repr, DecidableEq

namespace Options

/-- The options before any argument is read. -/
def none : Options := ⟨[], .none, .none, .none, .text, false⟩

/-- The fragments that may be asked for by name; `auto` leaves it to the files' names. -/
def fragments : List (String × Option Fragment) :=
  ("auto", .none) :: Fragment.choices.map fun (name, fragment) => (name, some fragment)

/-- Adds a file. -/
def addPath (options : Options) (path : String) : Options :=
  { options with paths := options.paths ++ [path] }

/-- The number of at most 64 bits that digits spell, perhaps behind a plus sign. -/
def count? (text : String) : Option Nat :=
  let digits := match text.toList with
    | '+' :: digits => digits
    | digits => digits
  if digits.isEmpty || !digits.all Char.isDigit then .none
  else
    let n := digits.foldl (fun n c => n * 10 + (c.toNat - '0'.toNat)) 0
    if n < UInt64.size then some n else .none

/-- Sets an option that takes a value. -/
def set? (options : Options) (name value : String) : Option Options :=
  match name with
  | "fragment" => (fragments.lookup value).map fun f => { options with fragment := f }
  | "config" => some { options with config := some value }
  | "max-depth" => (count? value).map fun n => { options with maxDepth := some n }
  | "format" => (View.choices.lookup value).map fun v => { options with view := v }
  | _ => .none

/-- Reads arguments behind those already read. An option that takes a value has it in the next
argument or behind an equals sign. -/
def read? : Options → List (List Char) → Option Options
  | options, [] => some options
  | options, ['-', '-'] :: rest =>
    some (rest.foldl (fun o path => o.addPath (String.ofList path)) options)
  | options, ['-', 'q'] :: rest => read? { options with quiet := true } rest
  | options, ('-' :: '-' :: name) :: rest =>
    if name = "quiet".toList then read? { options with quiet := true } rest
    else match name.span (· != '='), rest with
      | (name, '=' :: value), rest => do
        read? (← options.set? (String.ofList name) (String.ofList value)) rest
      | (name, _), value :: rest => do
        read? (← options.set? (String.ofList name) (String.ofList value)) rest
      | _, [] => .none
  | options, path :: rest =>
    match path with
    | '-' :: _ :: _ => .none
    | path => read? (options.addPath (String.ofList path)) rest

/-- The options that arguments give. There is at least one file. -/
def ofArguments? (arguments : List String) : Option Options := do
  let options ← read? none (arguments.map String.toList)
  guard (!options.paths.isEmpty)
  return options

end Options

end DialogueLint.Command
