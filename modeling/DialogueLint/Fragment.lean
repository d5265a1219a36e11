/-!
# Fragments

The parts of a dialogue that are kept in files of their own, and how a file's name tells which part
it holds.
-/

namespace DialogueLint

/-- What a file holds. -/
inductive Fragment where
  | document
  | trigger
  | nodes
  | properties
  deriving Repr, DecidableEq

namespace Fragment

/-- The name of a fragment. -/
def name : Fragment → String
  | document => "document"
  | trigger => "trigger"
  | nodes => "nodes"
  | properties => "properties"

/-- The fragments by name. -/
def choices : List (String × Fragment) :=
  [document, trigger, nodes, properties].map fun f => (f.name, f)

/-- The components of a path: what stands between slashes, without empty ones and single dots. -/
def components (path : List Char) : List (List Char) :=
  (path.splitOn '/').filter fun c => c != [] && c != ['.']

/-- The part of a file name before its last dot; a dot in front does not count. -/
def stem (name : List Char) : List Char :=
  match name.reverse.dropWhile (· != '.') with
  | [] => name
  | ['.'] => name
  | _ :: rest => rest.reverse

/-- The stem of the last component of a path, unless it leads out of a directory. -/
def fileStem? (path : List Char) : Option (List Char) :=
  match (components path).getLast? with
  | none => none
  | some name => if name = ['.', '.'] then none else some (stem name)

/-- The fragment that a file holds by the stem of its name, whatever the extension: a trigger by
`trigger` (in `trigger.json`, but in `trigger.txt` too), nodes by `nodes`, properties by `model` and
by `entities`. Any other file holds a document. -/
def ofFileName (path : String) : Fragment :=
  match (fileStem? path.toList).map String.ofList with
  | some "trigger" => trigger
  | some "nodes" => nodes
  | some "model" => properties
  | some "entities" => properties
  | _ => document

end Fragment

end DialogueLint
