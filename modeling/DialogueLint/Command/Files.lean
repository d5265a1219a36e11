/-!
# Files

What the command reads: files by path, and standard input. `Files.ofTexts` makes them from a list of
paths and texts, as a working directory that holds just these files. A path that leads out of it
ends nowhere, unless it ends at a directory on the way to the root.
-/

namespace DialogueLint.Command

/-- Why a file cannot be read. -/
inductive ReadFault where
  /-- There is no such file. -/
  | notFound
  /-- The path leads to a directory. -/
  | isDirectory
  /-- The path leads through a file. -/
  | notDirectory
  /-- The path or a name in it has too many bytes. -/
  | nameTooLong
  /-- The bytes are no text. -/
  | notText
  /-- Some other reason, in words. -/
  | other (reason : String)
  deriving Repr, DecidableEq

/-- The wording of a fault. -/
def ReadFault.message : ReadFault → String
  | notFound => "No such file or directory (os error 2)"
  | isDirectory => "Is a directory (os error 21)"
  | notDirectory => "Not a directory (os error 20)"
  | nameTooLong => "File name too long (os error 36)"
  | notText => "stream did not contain valid UTF-8"
  | other reason => reason

/-- What there is to read. -/
structure Files where
  /-- The text of the file at a path. -/
  read : String → Except ReadFault String
  /-- The text of standard input. -/
  input : Except ReadFault String

namespace Files

/-- The text that a path to validate stands for, and what there is to read afterwards. A dash stands
for standard input, which is empty once it has been read. -/
def take (files : Files) (path : String) : Except ReadFault String × Files :=
  if path = "-" then (files.input, ⟨files.read, .ok ""⟩) else (files.read path, files)

/-- The most bytes of a path. -/
def maxPathSize : Nat := 4095

/-- The most bytes of a name. -/
def maxNameSize : Nat := 255

/-- The components of a path. -/
def components (path : String) : List (List Char) :=
  path.toList.splitOn '/'

/-- The number of bytes of a name. -/
def nameSize (name : List Char) : Nat :=
  name.foldl (fun n c => n + c.utf8Size) 0

/-- A name that does not lead anywhere else: neither empty nor dots. -/
def isProper (name : List Char) : Bool :=
  name != [] && name != ['.'] && name != ['.', '.']

/-- A directory that a path leads to. -/
inductive Place where
  /-- A directory in the working directory, by the components of its path from there. -/
  | inside (path : List (List Char))
  /-- A directory that holds the working directory, or the root. -/
  | outside
  deriving Repr, DecidableEq

/-- The directory that holds a directory. -/
def Place.parent : Place → Place
  | inside [] => outside
  | inside path => inside path.dropLast
  | outside => outside

/-- The directory that a path starts from. -/
def start (path : String) : Place :=
  if path.toList.head? = some '/' then .outside else .inside []

/-- Follows the components of a path from a directory. -/
def follow (files : List (List (List Char) × String)) :
    Place → List (List Char) → Except ReadFault String
  | _, [] => .error .isDirectory
  | here, name :: rest =>
    if name = ['.', '.'] then follow files here.parent rest
    else if !isProper name then follow files here rest
    else if maxNameSize < nameSize name then .error .nameTooLong
    else
      match here with
      | .outside => .error .notFound
      | .inside directory =>
        let place := directory ++ [name]
        match files.lookup place with
        | some text => if rest.isEmpty then .ok text else .error .notDirectory
        | none =>
          if files.any fun (path, _) => place.isPrefixOf path then follow files (.inside place) rest
          else .error .notFound

/-- The files of a working directory, by their paths in it. -/
def ofTexts (texts : List (String × String)) (input : String) : Files where
  read path :=
    if path.isEmpty then .error .notFound
    else if maxPathSize < path.utf8ByteSize then .error .nameTooLong
    else
      follow (texts.map fun (path, text) => ((components path).filter isProper, text)) (start path)
        (components path)
  input := .ok input

end Files

end DialogueLint.Command
