import DialogueLint.Command.Files
import DialogueLint.Command.Options
import DialogueLint.Json.Render
import DialogueLint.Settings.Read
import DialogueLint.Validation

/-!
# Running the command

The command reads its settings, then every file, and shows what it found only when all could be
read. It exits with 0 if every file is accepted, with 1 if one is not, and with 2, having shown
nothing, if something could not be read.
-/

namespace DialogueLint.Command

/-- What the command leaves behind. -/
structure Exit where
  /-- The exit code. -/
  code : Nat
  /-- What is written to standard output. -/
  output : String
  /-- What is written to standard error. -/
  errors : String
  deriving Repr, DecidableEq

/-- Why the command gives up. -/
inductive Failure where
  /-- A file to validate cannot be read. -/
  | unreadable (path : String) (fault : ReadFault)
  /-- The file with the settings cannot be read. -/
  | unreadableConfig (path : String) (fault : ReadFault)
  /-- The settings are faulty. -/
  | faultyConfig (path : String) (fault : Json.LocatedFault)
  deriving Repr, DecidableEq

/-- The wording of a failure. -/
def Failure.message : Failure → String
  | unreadable path fault => s!"Failed to read '{path}': {fault.message}"
  | unreadableConfig path fault => s!"Failed to read config '{path}': {fault.message}"
  | faultyConfig path fault => s!"Failed to parse config '{path}': {fault.message}"

/-- The settings of the file that the options name, or the default ones. -/
def configured (files : Files) : Option String → Except Failure Settings
  | none => .ok .default
  | some path =>
    match files.read path with
    | .error fault => .error (.unreadableConfig path fault)
    | .ok text =>
      match Settings.ofText text with
      | .error fault => .error (.faultyConfig path fault)
      | .ok settings => .ok settings

/-- The settings that the options ask for. -/
def settings (files : Files) (options : Options) : Except Failure Settings := do
  let settings ← configured files options.config
  return { settings with maxDepth := options.maxDepth.getD settings.maxDepth }

/-- The texts of the files to validate, up to the first that cannot be read. -/
def texts : Files → List String → Except Failure (List (String × String))
  | _, [] => .ok []
  | files, path :: rest =>
    match files.take path with
    | (.error fault, _) => .error (.unreadable path fault)
    | (.ok text, files) => do return (path, text) :: (← texts files rest)

/-- A file with its report. -/
structure Result where
  /-- The path of the file. -/
  path : String
  /-- The report. -/
  report : Report
  deriving Repr, DecidableEq

/-- The result for a file. -/
def result (settings : Settings) (fragment : Option Fragment) (path text : String) : Result :=
  ⟨path, settings.validateText (fragment.getD (.ofFileName path)) text⟩

/-- The results for all files, in order. -/
def results (files : Files) (options : Options) : Except Failure (List Result) := do
  let settings ← settings files options
  let texts ← texts files options.paths
  return texts.map fun (path, text) => result settings options.fragment path text

/-- The lines that show a result. -/
def Result.lines (r : Result) : List String :=
  if r.report.accepted then [s!"{r.path}: accepted"]
  else
    s!"{r.path}: {r.report.size} problem(s)" ::
      r.report.diagnostics.map fun d => "  " ++ d.display

/-- The JSON form of a result. -/
def Result.toJson (r : Result) : Json :=
  .object [("accepted", .bool r.report.accepted), ("diagnostics", r.report.toJson),
    ("file", .string r.path)]

/-- What is shown of results. -/
def output (view : View) (results : List Result) : String :=
  match view with
  | .text => String.join ((results.flatMap Result.lines).map fun line => line ++ "\n")
  | .json => (Json.array (results.map Result.toJson)).pretty ++ "\n"

/-- The results that are shown. -/
def shown (quiet : Bool) (results : List Result) : List Result :=
  if quiet then results.filter fun r => !r.report.accepted else results

/-- Runs the command. -/
def run (files : Files) (options : Options) : Exit :=
  match results files options with
  | .error failure => ⟨2, "", s!"\nError: {failure.message}\n"⟩
  | .ok results =>
    ⟨if results.all fun r => r.report.accepted then 0 else 1,
      output options.view (shown options.quiet results), ""⟩

end DialogueLint.Command
