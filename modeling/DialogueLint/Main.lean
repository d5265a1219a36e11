import DialogueLint.Command.Run

/-!
# The command line

Reads the files that the arguments name, runs the command and writes what it leaves behind.
-/

namespace DialogueLint.Main

open Command

/-- Whether an error has a number, which counts down from zero where a file could not be opened. -/
def hasNumber (code number : UInt32) : Bool :=
  code == number || code == 0 - number

/-- Why a file could not be read. -/
def readFault : IO.Error → ReadFault
  | .noFileOrDirectory .. => .notFound
  | .inappropriateType _ code _ => if hasNumber code 20 then .notDirectory else .isDirectory
  | .invalidArgument _ code details =>
    if hasNumber code 36 then .nameTooLong else .other details
  | error => .other (toString error)

/-- The text that bytes encode, if reading them does not fail. -/
def decode (read : IO ByteArray) : IO (Except ReadFault String) := do
  try
    return (String.fromUTF8? (← read)).elim (.error .notText) .ok
  catch error =>
    return .error (readFault error)

/-- Reads what the options name. -/
def load (options : Options) : IO Files := do
  let paths := options.config.toList ++ options.paths.filter fun path => path != "-"
  let texts ← paths.mapM fun (path : String) => return (path, ← decode (IO.FS.readBinFile path))
  let input ←
    if options.paths.contains "-" then decode (do (← IO.getStdin).readBinToEnd) else pure (.ok "")
  return ⟨fun path => (texts.lookup path).getD (.error .notFound), input⟩

end DialogueLint.Main

open DialogueLint DialogueLint.Main Command in
/-- Runs the command on the arguments given. -/
def main (arguments : List String) : IO UInt32 := do
  match Options.ofArguments? arguments with
  | none =>
    (← IO.getStderr).putStrLn "usage: dialogue-lint [OPTIONS] <PATHS>..."
    return 2
  | some options =>
    let exit := run (← load options) options
    (← IO.getStdout).putStr exit.output
    (← IO.getStderr).putStr exit.errors
    return exit.code.toUInt32
