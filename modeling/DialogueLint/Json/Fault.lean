/-!
# Faults in JSON text

What can stop the reading of a text, where, and how that is said. A reader that fails says how many
bytes lie behind the place of the fault; the line and column follow from the text. Lines count from
one. The column is the number of bytes of the line up to the place.
-/

namespace DialogueLint.Json

/-- Why a text cannot be read. -/
inductive Cause where
  /-- The text ends where a value, or the rest of one, is due. -/
  | endInValue
  /-- The text ends inside an array. -/
  | endInList
  /-- The text ends inside an object. -/
  | endInObject
  /-- The text ends inside a string. -/
  | endInString
  /-- A key is not followed by a colon. -/
  | expectedColon
  /-- An item is followed by neither a comma nor a closing bracket. -/
  | expectedListEnd
  /-- A member is followed by neither a comma nor a closing brace. -/
  | expectedObjectEnd
  /-- A letter is wrong in `null`, `true` or `false`. -/
  | expectedLiteral
  /-- No value starts here. -/
  | expectedValue
  /-- The character behind a backslash, or a digit of a code unit, is wrong. -/
  | invalidEscape
  /-- A number has a leading zero or lacks a digit. -/
  | invalidNumber
  /-- A number is too large for a double. -/
  | numberOutOfRange
  /-- A string holds a raw control character. -/
  | controlCharacter
  /-- A key is not a string. -/
  | keyNotString
  /-- A code unit of a surrogate pair stands alone. -/
  | loneSurrogate
  /-- The second half of a surrogate pair is not written as a code unit. -/
  | unfinishedPair
  /-- A comma stands before a closing bracket. -/
  | trailingComma
  /-- Something follows the value. -/
  | trailingCharacters
  /-- Arrays and objects are nested too deeply. -/
  | nestedTooDeeply
  /-- A value of another type is expected. -/
  | wrongType (found expected : String)
  /-- A value of the right type is not one of those expected. -/
  | wrongValue (found expected : String)
  /-- A field is given twice. -/
  | duplicateField (name : String)
  deriving Repr, DecidableEq

/-- The wording of a cause. -/
def Cause.message : Cause → String
  | endInValue => "EOF while parsing a value"
  | endInList => "EOF while parsing a list"
  | endInObject => "EOF while parsing an object"
  | endInString => "EOF while parsing a string"
  | expectedColon => "expected `:`"
  | expectedListEnd => "expected `,` or `]`"
  | expectedObjectEnd => "expected `,` or `\x7d`"
  | expectedLiteral => "expected ident"
  | expectedValue => "expected value"
  | invalidEscape => "invalid escape"
  | invalidNumber => "invalid number"
  | numberOutOfRange => "number out of range"
  | controlCharacter => "control character (\\u0000-\\u001F) found while parsing a string"
  | keyNotString => "key must be a string"
  | loneSurrogate => "lone leading surrogate in hex escape"
  | unfinishedPair => "unexpected end of hex escape"
  | trailingComma => "trailing comma"
  | trailingCharacters => "trailing characters"
  | nestedTooDeeply => "recursion limit exceeded"
  | wrongType found expected => s!"invalid type: {found}, expected {expected}"
  | wrongValue found expected => s!"invalid value: {found}, expected {expected}"
  | duplicateField name => s!"duplicate field `{name}`"

/-- A cause and its place, given by the number of bytes behind it. -/
structure Fault where
  /-- Why the text cannot be read. -/
  cause : Cause
  /-- How many bytes of the text lie behind the place. -/
  behind : Nat
  deriving Repr, DecidableEq

/-- A place in a text. -/
structure Position where
  /-- The line, counted from one. -/
  line : Nat
  /-- The number of bytes of the line up to the place. -/
  column : Nat
  deriving Repr, DecidableEq

/-- How many bytes a list of characters takes. -/
def byteSize (s : List Char) : Nat :=
  s.foldl (fun n c => n + c.utf8Size) 0

/-- The position that is reached by reading so many bytes from a given position on. -/
def Position.after : Position → Nat → List Char → Position
  | p, 0, _ => p
  | p, n, [] => ⟨p.line, p.column + n⟩
  | p, n + 1, c :: rest =>
    if c = '\n' then after ⟨p.line + 1, 0⟩ n rest
    else if n + 1 < c.utf8Size then ⟨p.line, p.column + (n + 1)⟩
    else after ⟨p.line, p.column + c.utf8Size⟩ (n + 1 - c.utf8Size) rest

/-- The position of a fault in the text where it was found. -/
def Fault.position (fault : Fault) (text : List Char) : Position :=
  Position.after ⟨1, 0⟩ (byteSize text - fault.behind) text

/-- A fault that has been located. -/
structure LocatedFault where
  /-- Why the text cannot be read. -/
  cause : Cause
  /-- Where that was found. -/
  position : Position
  deriving Repr, DecidableEq

/-- The wording of a located fault. -/
def LocatedFault.message (fault : LocatedFault) : String :=
  s!"{fault.cause.message} at line {fault.position.line} column {fault.position.column}"

end DialogueLint.Json
