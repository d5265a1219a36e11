import DialogueLint.Decimal.Double
import DialogueLint.Json.Basic
import DialogueLint.Json.Fault
import DialogueLint.Text.Blank

/-!
# Scanning JSON text

Readers for the pieces of JSON text: blanks, literals, numbers, strings, and what stands between the
items of an array and the members of an object. A reader takes the text that is left and gives what
it read with the text behind it. Most faults are found at a byte that cannot be accepted and lie
just behind it (`Scan.refuse`).
-/

namespace DialogueLint.Json

/-- Reads a piece from the front of a text. -/
abbrev Scan (α : Type) : Type := StateT (List Char) (Except Fault) α

namespace Scan

variable {α : Type}

/-- Fails at the place reached. -/
def stop (cause : Cause) : Scan α := fun s => .error ⟨cause, byteSize s⟩

/-- Fails at the next byte, or at the end of the text. -/
def refuse (cause : Cause) : Scan α := fun s => .error ⟨cause, byteSize s - 1⟩

/-- Passes one character. -/
def skip : Scan Unit := modify (List.drop 1)

/-- The next character, which stays where it is. -/
def peek? : Scan (Option Char) := do return (← get).head?

/-- Passes blanks and looks at the character behind them. -/
def token? : Scan (Option Char) := do
  modify (List.dropWhile Text.isTokenBlank)
  peek?

/-! ## Literals -/

/-- Passes the given letters. -/
def letters : List Char → Scan Unit
  | [] => pure ()
  | letter :: rest => do
    match ← peek? with
    | none => refuse .endInValue
    | some c => if c = letter then do skip; letters rest else refuse .expectedLiteral

/-- Passes a literal whose first letter is the next character. -/
def literal (word : String) : Scan Unit := do
  skip
  letters (word.toList.drop 1)

/-! ## Numbers -/

/-- Appends digits to a number as long as it stays within a limit. The digits from the first one
that does not fit on are left over. -/
def absorb (limit : Nat) : Nat → List Char → Nat × List Char
  | value, [] => (value, [])
  | value, c :: rest =>
    let longer := value * 10 + (c.toNat - '0'.toNat)
    if longer ≤ limit then absorb limit longer rest else (value, c :: rest)

/-- The largest natural number of 64 bits. -/
def maxSignificand : Nat := UInt64.size - 1

/-- The largest exponent that is counted, that of 31 bits. -/
def maxExponent : Nat := 2147483647

/-- Passes digits. -/
def digits : Scan (List Char) := fun s => .ok (s.span Char.isDigit)

/-- Passes at least one digit. -/
def someDigits : Scan (List Char) := do
  match ← peek? with
  | none => refuse .endInValue
  | some c => if c.isDigit then digits else refuse .invalidNumber

/-- The digits before the point: no leading zero. -/
def integerDigits : Scan (List Char) := do
  let read ← someDigits
  match read with
  | '0' :: next :: rest => fun s => refuse .invalidNumber (next :: rest ++ s)
  | _ => pure read

/-- The double of a sign, a significand and a power of ten. -/
def double (negative : Bool) (significand : Nat) (exponent : Int) : Scan Number :=
  match Decimal.double? significand exponent with
  | some x => pure (.double (Decimal.signedBits negative x))
  | none => stop .numberOutOfRange

/-- A number whose exponent begins here; the power of ten so far is given. An exponent that exceeds
31 bits makes the number zero or puts it out of range. -/
def exponentPart (negative : Bool) (significand : Nat) (power : Int) : Scan Number := do
  skip
  let sign ← peek?
  if sign = some '+' || sign = some '-' then skip
  let read ← someDigits
  match absorb maxExponent 0 read with
  | (exponent, []) =>
    double negative significand (if sign = some '-' then power - exponent else power + exponent)
  | (_, _ :: unread) =>
    if significand != 0 && sign != some '-' then fun s => stop .numberOutOfRange (unread ++ s)
    else double negative 0 0

/-- A number behind its digits: an exponent may follow. -/
def exponentPart? (negative : Bool) (significand : Nat) (power : Int) : Scan Number := do
  let next ← peek?
  if next = some 'e' || next = some 'E' then exponentPart negative significand power
  else double negative significand power

/-- The number that digits without point and exponent denote. -/
def whole (negative : Bool) (value : Nat) : Scan Number :=
  if !negative then pure (.integer value)
  else if 0 < value && value ≤ UInt64.size / 2 then pure (.integer (-value))
  else double true value 0

/-- A number behind its sign. Digits that do not fit a 64-bit significand only count as places. -/
def number (negative : Bool) : Scan Number := do
  let read ← integerDigits
  let (significand, dropped) := absorb maxSignificand 0 read
  let next ← peek?
  if next = some '.' then do
    skip
    let places ← someDigits
    let (significand', unread) := absorb maxSignificand significand places
    let power := (dropped.length : Int) - ((places.length - unread.length : Nat) : Int)
    exponentPart? negative significand' power
  else if next = some 'e' || next = some 'E' then
    exponentPart negative significand dropped.length
  else if dropped.isEmpty then whole negative significand
  else double negative significand dropped.length

/-! ## Strings -/

/-- The value of a hexadecimal digit. -/
def hexDigit? (c : Char) : Option Nat :=
  if c.isDigit then some (c.toNat - '0'.toNat)
  else if 'a' ≤ c ∧ c ≤ 'f' then some (c.toNat - 'a'.toNat + 10)
  else if 'A' ≤ c ∧ c ≤ 'F' then some (c.toNat - 'A'.toNat + 10)
  else none

/-- The number that four hexadecimal digits denote. -/
def codeUnit? : List Char → Option Nat
  | [a, b, c, d] => do
    return (((← hexDigit? a) * 16 + (← hexDigit? b)) * 16 + (← hexDigit? c)) * 16 + (← hexDigit? d)
  | _ => none

/-- Reads the four digits of a code unit. A fault lies behind four bytes. -/
def codeUnit : Scan Nat := fun s =>
  match codeUnit? (s.take 4) with
  | some n => .ok (n, s.drop 4)
  | none =>
    if byteSize s < 4 then .error ⟨.endInString, 0⟩ else .error ⟨.invalidEscape, byteSize s - 4⟩

/-- Passes a character between the halves of a surrogate pair. -/
def pairLink (c : Char) : Scan Unit := do
  match ← peek? with
  | none => refuse .endInString
  | some d => if d = c then skip else refuse .unfinishedPair

/-- The character that code units denote, the first of which has been announced. -/
def unicodeEscape : Scan Char := do
  let first ← codeUnit
  if first < 0xd800 || 0xe000 ≤ first then return Char.ofNat first
  if 0xdc00 ≤ first then stop .loneSurrogate
  pairLink '\\'
  pairLink 'u'
  let second ← codeUnit
  if second < 0xdc00 || 0xe000 ≤ second then stop .loneSurrogate
  return Char.ofNat ((first - 0xd800) * 0x400 + (second - 0xdc00) + 0x10000)

/-- The character that stands for itself or another one behind a backslash. -/
def simpleEscape? : Char → Option Char
  | '"' => some '"'
  | '\\' => some '\\'
  | '/' => some '/'
  | 'b' => some '\x08'
  | 'f' => some '\x0c'
  | 'n' => some '\n'
  | 'r' => some '\r'
  | 't' => some '\t'
  | _ => none

/-- Reads an escape behind its backslash, with the given reading of code units. -/
def escape (unicode : Scan Char) : Scan Char := do
  match ← peek? with
  | none => refuse .endInString
  | some 'u' => do skip; unicode
  | some c =>
    match simpleEscape? c with
    | some d => do skip; return d
    | none => refuse .invalidEscape

/-- Reads one character of a string; there is none at the closing quote. -/
def stringChar : Scan (Option Char) := do
  match ← peek? with
  | none => refuse .endInString
  | some '"' => do skip; return none
  | some '\\' => do skip; some <$> escape unicodeEscape
  | some c => if c.toNat < 0x20 then refuse .controlCharacter else do skip; return some c

/-- Reads characters, at most as many as the fuel says, up to the closing quote. -/
def stringChars (next : Scan (Option Char)) : Nat → List Char → Scan String
  | 0, _ => refuse .endInString
  | fuel + 1, read => do
    match ← next with
    | some c => stringChars next fuel (c :: read)
    | none => return String.ofList read.reverse

/-- Reads a string behind its opening quote. The fuel bounds its length. -/
def string (fuel : Nat) : Scan String :=
  stringChars stringChar fuel []

/-! ## Arrays and objects -/

/-- Looks for an item of an array, behind the opening bracket or the last item, and passes the comma
or the closing bracket. -/
def item? (first : Bool) : Scan Bool := do
  match ← token? with
  | none => refuse .endInList
  | some ']' => do skip; return false
  | some c =>
    if first then return true
    else if c = ',' then do
      skip
      match ← token? with
      | none => refuse .endInValue
      | some ']' => refuse .trailingComma
      | some _ => return true
    else refuse .expectedListEnd

/-- Looks for a key of an object, behind the opening brace or the last member, and passes the comma,
the opening quote of the key, or the closing brace. -/
def key? (first : Bool) : Scan Bool := do
  match ← token? with
  | none => refuse .endInObject
  | some '}' => do skip; return false
  | some c =>
    if first then
      if c = '"' then do skip; return true else refuse .keyNotString
    else if c = ',' then do
      skip
      match ← token? with
      | none => refuse .endInValue
      | some '"' => do skip; return true
      | some '}' => refuse .trailingComma
      | some _ => refuse .keyNotString
    else refuse .expectedObjectEnd

/-- Passes the colon behind a key. -/
def colon : Scan Unit := do
  match ← token? with
  | none => refuse .endInObject
  | some ':' => skip
  | some _ => refuse .expectedColon

/-- Runs a reader on a whole text, behind which only blanks may follow, and locates its fault. -/
def run (scan : Scan α) (text : List Char) : Except LocatedFault α :=
  let whole : Scan α := do
    let value ← scan
    match ← token? with
    | none => return value
    | some _ => refuse .trailingCharacters
  match whole text with
  | .ok (value, _) => .ok value
  | .error fault => .error ⟨fault.cause, fault.position text⟩

end Scan

end DialogueLint.Json
