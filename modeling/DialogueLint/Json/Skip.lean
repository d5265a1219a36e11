import DialogueLint.Json.Scan

/-!
# Passing over JSON text

A value that nobody asks for is passed over without being built. It need only be well nested: its
numbers may be of any size, its escapes may be half a surrogate pair, and it may be nested to any
depth. The arrays and objects that have been entered are kept in a list, the innermost first.
-/

namespace DialogueLint.Json.Scan

/-! ## Scalars -/

/-- Passes digits, at least one. -/
def passDigits : Scan Unit := do
  match ← peek? with
  | some c => if c.isDigit then modify (List.dropWhile Char.isDigit) else refuse .invalidNumber
  | none => refuse .invalidNumber

/-- Passes digits that have no leading zero. -/
def passInteger : Scan Unit := do
  if (← peek?) = some '0' then
    skip
    if (← peek?).any Char.isDigit then refuse .invalidNumber
  else passDigits

/-- Passes the exponent of a number, if there is one. -/
def passExponent : Scan Unit := do
  let next ← peek?
  if next = some 'e' || next = some 'E' then
    skip
    let sign ← peek?
    if sign = some '+' || sign = some '-' then skip
    passDigits

/-- Passes a number behind its sign. -/
def passNumber : Scan Unit := do
  passInteger
  if (← peek?) = some '.' then do skip; passDigits
  passExponent

/-- Passes one character of a string; there is none at the closing quote. -/
def passChar : Scan (Option Char) := do
  match ← peek? with
  | none => refuse .endInString
  | some '"' => do skip; return none
  | some '\\' => do skip; some <$> escape (Char.ofNat <$> codeUnit)
  | some c => if c.toNat < 0x20 then stop .controlCharacter else do skip; return some c

/-- Passes a string behind its opening quote. The fuel bounds its length. -/
def passString (fuel : Nat) : Scan Unit := do
  discard (stringChars passChar fuel [])

/-! ## Arrays and objects -/

/-- What has been entered. -/
inductive Frame where
  /-- An array. -/
  | list
  /-- An object. -/
  | object
  deriving Repr, DecidableEq

/-- Passes what stands behind a value in the innermost frame: closing brackets, and a comma if
something is to follow. Directly behind an opening bracket there is no value and no comma. Gives the
frames that are left. -/
def passEnds : Nat → Bool → List Frame → Scan (List Frame)
  | 0, _, _ => refuse .endInValue
  | _, _, [] => return []
  | fuel + 1, afterValue, frame :: outer => do
    match ← token?, frame with
    | some ']', .list => do skip; passEnds fuel true outer
    | some '}', .object => do skip; passEnds fuel true outer
    | some c, frame =>
      if !afterValue then return frame :: outer
      else if c = ',' then do skip; return frame :: outer
      else match frame with
        | .list => refuse .expectedListEnd
        | .object => refuse .expectedObjectEnd
    | none, .list => refuse .endInList
    | none, .object => refuse .endInObject

/-- Passes a key and its colon, if the innermost frame is an object. -/
def passKey (fuel : Nat) : List Frame → Scan Unit
  | .object :: _ => do
    match ← token? with
    | some '"' => do skip; passString fuel; colon
    | some _ => refuse .keyNotString
    | none => refuse .endInObject
  | _ => pure ()

/-- Passes a scalar, or the opening bracket of an array or object. Tells whether it was a scalar and
which frames it leaves. -/
def passStart (fuel : Nat) (frames : List Frame) : Scan (Bool × List Frame) := do
  match ← token? with
  | none => refuse .endInValue
  | some 'n' => do literal "null"; return (true, frames)
  | some 't' => do literal "true"; return (true, frames)
  | some 'f' => do literal "false"; return (true, frames)
  | some '-' => do skip; passNumber; return (true, frames)
  | some '"' => do skip; passString fuel; return (true, frames)
  | some '[' => do skip; return (false, .list :: frames)
  | some '{' => do skip; return (false, .object :: frames)
  | some c =>
    if c.isDigit then do passNumber; return (true, frames) else refuse .expectedValue

/-- Passes a value inside the given frames and all that follows it there. The fuel bounds the number
of values. -/
def passValue : Nat → List Frame → Scan Unit
  | 0, _ => refuse .endInValue
  | fuel + 1, frames => do
    let (afterValue, entered) ← passStart fuel frames
    match ← passEnds fuel afterValue entered with
    | [] => return ()
    | left => do
      passKey fuel left
      passValue fuel left

end DialogueLint.Json.Scan
