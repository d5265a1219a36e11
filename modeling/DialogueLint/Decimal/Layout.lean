import DialogueLint.Decimal.Shortest

/-!
# Number text

How a double is written. The digits are the shortest ones that read back. Between `1e-5` (included)
and `1e16` (excluded) they are written positionally with at least one digit on either side of the
point; beyond, with one digit before the point and a signed exponent.
-/

namespace DialogueLint.Decimal

/-- The choices that a written double depends on. -/
structure Layout where
  /-- The least power of ten that is written positionally. -/
  leastPositional : Int
  /-- The least power of ten that is too large for that. -/
  leastLarge : Int
  deriving Repr, DecidableEq

/-- Powers of ten from `-5` to `15` are written positionally. -/
def layout : Layout := ⟨-5, 16⟩

/-- So many zeros. -/
def zeros (n : Nat) : String :=
  String.ofList (List.replicate n '0')

/-- A fraction has at least one digit. -/
def fraction (digits : List Char) : String :=
  if digits.isEmpty then "0" else String.ofList digits

/-- Digits in positional notation, where the first digit stands for the given power of ten. -/
def positional (digits : List Char) : Int → String
  | .ofNat power =>
    String.ofList (digits.take (power + 1)) ++ zeros (power + 1 - digits.length) ++ "." ++
      fraction (digits.drop (power + 1))
  | .negSucc power => "0." ++ zeros power ++ String.ofList digits

/-- Digits in scientific notation; the exponent always has a sign. -/
def scientific (digits : List Char) (power : Int) : String :=
  let tail := digits.drop 1
  String.ofList (digits.take 1) ++ (if tail.isEmpty then "" else "." ++ String.ofList tail) ++
    "e" ++ (if power < 0 then "-" else "+") ++ toString power.natAbs

/-- Drops the zeros at the end of a list of digits. -/
def dropEndZeros (digits : List Char) : List Char :=
  (digits.reverse.dropWhile (· == '0')).reverse

/-- The text of a magnitude given as a decimal. -/
def magnitudeText (d : Numeral) : String :=
  let digits := Nat.toDigits 10 d.digits
  let power := d.exponent + (digits.length : Int) - 1
  let significant := dropEndZeros digits
  if layout.leastPositional ≤ power && power < layout.leastLarge then positional significant power
  else scientific significant power

/-- The text of the double with the given bits. -/
def text (bits : UInt64) : String :=
  let b := Binary.ofBits bits
  (if b.negative then "-" else "") ++
    if b.significand == 0 then "0.0" else magnitudeText (shortest b)

end DialogueLint.Decimal
