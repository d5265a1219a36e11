/-!
# Doubles from decimals

The double that a decimal numeral denotes: a 64-bit significand scaled by a power of ten. The
scaling is done in double arithmetic, one multiplication or a few divisions, each rounded to
nearest. A positive power that leads beyond the largest double is an error; a negative one may lead
to zero.
-/

namespace DialogueLint.Decimal

/-- The largest power of ten that a double can hold. -/
def maxPower : Nat := 308

/-- The double nearest to a power of ten. -/
def powerOfTen (n : Nat) : Float :=
  Float.ofScientific 1 false n

/-- Divides by a power of ten, in steps that a double can hold. -/
def scaleDown (x : Float) (n : Nat) : Float :=
  if n ≤ maxPower then x / powerOfTen n
  else if x == 0 then x
  else scaleDown (x / powerOfTen maxPower) (n - maxPower)
termination_by n
decreasing_by simp only [maxPower] at *; omega

/-- Multiplies by a power of ten, if the product is a double. -/
def scaleUp? (x : Float) (n : Nat) : Option Float :=
  if n ≤ maxPower then
    let product := x * powerOfTen n
    if product.isInf then none else some product
  else if x == 0 then some x
  else none

/-- The double `significand * 10 ^ exponent`, for a significand of at most 64 bits. -/
def double? (significand : Nat) : Int → Option Float
  | .ofNat n => scaleUp? significand.toUInt64.toFloat n
  | .negSucc n => some (scaleDown significand.toUInt64.toFloat (n + 1))

/-- The bits of a double, negated if asked. -/
def signedBits (negative : Bool) (x : Float) : UInt64 :=
  (if negative then -x else x).toBits

end DialogueLint.Decimal
