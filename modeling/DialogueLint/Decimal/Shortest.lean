/-!
# Shortest decimals

The shortest decimal that reads back as a given double. A double stands for every real number that
rounds to it; of the decimals among them with the fewest digits, the one nearest to the double's own
value is chosen, and of two equally near ones the even one. Everything is exact arithmetic on
natural numbers.
-/

namespace DialogueLint.Decimal

/-- A finite double taken apart: its magnitude is `significand * 2 ^ exponent`. -/
structure Binary where
  /-- Whether the sign bit is set. -/
  negative : Bool
  /-- The significand, with the hidden bit of a normal double written out. -/
  significand : Nat
  /-- The power of two that scales the significand. -/
  exponent : Int
  /-- Whether the next smaller double is only half a unit away. -/
  narrowBelow : Bool
  deriving Repr, DecidableEq

/-- Takes apart the bits of a finite double: a sign, eleven bits of exponent, fifty-two of
fraction. -/
def Binary.ofBits (bits : UInt64) : Binary :=
  let fraction : Nat := bits.toNat % Nat.pow 2 52
  let biased : Nat := bits.toNat / Nat.pow 2 52 % Nat.pow 2 11
  let negative := bits.toNat / Nat.pow 2 63 == 1
  if biased == 0 then ⟨negative, fraction, -1074, false⟩
  else ⟨negative, Nat.pow 2 52 + fraction, (biased : Int) - 1075, fraction == 0 && 1 < biased⟩

/-- A decimal numeral `digits * 10 ^ exponent`. -/
structure Numeral where
  /-- The digits, read as one natural number. -/
  digits : Nat
  /-- The power of ten that scales them. -/
  exponent : Int
  deriving Repr, DecidableEq

/-- A positive rational number as numerator over denominator. -/
structure Ratio where
  /-- The numerator. -/
  num : Nat
  /-- The denominator. -/
  den : Nat

/-- The number of decimal digits of a natural number, one for zero. -/
def digitCount (n : Nat) : Nat :=
  (Nat.toDigits 10 n).length

namespace Ratio

/-- The ratio `n * base ^ e`. -/
def scaled (n base : Nat) : Int → Ratio
  | .ofNat e => ⟨n * Nat.pow base e, 1⟩
  | .negSucc e => ⟨n, Nat.pow base (e + 1)⟩

/-- Whether one ratio is below another. -/
def lt (a b : Ratio) : Bool :=
  a.num * b.den < b.num * a.den

/-- Whether one ratio is at most another. -/
def le (a b : Ratio) : Bool :=
  a.num * b.den ≤ b.num * a.den

/-- A power of ten above the ratio, and at most a hundred times as large. -/
def magnitude (a : Ratio) : Int :=
  if a.den ≤ a.num then (digitCount (a.num / a.den) : Int)
  else 2 - (digitCount (a.den / a.num) : Int)

end Ratio

/-- The real numbers that round to a double, with the ends included if the significand is even. -/
structure Interval where
  /-- The lower end. -/
  lower : Ratio
  /-- The upper end. -/
  upper : Ratio
  /-- Whether the ends themselves round to the double. -/
  closed : Bool

/-- Half a unit to either side, or a quarter below where the spacing of doubles narrows. -/
def Binary.interval (b : Binary) : Interval :=
  let quarters := 4 * b.significand
  ⟨.scaled (quarters - (if b.narrowBelow then 1 else 2)) 2 (b.exponent - 2),
    .scaled (quarters + 2) 2 (b.exponent - 2), b.significand % 2 == 0⟩

/-- Whether a ratio rounds to the double that the interval belongs to. -/
def Interval.contains (i : Interval) (r : Ratio) : Bool :=
  if i.closed then i.lower.le r && r.le i.upper else i.lower.lt r && r.lt i.upper

/-- The better of two neighbouring grid points around a value: the nearer, at a tie the even one. -/
def nearer (value : Ratio) (below : Nat) (exponent : Int) : Nat :=
  let middle := Ratio.scaled (2 * below + 1) 10 exponent
  let twice : Ratio := ⟨2 * value.num, value.den⟩
  if twice.lt middle then below
  else if middle.lt twice then below + 1
  else if below % 2 == 0 then below else below + 1

/-- The points `n * 10 ^ exponent` next to a value that lie in the interval, the better one if both
do. -/
def gridPoint? (i : Interval) (value : Ratio) (exponent : Int) : Option Numeral :=
  let unit := Ratio.scaled 1 10 exponent
  let below := value.num * unit.den / (value.den * unit.num)
  let hit := fun n => 0 < n && i.contains (.scaled n 10 exponent)
  match hit below, hit (below + 1) with
  | true, true => some ⟨nearer value below exponent, exponent⟩
  | true, false => some ⟨below, exponent⟩
  | false, true => some ⟨below + 1, exponent⟩
  | false, false => none

/-- The point of the coarsest grid, from `10 ^ exponent` down, that has one in the interval. -/
def coarsest (i : Interval) (value : Ratio) : Nat → Int → Numeral
  | 0, exponent => ⟨0, exponent⟩
  | steps + 1, exponent =>
    match gridPoint? i value exponent with
    | some d => d
    | none => coarsest i value steps (exponent - 1)

/-- The shortest decimal that reads back as a positive double. Seventeen digits always suffice, so
that twenty grids below a power of ten above the value are enough. -/
def shortest (b : Binary) : Numeral :=
  let value := Ratio.scaled b.significand 2 b.exponent
  coarsest b.interval value 20 value.magnitude

end DialogueLint.Decimal
