/-!
# Arities

How many operands an operator or a method takes.
-/

namespace DialogueLint

/-- A range of operand counts. -/
structure Arity where
  /-- The least count. -/
  min : Nat
  /-- The greatest count, if there is one. -/
  max : Option Nat
  deriving Repr, DecidableEq

namespace Arity

/-- Only the given count. -/
def exactly (n : Nat) : Arity := ⟨n, some n⟩

/-- The given count and every greater one. -/
def atLeast (n : Nat) : Arity := ⟨n, none⟩

/-- The counts between two bounds, both included. -/
def between (min max : Nat) : Arity := ⟨min, some max⟩

/-- Whether a count is in the range. -/
def accepts (a : Arity) (count : Nat) : Bool :=
  a.min ≤ count && a.max.all fun max => count ≤ max

/-- How a range is worded. -/
def wording (a : Arity) : String :=
  match a.max with
  | some max => if max = a.min then s!"exactly {max}" else s!"{a.min} to {max}"
  | none => s!"at least {a.min}"

/-- Exactly so many are accepted. -/
@[simp] theorem accepts_exactly (n count : Nat) : (exactly n).accepts count ↔ count = n := by
  rw [exactly, accepts]
  simp
  omega

/-- So many or more are accepted. -/
@[simp] theorem accepts_atLeast (n count : Nat) : (atLeast n).accepts count ↔ n ≤ count := by
  rw [atLeast, accepts]
  simp

/-- Any number within the bounds is accepted. -/
@[simp] theorem accepts_between (min max count : Nat) :
    (between min max).accepts count ↔ min ≤ count ∧ count ≤ max := by
  rw [between, accepts]
  simp

end Arity

end DialogueLint
