/-!
# Families

The families of values that expressions are typed by, and sets of families. Families overlap: a
literal text is a date, a date-time, a string and a time, and a looked-up variable may be anything.
-/

namespace DialogueLint

/-- A family of values. -/
inductive Family where
  /-- Values of no particular family. -/
  | any
  | boolean
  | date
  | dateTime
  | list
  | numeric
  | string
  | time
  /-- The literal `null`, which only a position for any expression takes. -/
  | null
  deriving Repr, DecidableEq

namespace Family

/-- The name of a family. -/
def name : Family → String
  | any => "Any"
  | boolean => "Boolean"
  | date => "Date"
  | dateTime => "DateTime"
  | list => "List"
  | numeric => "Numeric"
  | string => "String"
  | time => "Time"
  | null => "Null"

/-- All families in their declared order. -/
def all : List Family :=
  [any, boolean, date, dateTime, list, numeric, string, time, null]

/-- The families that values other than `null` have. -/
def proper : List Family :=
  [any, boolean, date, dateTime, list, numeric, string, time]

/-- The families whose values can be compared by size. -/
def ordered : List Family :=
  [date, dateTime, numeric, time]

/-- The families in the order in which one of them is picked to stand for a set. -/
def byPriority : List Family :=
  [any, boolean, numeric, string, date, dateTime, time, list, null]

/-- The families by name. -/
def choices : List (String × Family) :=
  all.map fun f => (f.name, f)

/-- Every family is listed. -/
theorem mem_all (f : Family) : f ∈ all := by
  cases f <;> decide

/-- Every family has a priority. -/
theorem mem_byPriority (f : Family) : f ∈ byPriority := by
  cases f <;> decide

end Family

/-- A set of families. -/
@[ext] structure FamilySet where
  /-- Whether a family is in the set. -/
  contains : Family → Bool

namespace FamilySet

/-- The set without families. -/
def empty : FamilySet := ⟨fun _ => false⟩

/-- The set of one family. -/
def of (f : Family) : FamilySet := ⟨fun g => g == f⟩

/-- The families of either set. -/
def union (s t : FamilySet) : FamilySet := ⟨fun f => s.contains f || t.contains f⟩

/-- The set with one more family. -/
def insert (s : FamilySet) (f : Family) : FamilySet := s.union (of f)

/-- The families of the set in their declared order. -/
def toList (s : FamilySet) : List Family :=
  Family.all.filter s.contains

/-- The set of the families in a list. -/
def ofList (families : List Family) : FamilySet := ⟨fun f => families.contains f⟩

/-- Whether the set has no families. -/
def isEmpty (s : FamilySet) : Bool :=
  s.toList.isEmpty

/-- The family that stands for the set: `any` for expressions of no particular family, `string` for
a literal text. -/
def primary (s : FamilySet) : Option Family :=
  Family.byPriority.find? s.contains

/-- The families of the set whose values can be compared by size. -/
def ordered (s : FamilySet) : List Family :=
  Family.ordered.filter s.contains

/-- The empty set has no family. -/
@[simp] theorem contains_empty (f : Family) : empty.contains f = false := rfl

/-- The set of one family has that family. -/
@[simp] theorem contains_of (f g : Family) : (of f).contains g = (g == f) := rfl

/-- A union has the families of both. -/
@[simp] theorem contains_union (s t : FamilySet) (f : Family) :
    (s.union t).contains f = (s.contains f || t.contains f) := rfl

/-- The set of a list has the members of the list. -/
@[simp] theorem contains_ofList (families : List Family) (f : Family) :
    (ofList families).contains f = families.contains f := rfl

/-- The list of a set has the families of the set. -/
@[simp] theorem mem_toList {s : FamilySet} {f : Family} : f ∈ s.toList ↔ s.contains f := by
  simp [toList, Family.mem_all]

/-- A set is determined by its list. -/
theorem toList_inj {s t : FamilySet} : s.toList = t.toList ↔ s = t := by
  constructor
  · intro h
    ext f
    rw [Bool.eq_iff_iff, ← mem_toList, ← mem_toList, h]
  · rintro rfl
    rfl

instance : DecidableEq FamilySet := fun s t =>
  decidable_of_iff (s.toList = t.toList) toList_inj

instance : Repr FamilySet where
  reprPrec s n := reprPrec s.toList n

end FamilySet

/-- What a position demands of the expression that stands there. -/
inductive Expectation where
  /-- An expression of some family, `null` included. -/
  | logic
  /-- An expression of the given family. -/
  | family (family : Family)
  deriving Repr, DecidableEq

namespace Expectation

/-- Whether an expression with the given families meets the expectation. -/
def accepts : Expectation → FamilySet → Bool
  | logic, s => !s.isEmpty
  | family f, s => s.contains f

/-- How an expectation is worded. -/
def wording : Expectation → String
  | logic => "an expression"
  | family f => s!"a {f.name} expression"

end Expectation

end DialogueLint
