import DialogueLint.Decimal.Layout
import DialogueLint.Json.Basic
import DialogueLint.Text.Quoted
import Mathlib.Tactic.Common

/-!
# Lines of texts

A text is split into lines at its line breaks. Texts that are put together with line breaks between
them have the lines of each of them (`Text.lines_intercalate`), so that every one is a line of its
own exactly if none holds a line break (`Text.length_lines_eq`). Quoted texts and the texts of
numbers hold none.

Lines are defined by the library's splitting of lists of characters. For quoted texts and numbers
the proof follows the functions that write them: a quoted character is written by an escape or is no
line break, digits are no line breaks in any base, and the layout of a decimal puts only a point, a
sign and a letter between digits.
-/

namespace DialogueLint

namespace Text

/-- The lines of a text: what stands between its line breaks. -/
def lines (s : String) : List String :=
  (s.toList.splitOn '\n').map String.ofList

/-- A text without line breaks. -/
def Unbroken (s : String) : Prop := '\n' ∉ s.toList

instance : DecidablePred Unbroken := fun s =>
  inferInstanceAs (Decidable ('\n' ∉ s.toList))

variable {s t : String} {texts : List String}

/-- Texts together have no line break if neither of them has one. -/
@[simp] lemma unbroken_append : Unbroken (s ++ t) ↔ Unbroken s ∧ Unbroken t := by
  simp [Unbroken]

/-- A text has no line break if none of its characters is one. -/
@[simp] lemma unbroken_ofList {chars : List Char} :
    Unbroken (String.ofList chars) ↔ '\n' ∉ chars := by
  simp [Unbroken]

/-- Of two texts without line breaks, neither has one. -/
lemma unbroken_pair (hs : Unbroken s) (ht : Unbroken t) : ∀ u ∈ [s, t], Unbroken u :=
  List.forall_mem_cons.mpr ⟨hs, List.forall_mem_singleton.mpr ht⟩

/-- Put together without line breaks between them, texts without line breaks give another. -/
lemma unbroken_intercalate (hs : Unbroken s) (h : ∀ t ∈ texts, Unbroken t) :
    Unbroken (s.intercalate texts) := by
  induction texts with
  | nil => exact List.not_mem_nil
  | cons t texts ih =>
    obtain ⟨first, others⟩ := List.forall_mem_cons.mp h
    cases texts with
    | nil => simpa using first
    | cons u texts =>
      rw [String.intercalate_cons_cons, unbroken_append, unbroken_append]
      exact ⟨⟨first, hs⟩, ih others⟩

/-! ## Lines -/

/-- A line break separates the lines of two texts. -/
lemma lines_break : lines (s ++ "\n" ++ t) = lines s ++ lines t := by
  have chars : (s ++ "\n" ++ t).toList = s.toList ++ '\n' :: t.toList := by simp
  rw [lines, chars, List.splitOn_append_cons_self, List.map_append]
  rfl

/-- A text without line breaks is its only line. -/
lemma lines_of_unbroken (h : Unbroken s) : lines s = [s] := by
  simp [lines, List.splitOn_eq_singleton h]

/-- Every text has a line, be it an empty one. -/
lemma length_lines_pos (s : String) : 0 < (lines s).length := by
  rw [lines, List.length_map, List.length_pos_iff]
  exact List.splitOn_ne_nil _ _

/-- Only a text without line breaks has a single line. -/
lemma length_lines_eq_one : (lines s).length = 1 ↔ Unbroken s := by
  constructor
  · intro one broken
    obtain ⟨before, behind, chars⟩ := List.append_of_mem broken
    have split : s = String.ofList before ++ "\n" ++ String.ofList behind := by
      apply String.toList_injective
      simp [chars]
    rw [split, lines_break, List.length_append] at one
    have first := length_lines_pos (String.ofList before)
    have last := length_lines_pos (String.ofList behind)
    omega
  · intro h
    rw [lines_of_unbroken h, List.length_singleton]

/-- Texts put together with line breaks have the lines of each. -/
lemma lines_intercalate (some : texts ≠ []) :
    lines ("\n".intercalate texts) = texts.flatMap lines := by
  induction texts with
  | nil => exact absurd rfl some
  | cons t texts ih =>
    cases texts with
    | nil => simp
    | cons u texts =>
      rw [String.intercalate_cons_cons, lines_break, ih (List.cons_ne_nil _ _)]
      rfl

/-- There are as many lines as texts exactly if each text is one line. -/
lemma length_lines_eq (texts : List String) :
    (texts.flatMap lines).length = texts.length ↔ ∀ t ∈ texts, Unbroken t := by
  have atLeast : ∀ texts : List String, texts.length ≤ (texts.flatMap lines).length := by
    intro texts
    induction texts with
    | nil => exact Nat.le_refl 0
    | cons t texts ih =>
      have first := length_lines_pos t
      rw [List.flatMap_cons, List.length_append, List.length_cons]
      omega
  induction texts with
  | nil => simp
  | cons t texts ih =>
    have first := length_lines_pos t
    have others := atLeast texts
    have split : (lines t).length + (texts.flatMap lines).length = texts.length + 1 ↔
        (lines t).length = 1 ∧ (texts.flatMap lines).length = texts.length := by omega
    rw [List.flatMap_cons, List.length_append, List.length_cons, split, length_lines_eq_one,
      List.forall_mem_cons]
    exact and_congr_right fun _ => ih

/-- Texts without line breaks, put together with line breaks, are the lines. -/
lemma flatMap_lines (h : ∀ t ∈ texts, Unbroken t) : texts.flatMap lines = texts := by
  induction texts with
  | nil => rfl
  | cons t texts ih =>
    obtain ⟨first, others⟩ := List.forall_mem_cons.mp h
    rw [List.flatMap_cons, lines_of_unbroken first, ih others, List.singleton_append]

/-! ## Quoted texts and numbers -/

/-- No digit is a line break. -/
lemma break_not_mem_toDigits {b : Nat} (hb : 1 < b) (n : Nat) : '\n' ∉ Nat.toDigits b n := by
  induction n using Nat.strongRecOn with
  | ind n ih =>
    rw [Nat.toDigits_eq_if hb]
    split_ifs with h
    · simp
    · have smaller : n / b < n := Nat.div_lt_self (by omega) hb
      simp [ih _ smaller]

/-- A natural number is written without a line break. -/
lemma unbroken_nat (n : Nat) : Unbroken (toString n) := by
  rw [Nat.toString_eq_ofList_toDigits, unbroken_ofList]
  exact break_not_mem_toDigits (by decide) n

/-- A natural number is written without a line break in messages. -/
lemma unbroken_repr (n : Nat) : Unbroken n.repr :=
  unbroken_nat n

/-- An integer is written without a line break. -/
lemma unbroken_int (n : Int) : Unbroken (toString n) := by
  cases n with
  | ofNat n => exact unbroken_nat n
  | negSucc n =>
    have written : toString (Int.negSucc n) = "-" ++ toString (n + 1) := rfl
    rw [written, unbroken_append]
    exact ⟨by decide, unbroken_nat _⟩

/-- No quoted character is a line break. -/
lemma break_not_mem_quoteChar (c : Char) : '\n' ∉ quoteChar c := by
  unfold quoteChar
  split
  case h_7 hbreak _ _ _ =>
    have other : '\n' ≠ c := fun same => hbreak same.symm
    split_ifs
    · simpa using other
    · simp [break_not_mem_toDigits]
  all_goals decide

/-- A quoted text has no line break, whatever was quoted. -/
lemma unbroken_quote (s : String) : Unbroken (quote s) := by
  rw [quote, unbroken_ofList]
  simp [break_not_mem_quoteChar]

end Text

open Text

namespace Decimal

variable {digits : List Char}

/-- Zeros are no line breaks. -/
lemma unbroken_zeros (n : Nat) : Unbroken (zeros n) := by
  rw [zeros, unbroken_ofList]
  simp

/-- The digits behind the point are no line breaks. -/
lemma unbroken_fraction (h : '\n' ∉ digits) : Unbroken (fraction digits) := by
  unfold fraction
  split_ifs
  · decide
  · exact unbroken_ofList.mpr h

/-- A decimal without an exponent has no line break if its digits have none. -/
lemma unbroken_positional (h : '\n' ∉ digits) (power : Int) :
    Unbroken (positional digits power) := by
  cases power with
  | ofNat power =>
    have taken : '\n' ∉ digits.take (power + 1) := fun mem => h (List.mem_of_mem_take mem)
    have dropped : '\n' ∉ digits.drop (power + 1) := fun mem => h (List.mem_of_mem_drop mem)
    have point : Unbroken "." := by decide
    simp [positional, taken, unbroken_zeros, point, unbroken_fraction dropped]
  | negSucc power =>
    have front : Unbroken "0." := by decide
    simp [positional, front, unbroken_zeros, h]

/-- A decimal with an exponent has no line break if its digits have none. -/
lemma unbroken_scientific (h : '\n' ∉ digits) (power : Int) :
    Unbroken (scientific digits power) := by
  have taken : '\n' ∉ digits.take 1 := fun mem => h (List.mem_of_mem_take mem)
  have dropped : '\n' ∉ digits.drop 1 := fun mem => h (List.mem_of_mem_drop mem)
  have places : Unbroken
      (if (digits.drop 1).isEmpty then "" else "." ++ String.ofList (digits.drop 1)) := by
    split_ifs
    · decide
    · exact unbroken_append.mpr ⟨by decide, unbroken_ofList.mpr dropped⟩
  have sign : Unbroken (if power < 0 then "-" else "+") := by
    split_ifs <;> decide
  have letter : Unbroken "e" := by decide
  simp only [scientific, unbroken_append, unbroken_ofList]
  exact ⟨⟨⟨⟨taken, places⟩, letter⟩, sign⟩, unbroken_nat _⟩

/-- The magnitude of a double is written without a line break. -/
lemma unbroken_magnitudeText (d : Numeral) : Unbroken (magnitudeText d) := by
  have significant : '\n' ∉ dropEndZeros (Nat.toDigits 10 d.digits) := by
    intro mem
    have kept := (List.dropWhile_sublist _).subset (List.mem_reverse.mp mem)
    exact break_not_mem_toDigits (by decide) _ (List.mem_reverse.mp kept)
  simp only [magnitudeText]
  split_ifs
  · exact unbroken_positional significant _
  · exact unbroken_scientific significant _

/-- A double is written without a line break. -/
lemma unbroken_text (bits : UInt64) : Unbroken (text bits) := by
  simp only [text, unbroken_append]
  constructor
  · split_ifs <;> decide
  · split_ifs
    · decide
    · exact unbroken_magnitudeText _

end Decimal

/-- A number is written without a line break. -/
lemma Number.unbroken_text (n : Number) : Unbroken n.text := by
  cases n with
  | integer value => exact unbroken_int value
  | double bits => exact Decimal.unbroken_text bits

end DialogueLint
