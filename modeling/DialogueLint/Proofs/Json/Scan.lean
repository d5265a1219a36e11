import DialogueLint.Json.Parse
import DialogueLint.Proofs.Text.Lines

/-!
# Why texts cannot be read

Reading a value from a text fails only for causes in fixed words (`Scan.plain_values`): no part of
the text gets into the message.

Being plain is closed under the steps of which the readers of text are made: going on with what was
read (`Plain.bind`), and refusing for a cause in fixed words (`plain_refuse`, `plain_stop`). Each
reader then follows from its own definition, branch by branch. Values, items and members call each
other with less fuel, so they are shown together by induction on the fuel.
-/

namespace DialogueLint.Json

open Text

/-- The wording of a cause has no line break. -/
def Cause.Plain (cause : Cause) : Prop := Unbroken cause.message

instance : DecidablePred Cause.Plain := fun cause =>
  inferInstanceAs (Decidable (Unbroken cause.message))

namespace Scan

variable {α β : Type} {scan : Scan α}

/-- A reader of text fails only for causes whose wording has no line break. -/
def Plain (scan : Scan α) : Prop :=
  ∀ s fault, scan s = .error fault → fault.cause.Plain

/-! ## Steps -/

/-- Reading nothing never fails. -/
lemma plain_pure {a : α} : (pure a : Scan α).Plain := nofun

/-- Going on behind a plain reader with plain readers is plain. -/
lemma Plain.bind (h : scan.Plain) {next : α → Scan β} (hn : ∀ a, (next a).Plain) :
    (scan >>= next).Plain := by
  intro s fault failed
  have run : (scan >>= next) s = (scan s >>= fun p => next p.1 p.2) := rfl
  rw [run] at failed
  cases first : scan s with
  | error other =>
    rw [first] at failed
    cases failed
    exact h s _ first
  | ok p =>
    rw [first] at failed
    exact hn p.1 p.2 fault failed

/-- Using what was read in another way does not make it fail. -/
lemma Plain.map (h : scan.Plain) {f : α → β} : (f <$> scan).Plain := by
  rw [map_eq_pure_bind]
  exact h.bind fun _ => plain_pure

/-- Refusing in fixed words at the place reached is plain. -/
lemma plain_stop {cause : Cause} (h : cause.Plain) : (stop cause : Scan α).Plain := by
  rintro s fault ⟨⟩
  exact h

/-- Refusing in fixed words at the next character is plain. -/
lemma plain_refuse {cause : Cause} (h : cause.Plain) : (refuse cause : Scan α).Plain := by
  rintro s fault ⟨⟩
  exact h

/-- Skipping a character never fails. -/
lemma plain_skip : skip.Plain := nofun

/-- Looking at the next character never fails. -/
lemma plain_peek : peek?.Plain := nofun

/-- Looking for the next token never fails. -/
lemma plain_token : token?.Plain := nofun

/-! ## Literals and numbers -/

/-- A literal is refused where it ends too soon or goes on in another way. -/
lemma plain_letters (word : List Char) : (letters word).Plain := by
  induction word with
  | nil => exact plain_pure
  | cons letter word ih =>
    refine plain_peek.bind fun next => ?_
    split
    · exact plain_refuse (by decide)
    · split_ifs
      · exact plain_skip.bind fun _ => ih
      · exact plain_refuse (by decide)

/-- A literal is read letter by letter behind its first one. -/
lemma plain_literal (word : String) : (literal word).Plain :=
  plain_skip.bind fun _ => plain_letters _

/-- Reading digits never fails, since there may be none. -/
lemma plain_digits : digits.Plain := nofun

/-- Where a digit has to be, something else is refused. -/
lemma plain_someDigits : someDigits.Plain := by
  refine plain_peek.bind fun next => ?_
  split
  · exact plain_refuse (by decide)
  · split_ifs
    · exact plain_digits
    · exact plain_refuse (by decide)

/-- A leading zero is refused. -/
lemma plain_integerDigits : integerDigits.Plain := by
  refine plain_someDigits.bind fun read => ?_
  split
  · exact fun s fault failed => plain_refuse (by decide) _ fault failed
  · exact plain_pure

/-- A number that is out of range is refused. -/
lemma plain_double {negative : Bool} {significand : Nat} {exponent : Int} :
    (double negative significand exponent).Plain := by
  unfold double
  split
  · exact plain_pure
  · exact plain_stop (by decide)

/-- An exponent is refused without digits, or if the number gets out of range by it. -/
lemma plain_exponentPart {negative : Bool} {significand : Nat} {power : Int} :
    (exponentPart negative significand power).Plain := by
  refine plain_skip.bind fun _ => plain_peek.bind fun sign => ?_
  extract_lets behind
  have rest : ∀ u, (behind u).Plain := by
    refine fun u => plain_someDigits.bind fun read => ?_
    split
    · exact plain_double
    · split_ifs
      · exact fun s fault failed => plain_stop (by decide) _ fault failed
      · exact plain_double
  split_ifs
  · exact plain_skip.bind rest
  · exact rest ()

/-- An exponent may be absent. -/
lemma plain_exponentPart? {negative : Bool} {significand : Nat} {power : Int} :
    (exponentPart? negative significand power).Plain := by
  refine plain_peek.bind fun next => ?_
  split_ifs
  · exact plain_exponentPart
  · exact plain_double

/-- A whole number that fits no integer is read as a double. -/
lemma plain_whole {negative : Bool} {value : Nat} : (whole negative value).Plain := by
  unfold whole
  split_ifs
  · exact plain_pure
  · exact plain_pure
  · exact plain_double

/-- A number is read part by part. -/
lemma plain_number {negative : Bool} : (number negative).Plain := by
  refine plain_integerDigits.bind fun read => plain_peek.bind fun next => ?_
  split_ifs
  · refine plain_skip.bind fun _ => plain_someDigits.bind fun places => ?_
    exact plain_exponentPart?
  · exact plain_exponentPart
  · exact plain_whole
  · exact plain_double

/-! ## Strings -/

/-- Four hexadecimal digits are refused if the text ends, or if one of them is another character. -/
lemma plain_codeUnit : codeUnit.Plain := by
  intro s fault failed
  unfold codeUnit at failed
  split at failed
  · cases failed
  · have inString : Cause.endInString.Plain := by decide
    have escape : Cause.invalidEscape.Plain := by decide
    split_ifs at failed
    · cases failed
      exact inString
    · cases failed
      exact escape

/-- The second half of a pair has to be announced. -/
lemma plain_pairLink (c : Char) : (pairLink c).Plain := by
  refine plain_peek.bind fun next => ?_
  split
  · exact plain_refuse (by decide)
  · split_ifs
    · exact plain_skip
    · exact plain_refuse (by decide)

/-- A character by its code is refused if it is half of a pair and the other half is missing. -/
lemma plain_unicodeEscape : unicodeEscape.Plain := by
  refine plain_codeUnit.bind fun first => ?_
  split
  · exact plain_pure
  · extract_lets pair
    have rest : ∀ u, (pair u).Plain := by
      refine fun u => (plain_pairLink _).bind fun _ => (plain_pairLink _).bind fun _ =>
        plain_codeUnit.bind fun second => ?_
      extract_lets character
      split_ifs
      · exact (plain_stop (by decide)).bind fun _ => plain_pure
      · exact plain_pure
    split_ifs
    · exact (plain_stop (by decide)).bind rest
    · exact rest ()

/-- Behind a backslash, what is no escape is refused. -/
lemma plain_escape {unicode : Scan Char} (h : unicode.Plain) : (escape unicode).Plain := by
  refine plain_peek.bind fun next => ?_
  split
  · exact plain_refuse (by decide)
  · exact plain_skip.bind fun _ => h
  · split
    · exact plain_skip.bind fun _ => plain_pure
    · exact plain_refuse (by decide)

/-- Within a string, control characters are refused. -/
lemma plain_stringChar : stringChar.Plain := by
  refine plain_peek.bind fun next => ?_
  split
  · exact plain_refuse (by decide)
  · exact plain_skip.bind fun _ => plain_pure
  · exact plain_skip.bind fun _ => (plain_escape plain_unicodeEscape).map
  · split_ifs
    · exact plain_refuse (by decide)
    · exact plain_skip.bind fun _ => plain_pure

/-- The characters of a string are read one by one, up to the closing quote. -/
lemma plain_stringChars {next : Scan (Option Char)} (h : next.Plain) (fuel : Nat)
    (read : List Char) : (stringChars next fuel read).Plain := by
  induction fuel generalizing read with
  | zero => exact plain_refuse (by decide)
  | succ fuel ih =>
    refine h.bind fun c => ?_
    split
    · exact ih _
    · exact plain_pure

/-- A string is read to its end. -/
lemma plain_string (fuel : Nat) : (string fuel).Plain :=
  plain_stringChars plain_stringChar fuel []

/-! ## Arrays and objects -/

/-- Before an item there is a comma, unless it is the first one. -/
lemma plain_item {first : Bool} : (item? first).Plain := by
  refine plain_token.bind fun next => ?_
  split
  · exact plain_refuse (by decide)
  · exact plain_skip.bind fun _ => plain_pure
  · split_ifs
    · exact plain_pure
    · refine plain_skip.bind fun _ => plain_token.bind fun next => ?_
      split
      · exact plain_refuse (by decide)
      · exact plain_refuse (by decide)
      · exact plain_pure
    · exact plain_refuse (by decide)

/-- Before a key there is a comma, unless it is the first one, and a key is a string. -/
lemma plain_key {first : Bool} : (key? first).Plain := by
  refine plain_token.bind fun next => ?_
  split
  · exact plain_refuse (by decide)
  · exact plain_skip.bind fun _ => plain_pure
  · split_ifs
    · exact plain_skip.bind fun _ => plain_pure
    · exact plain_refuse (by decide)
    · refine plain_skip.bind fun _ => plain_token.bind fun next => ?_
      split
      · exact plain_refuse (by decide)
      · exact plain_skip.bind fun _ => plain_pure
      · exact plain_refuse (by decide)
      · exact plain_refuse (by decide)
    · exact plain_refuse (by decide)

/-- Between a key and its value there is a colon. -/
lemma plain_colon : colon.Plain := by
  refine plain_token.bind fun next => ?_
  split
  · exact plain_refuse (by decide)
  · exact plain_skip
  · exact plain_refuse (by decide)

/-! ## Values -/

section Values

variable {fuel depth : Nat}

/-- Items are plain with more fuel if values and items are plain with less. -/
lemma plain_items_step (hv : (value fuel depth).Plain) (hi : ∀ read, (items fuel depth read).Plain)
    (read : List Json) : (items (fuel + 1) depth read).Plain := by
  unfold items
  refine plain_item.bind fun more => ?_
  split_ifs
  · exact hv.bind fun _ => hi _
  · exact plain_pure

/-- Members are plain with more fuel if values and members are plain with less. -/
lemma plain_members_step (hv : (value fuel depth).Plain)
    (hm : ∀ read, (members fuel depth read).Plain) (read : List (String × Json)) :
    (members (fuel + 1) depth read).Plain := by
  unfold members
  refine plain_key.bind fun more => ?_
  split_ifs
  · exact (plain_string fuel).bind fun key => plain_colon.bind fun _ => hv.bind fun _ => hm _
  · exact plain_pure

/-- Values are plain with more fuel if items and members are plain with less. -/
lemma plain_value_step (hi : ∀ depth read, (items fuel depth read).Plain)
    (hm : ∀ depth read, (members fuel depth read).Plain) : (value (fuel + 1) depth).Plain := by
  unfold value
  refine plain_token.bind fun next => ?_
  split
  · exact plain_refuse (by decide)
  · exact (plain_literal _).bind fun _ => plain_pure
  · exact (plain_literal _).bind fun _ => plain_pure
  · exact (plain_literal _).bind fun _ => plain_pure
  · exact plain_skip.bind fun _ => plain_number.map
  · exact plain_skip.bind fun _ => (plain_string fuel).map
  · split
    · exact plain_refuse (by decide)
    · exact plain_skip.bind fun _ => hi _ _
  · split
    · exact plain_refuse (by decide)
    · exact plain_skip.bind fun _ => hm _ _
  · split_ifs
    · exact plain_number.map
    · exact plain_refuse (by decide)

/-- Whatever the fuel, values, items and members are refused in fixed words. -/
lemma plain_values (fuel : Nat) :
    (∀ depth, (value fuel depth).Plain) ∧ (∀ depth read, (items fuel depth read).Plain) ∧
      ∀ depth read, (members fuel depth read).Plain := by
  induction fuel with
  | zero =>
    refine ⟨fun depth => ?_, fun depth read => ?_, fun depth read => ?_⟩
    · unfold value
      exact plain_refuse (by decide)
    · unfold items
      exact plain_refuse (by decide)
    · unfold members
      exact plain_refuse (by decide)
  | succ fuel ih =>
    obtain ⟨hv, hi, hm⟩ := ih
    exact ⟨fun depth => plain_value_step hi hm, fun depth => plain_items_step (hv depth) (hi depth),
      fun depth => plain_members_step (hv depth) (hm depth)⟩

end Values

/-- Behind the value nothing may follow, and what follows is refused in fixed words. -/
lemma Plain.run (h : scan.Plain) {text : List Char} {fault : LocatedFault}
    (failed : scan.run text = .error fault) : fault.cause.Plain := by
  unfold Scan.run at failed
  simp only at failed
  split at failed
  · cases failed
  · rename_i other refused
    cases failed
    refine Plain.bind h (fun value => plain_token.bind fun next => ?_) text other refused
    cases next with
    | none => exact plain_pure
    | some c => exact plain_refuse (by decide)

end Scan

/-- A text that is not JSON is refused for a cause in fixed words. -/
lemma plain_parse {text : String} {fault : LocatedFault} (failed : parse text = .error fault) :
    Unbroken fault.message := by
  have cause : Unbroken fault.cause.message := ((Scan.plain_values _).1 _).run failed
  simp +decide only [LocatedFault.message, toString, unbroken_append, unbroken_repr, cause]

end DialogueLint.Json
