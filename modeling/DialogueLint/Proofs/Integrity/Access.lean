import DialogueLint.Proofs.Integrity.Reserved
import DialogueLint.Proofs.Reference.Reserved

/-!
# Ways to read a variable

A variable is read as an expression, as the receiver that is counted, or outside expressions, where
a part of a dialogue looks it up. All three ways say the same of its reference (`readings_agree`). A
reference that may not be read is always in a namespace of the system, so that what is wrong with it
can be said; one that may be read is in such a namespace only if it is one of those that are never
written.

The three ways go through different code: an expression is typed level by level, the receiver of a
method that counts is looked at without being typed, and a part of a dialogue makes a demand. They
come together in `Diagnostic.ofRead`, which is what each of them is shown to add. What may be read
is compared with what is reserved on the patterns of references, not on the code that tests for
them.
-/

namespace DialogueLint

/-- A way to read a variable. -/
inductive Access where
  /-- As an expression. -/
  | expression
  /-- As the receiver of a method that counts. -/
  | receiver
  /-- Looked up by a part of a dialogue. -/
  | lookup

namespace Access

variable {limit levels : Nat} {path : Pointer} {r : String}

/-- The JSON form of a variable. -/
def variableOf (r : String) : Json := .object [("var", .string r)]

/-- What is found in a variable that is read at a place. -/
def found (limit levels : Nat) (path : Pointer) (r : String) : Access → List Diagnostic
  | expression => (Typing.inferWithin limit (levels + 1) path (variableOf r)).diagnostics
  | receiver => (Typing.lookupReceiver "getCount" path (variableOf r)).diagnostics
  | lookup => (Lookup.demands ⟨r⟩).check limit path

/-- Each way demands that the reference may be read. -/
lemma found_eq (access : Access) :
    access.found limit levels path r = (Use.read.demand r).check limit (path.push "var") := by
  cases access with
  | expression => rfl
  | receiver => rfl
  | lookup => simp [found, Lookup.demands, Demands.field, Demands.check, Pointer.join, Pointer.push,
      Use.demand]

/-- What is found in a call that counts is found in its receiver. -/
lemma found_count :
    (Typing.inferWithin limit (levels + 1) path
        (.object [("method", .array [variableOf r, .string "getCount"])])).diagnostics =
      receiver.found limit levels ((path.push "method").item 0) r := by
  have named : Method.named "getCount" = [⟨"getCount", .lookup, .numeric, none⟩] := by decide
  have call : Typing.inferWithin limit (levels + 1) path
        (.object [("method", .array [variableOf r, .string "getCount"])]) =
      Typing.namedCall (Typing.inferWithin limit levels) "getCount" (path.push "method")
        [variableOf r, .string "getCount"] := rfl
  rw [call, Typing.namedCall, named]
  simp [Typing.methodOn, Typing.receiver, variableOf, Typing.lookupReceiver, Typing.lookup,
    Typing.overload, Typing.takes, Outcome.ok, found]

end Access

/-- Reading is granted by one rule, whichever way a variable is read. References of the system that
may be read are those of their pattern; texts of the conversation's language are among them, and all
of them are in a namespace of the system, so that they are read but never written. A reference that
may not be read is in such a namespace, too. At any place and on any level, each way to read a
variable finds nothing if its reference may be read, and otherwise exactly one problem, with the
reference and its namespace; the receiver of a call that counts is read in one of these ways. -/
theorem readings_agree (r : String) :
    (Reference.isSystemRead r ↔ Reference.IsSystemReadPattern r.toList) ∧
      (Reference.isLanguage r → Reference.isSystemRead r) ∧
      (Reference.isSystemRead r → Reference.isReadable r ∧ ¬ Reference.isWritable r ∧
        ∃ space, Reference.reserved? r = some space) ∧
      (¬ Reference.isReadable r → ∃ space, Reference.reserved? r = some space) ∧
      ∀ limit levels path,
        (∀ access : Access,
          (Reference.isReadable r → access.found limit levels path r = []) ∧
          (¬ Reference.isReadable r → ∃ space, Reference.reserved? r = some space ∧
            access.found limit levels path r = [⟨path.push "var", .reservedNamespace r space⟩])) ∧
        (Typing.inferWithin limit (levels + 1) path
            (.object [("method", .array [Access.variableOf r, .string "getCount"])])).diagnostics =
          Access.receiver.found limit levels ((path.push "method").item 0) r := by
  have refuses : ¬ Reference.isReadable r → Use.read.Refuses r := id
  refine ⟨Reference.isSystemRead_iff, Reference.isSystemRead_of_isLanguage, fun granted => ?_,
    fun refused => (refuses refused).reserved, fun limit levels path =>
    ⟨fun access => ⟨fun granted => ?_, fun refused => ?_⟩, Access.found_count⟩⟩
  · obtain ⟨space, reserved⟩ := Reference.reserved?_of_isSystemRead granted
    refine ⟨?_, ?_, space, reserved⟩
    · simp [Reference.isReadable, granted]
    · simp [Reference.isWritable, reserved]
  · rw [access.found_eq]
    exact Use.check_of_not_refuses (not_not.mpr granted)
  · obtain ⟨space, reserved⟩ := (refuses refused).reserved
    refine ⟨space, reserved, ?_⟩
    rw [access.found_eq]
    exact (refuses refused).check reserved

/-- Case counts for what may be read, not for what is reserved. -/
example : Access.expression.found 8 0 .root "bot/name" =
    [⟨⟨["var"]⟩, .reservedNamespace "bot/name" .bot⟩] ∧
      Access.lookup.found 8 0 .root "//Bot/name" = [] := by
  decide

end DialogueLint
