import DialogueLint.Reading.Reader

/-!
# Fields of closed objects

A plan for reading the fields of an object. The plan declares keys; every field it reads is read
once and in turn, also after a failure. A closed object has no other keys than those declared: any
more are reported last, in the order of the keys, but do not keep the object from being read.
-/

namespace DialogueLint

/-- A plan for reading fields of an object. -/
structure Fields (α : Type) where
  /-- The keys that the plan declares. -/
  declared : List String
  /-- Reads the fields of the object at a place. -/
  read : Pointer → Members Json → Outcome α

namespace Fields

variable {α β : Type}

/-- Plans are carried out one after the other. -/
instance : Applicative Fields where
  pure a := ⟨[], fun _ _ => .ok a⟩
  map f plan := ⟨plan.declared, fun path members => (plan.read path members).map f⟩
  seq plan next :=
    ⟨plan.declared ++ (next ()).declared, fun path members =>
      .zipWith (fun f a => f a) (plan.read path members) ((next ()).read path members)⟩

/-- A field that has to be there. -/
def required (name : String) (reader : Reader α) : Fields α :=
  ⟨[name], fun path members =>
    match Members.get? members name with
    | some value => reader (path.push name) value
    | none => .fail path (.missingRequiredField name)⟩

/-- A field that may be absent. -/
def optional (name : String) (reader : Reader α) : Fields (Option α) :=
  ⟨[name], fun path members =>
    match Members.get? members name with
    | some value => (reader (path.push name) value).map some
    | none => .ok none⟩

/-- Demands that at least one of several keys is there; it declares none of them. -/
def anyOf (union : String) (names : List String) : Fields Unit :=
  ⟨[], fun path members =>
    if names.any fun name => (Members.get? members name).isSome then .ok ()
    else .fail path (.variantNotMatched union
      ("at least one of " ++ ", ".intercalate names ++ " is required"))⟩

/-- Makes a failure part of the result, so that it keeps nothing else from being read. -/
def attempt (plan : Fields α) : Fields (Option α) :=
  ⟨plan.declared, fun path members =>
    let read := plan.read path members
    ⟨some read.result?, read.diagnostics⟩⟩

/-- The members with keys that are not declared. -/
def undeclared (declared : List String) (path : Pointer) (members : Members Json) :
    List Diagnostic :=
  (members.filter fun (key, _) => !declared.contains key).map fun (key, value) =>
    ⟨path.push key, .unknownField key value.describe⟩

/-- Reads the fields of a closed object, for which some more keys are declared. -/
def close (plan : Fields α) (more : List String) (path : Pointer) (members : Members Json) :
    Outcome α :=
  (plan.read path members).adding (undeclared (more ++ plan.declared) path members)

/-- A closed object with the fields of a plan. -/
def object (expected : String) (plan : Fields α) : Reader α
  | path, .object members => plan.close [] path members
  | path, value => Reader.wrongType expected path value

end Fields

/-- A kind of objects whose field `type` tells which other fields they have. -/
structure Variants (α : Type) where
  /-- What the objects are called. -/
  union : String
  /-- The plan for each type, in the order of the types' names. -/
  plans : List (String × Fields α)

namespace Variants

variable {α : Type}

/-- The names of the types. -/
def names (variants : Variants α) : List String :=
  variants.plans.map Prod.fst

/-- Reads the fields that the type of an object calls for. -/
def readFields (variants : Variants α) (type : String) (path : Pointer) (members : Members Json) :
    Outcome α :=
  match variants.plans.lookup type with
  | some plan => plan.close ["type"] path members
  | none =>
    let names := ", ".intercalate variants.names
    .fail (path.push "type")
      (.variantNotMatched variants.union s!"type {Text.quote type} is not one of {names}")

/-- Reads an object whose type is one of the variants. Without a known type, nothing else of it is
looked at. -/
def read (variants : Variants α) : Reader α
  | path, .object members =>
    match Members.get? members "type" with
    | some (.string type) => variants.readFields type path members
    | some other => Reader.wrongType "a type name string" (path.push "type") other
    | none => .fail path (.missingRequiredField "type")
  | path, value => Reader.wrongType s!"a {variants.union} object" path value

end Variants

end DialogueLint
