import DialogueLint.Proofs.Json.Entry
import DialogueLint.Proofs.Json.Put
import DialogueLint.Proofs.Reading.Closure

/-!
# Stray keys of objects

A key that an object should not have is reported as an unknown field, and changes nothing else about
how the object is read: every step of its plan finds what it found before, so the object gives the
same, and all that was reported of it is reported still.

That a report has one diagnostic more is said by splitting the old report at the place where the new
one is put in (`Inserts`). The relation passes through everything by which outcomes are put
together, on either side, because the rest stays the same. For the object in question the new
diagnostic comes from the list of undeclared keys, at the place that the order of keys gives it; for
the objects around it, it comes from the field whose value has changed.
-/

namespace DialogueLint

/-! ## One diagnostic more -/

/-- A list of diagnostics is another one with a single diagnostic put in. -/
def Inserts (d : Diagnostic) (old new : List Diagnostic) : Prop :=
  ∃ before behind, old = before ++ behind ∧ new = before ++ d :: behind

section Inserts

variable {d : Diagnostic} {old new : List Diagnostic}

/-- A diagnostic is put into a list also if others stand in front. -/
lemma Inserts.append_left (h : Inserts d old new) (more : List Diagnostic) :
    Inserts d (more ++ old) (more ++ new) := by
  obtain ⟨before, behind, rfl, rfl⟩ := h
  exact ⟨more ++ before, behind, by simp, by simp⟩

/-- A diagnostic is put into a list also if others stand behind. -/
lemma Inserts.append_right (h : Inserts d old new) (more : List Diagnostic) :
    Inserts d (old ++ more) (new ++ more) := by
  obtain ⟨before, behind, rfl, rfl⟩ := h
  exact ⟨before, behind ++ more, by simp, by simp⟩

/-- The diagnostic that is put in is there. -/
lemma Inserts.mem (h : Inserts d old new) : d ∈ new := by
  obtain ⟨before, behind, -, rfl⟩ := h
  simp

/-- Taking a new diagnostic out again leaves the old ones. -/
lemma Inserts.erase (h : Inserts d old new) (fresh : d ∉ old) : new.erase d = old := by
  obtain ⟨before, behind, rfl, rfl⟩ := h
  have first : d ∉ before := fun mem => fresh (List.mem_append_left _ mem)
  rw [List.erase_append_right _ first, List.erase_cons_head]

end Inserts

/-- An outcome gives what another one gives, and reports a single diagnostic more. -/
structure Outcome.Adds {α : Type} (d : Diagnostic) (old new : Outcome α) : Prop where
  result : new.result? = old.result?
  inserts : Inserts d old.diagnostics new.diagnostics

section Adds

variable {α β γ : Type} {d : Diagnostic} {old new : Outcome α}

/-- What is made of a result reports one diagnostic more if the outcome does. -/
lemma Outcome.Adds.map (h : old.Adds d new) (f : α → β) : (old.map f).Adds d (new.map f) where
  result := congrArg (Option.map f) h.result
  inserts := h.inserts

/-- Two outcomes together report one diagnostic more if the first one does. -/
lemma Outcome.Adds.zipWith_left (h : old.Adds d new) (p : Outcome β) (f : α → β → γ) :
    (Outcome.zipWith f old p).Adds d (.zipWith f new p) where
  result := by simp only [Outcome.zipWith, h.result]
  inserts := h.inserts.append_right _

/-- Two outcomes together report one diagnostic more if the second one does. -/
lemma Outcome.Adds.zipWith_right (h : old.Adds d new) (o : Outcome β) (f : β → α → γ) :
    (Outcome.zipWith f o old).Adds d (.zipWith f o new) where
  result := by simp only [Outcome.zipWith, h.result]
  inserts := h.inserts.append_left _

end Adds

/-! ## Members that differ at one key -/

/-- Members find the same for all keys but one. -/
def Members.AgreeBut (key : String) (members others : Members Json) : Prop :=
  ∀ name, name ≠ key → others.get? name = members.get? name

/-- Putting a value at a key changes what this key finds and nothing else. -/
lemma Members.agreeBut_insert {members : Members Json} {key : String} {x : Json} :
    AgreeBut key members (members.insert key x) := by
  intro name other
  rw [get?_insert, if_neg other]

/-- Changing the value at a key changes what this key finds and nothing else. -/
lemma Members.agreeBut_change {members : Members Json} {key : String} {f : Json → Json} :
    AgreeBut key members (members.change key f) := by
  intro name other
  rw [get?_change, if_neg other]

namespace Fields

variable {α β : Type} {plan : Fields α} {d : Diagnostic} {path : Pointer}
  {members others : Members Json} {names : List String} {name key : String}

/-- A plan that does not look for a key reads the same from members that differ there. -/
lemma DependsOn.read_agree (h : plan.DependsOn names) (agree : members.AgreeBut key others)
    (away : key ∉ names) : plan.read path others = plan.read path members := by
  apply h
  intro name mem
  apply agree
  rintro rfl
  exact away mem

/-- A plan gives the same from other members, and reports a single diagnostic more. -/
def Adds (plan : Fields α) (d : Diagnostic) (path : Pointer) (members others : Members Json) :
    Prop :=
  (plan.read path members).Adds d (plan.read path others)

/-- A required field reports one diagnostic more if its reader does. -/
lemma required_adds {reader : Reader α} {v w : Json} (found : members.get? name = some v)
    (changed : others.get? name = some w)
    (h : (reader (path.push name) v).Adds d (reader (path.push name) w)) :
    (required name reader).Adds d path members others := by
  simp only [Adds, required, found, changed]
  exact h

/-- What is made of the result of a plan reports one diagnostic more if the plan does. -/
lemma Adds.map (h : plan.Adds d path members others) {f : α → β} :
    (f <$> plan).Adds d path members others :=
  Outcome.Adds.map h f

/-- Plans one behind the other report one diagnostic more if the first one does. -/
lemma Adds.seq_left {first : Fields (α → β)} (hf : first.Adds d path members others)
    (same : plan.read path others = plan.read path members) :
    (first <*> plan).Adds d path members others := by
  have whole : ∀ ms, (first <*> plan).read path ms =
      .zipWith (fun f a => f a) (first.read path ms) (plan.read path ms) := fun _ => rfl
  rw [Adds, whole, whole, same]
  exact hf.zipWith_left _ _

/-- Plans one behind the other report one diagnostic more if the second one does. -/
lemma Adds.seq_right {first : Fields (α → β)}
    (same : first.read path others = first.read path members)
    (h : plan.Adds d path members others) : (first <*> plan).Adds d path members others := by
  have whole : ∀ ms, (first <*> plan).read path ms =
      .zipWith (fun f a => f a) (first.read path ms) (plan.read path ms) := fun _ => rfl
  rw [Adds, whole, whole, same]
  exact h.zipWith_right _ _

/-- An attempt reports one diagnostic more if its plan does. -/
lemma Adds.attempt (h : plan.Adds d path members others) :
    plan.attempt.Adds d path members others where
  result := congrArg some h.result
  inserts := h.inserts

end Fields

/-! ## Objects -/

/-- What is reported of a stray member of the object at a place. -/
def Diagnostic.ofStray (path : Pointer) (key : String) (x : Json) : Diagnostic :=
  ⟨path.push key, .unknownField key x.describe⟩

section Stray

variable {α : Type} {path : Pointer} {members : Members Json} {key : String} {x : Json}
  {declared more : List String} {rules : List FieldRule}

/-- A new undeclared key is reported once, in its place among the others. -/
lemma Fields.undeclared_insert (absent : members.get? key = none) (fresh : key ∉ declared) :
    Inserts (.ofStray path key x) (undeclared declared path members)
      (undeclared declared path (members.insert key x)) := by
  obtain ⟨before, behind, rfl, inserted⟩ := Members.insert_of_absent absent x
  have kept : (!declared.contains key) = true := by simpa using fresh
  rw [inserted]
  refine ⟨undeclared declared path before, undeclared declared path behind, ?_, ?_⟩
  · simp only [undeclared, List.filter_append, List.map_append]
  · simp only [undeclared, List.filter_append, List.filter_cons, kept, if_true, List.map_append,
      List.map_cons]
    rfl

/-- A member that is declared may change. -/
lemma Fields.undeclared_change {f : Json → Json} (known : key ∈ declared) :
    undeclared declared path (members.change key f) = undeclared declared path members := by
  have kept : (members.change key f).filter (fun m => !declared.contains m.1) =
      members.filter fun m => !declared.contains m.1 := by
    have dropped : (!declared.contains key) = false := by simpa using known
    induction members with
    | nil => rfl
    | cons m members ih =>
      obtain ⟨other, v⟩ := m
      simp only [Members.change]
      split_ifs with same
      · subst same
        simp only [List.filter_cons, dropped, Bool.false_eq_true, if_false]
      · rw [List.filter_cons, List.filter_cons, ih]
  exact congrArg (List.map _) kept

/-- A plan looks for the keys for which it has a rule. -/
lemma Fields.Follows.depends {plan : Fields α} (h : plan.Follows rules) :
    plan.DependsOn (rules.map FieldRule.name) := by
  obtain ⟨steps, takes, fields⟩ := h.steps
  have keys : steps.flatMap Step.keys = steps.flatMap Step.declared :=
    List.flatMap_congr fun step mem => (fields step mem).keys_eq
  rw [← h.declared, takes.declared, ← keys]
  exact takes.depends

/-- A closed object is read the same with a key that is not declared. -/
lemma Fields.DependsOn.close_insert {plan : Fields α} (h : plan.DependsOn plan.declared)
    (absent : members.get? key = none) (fresh : key ∉ more ++ plan.declared) :
    (plan.close more path members).Adds (.ofStray path key x)
      (plan.close more path (members.insert key x)) := by
  have unread : key ∉ plan.declared := fun mem => fresh (List.mem_append_right _ mem)
  rw [Fields.close, Fields.close, h.read_agree Members.agreeBut_insert unread]
  exact ⟨rfl, (undeclared_insert absent fresh).append_left _⟩

/-- A closed object is read the same if the value of a field is. -/
lemma Fields.Adds.close_change {plan : Fields α} {d : Diagnostic} {f : Json → Json}
    (h : plan.Adds d path members (members.change key f)) (known : key ∈ more ++ plan.declared) :
    (plan.close more path members).Adds d (plan.close more path (members.change key f)) := by
  rw [Fields.close, Fields.close, undeclared_change known]
  exact ⟨h.result, h.inserts.append_right _⟩

/-- An object of a known type is read the same with a key that is not declared for the type. -/
lemma Variants.Follows.read_insert {variants : Variants α}
    {table : List (String × List FieldRule)} (h : variants.Follows table) {type : String}
    (htype : members.get? "type" = some (.string type)) (known : table.lookup type = some rules)
    (absent : members.get? key = none) (fresh : key ∉ "type" :: rules.map FieldRule.name) :
    (variants.read path (.object members)).Adds (.ofStray path key x)
      (variants.read path (.object (members.insert key x))) := by
  have other : "type" ≠ key := by
    rintro rfl
    exact fresh List.mem_cons_self
  have still : (members.insert key x).get? "type" = some (.string type) := by
    rw [Members.get?_insert, if_neg other, htype]
  simp only [Variants.read, htype, still, Variants.readFields]
  rcases h.lookup type with ⟨-, unknown⟩ | ⟨plan, others, found, same, follows⟩
  · rw [known] at unknown
    cases unknown
  · rw [known] at same
    cases same
    have depends := follows.depends
    rw [← follows.declared] at depends fresh
    simp only [found]
    exact depends.close_insert absent fresh

end Stray

end DialogueLint
