import DialogueLint.Proofs.Integrity.Regular

/-!
# Passes on a shared buffer

The passes of a validation push what they find into one buffer, behind the findings of the passes
before. A pass is a program on this buffer (`Pass.program`): the nodes of an array are read one
after the other, so are the members of a properties object, the demands of a part are checked in
their order, and an expression is inferred before what is expected of it is looked at.

An outcome lists what is found on the way, and running it pushes the list (`Outcome.run`). Outcomes
that are combined run one after the other (`run_zipWith`, `run_all`, `run_slots`), so that every
program is the run of a single outcome (`Pass.program_eq`). From there on it is enough to look at
outcomes. Running one leaves the entries before it as they are (`run_apply`), and the place only
moves it (`Pass.outcome_moves`), which each reader, each demand and typing were shown to satisfy by
induction along the recursion of each.

Whatever the buffer holds, a pass gives the result that it gives at the root, and adds what it finds
there, moved to the place where it runs (`pass_relocates`).
-/

namespace DialogueLint

/-! ## The buffer -/

/-- What the passes of a validation have found so far. -/
structure Buffer where
  entries : List Diagnostic
  deriving Repr, DecidableEq

/-- The buffer of a validation that has found nothing so far. -/
def Buffer.empty : Buffer := ⟨[]⟩

/-- The buffer with one more entry. -/
def Buffer.push (d : Diagnostic) (buffer : Buffer) : Buffer := ⟨buffer.entries ++ [d]⟩

/-- Pushes diagnostics, one after the other. -/
def reportAll (found : List Diagnostic) : StateM Buffer Unit :=
  forM found fun d => modify (Buffer.push d)

/-- To push what was found in two steps is to push it step by step. -/
lemma reportAll_append (found more : List Diagnostic) :
    reportAll (found ++ more) = (do reportAll found; reportAll more) :=
  List.forM_append

/-- What was found in the parts of something is pushed part by part. -/
lemma reportAll_flatMap {ι : Type} (parts : List ι) (each : ι → List Diagnostic) :
    reportAll (parts.flatMap each) = forM parts fun i => reportAll (each i) := by
  induction parts with
  | nil => rfl
  | cons i parts ih => rw [List.flatMap_cons, reportAll_append, ih, List.forM_cons]

/-- However many diagnostics are pushed, the entries before them stay as they are. -/
lemma reportAll_apply (found : List Diagnostic) (buffer : Buffer) :
    reportAll found buffer = ((), ⟨buffer.entries ++ found⟩) := by
  induction found generalizing buffer with
  | nil =>
    rw [List.append_nil]
    rfl
  | cons d found ih =>
    calc reportAll (d :: found) buffer
      _ = reportAll found (buffer.push d) := rfl
      _ = ((), ⟨buffer.entries ++ d :: found⟩) := by simp [ih, Buffer.push]

/-! ## Outcomes on the buffer -/

namespace Outcome

variable {α β γ : Type}

/-- Pushes what was found on the way to the result. -/
def run (o : Outcome α) : StateM Buffer (Option α) := do
  reportAll o.diagnostics
  return o.result?

/-- Running an outcome gives its result and leaves the entries before as they are. -/
lemma run_apply (o : Outcome α) (buffer : Buffer) :
    o.run buffer = (o.result?, ⟨buffer.entries ++ o.diagnostics⟩) := by
  calc o.run buffer
    _ = (o.result?, (reportAll o.diagnostics buffer).2) := rfl
    _ = (o.result?, ⟨buffer.entries ++ o.diagnostics⟩) := by rw [reportAll_apply]

/-- Outcomes that are combined run one after the other, also if the first one has no result. -/
lemma run_zipWith (f : α → β → γ) (o : Outcome α) (p : Outcome β) :
    (zipWith f o p).run = do
      let a ← o.run
      let b ← p.run
      return f <$> a <*> b := by
  unfold zipWith run
  cases o.result? <;> cases p.result? <;> simp [reportAll_append] <;> rfl

/-- All of several results are there if the first one and all others are. -/
lemma allSome_cons (a : Option α) (rest : List (Option α)) :
    (a :: rest).allSome = List.cons <$> a <*> rest.allSome := by
  have one : ∀ (a : Option α) (b : Option (List α)),
      (do let x ← a; let xs ← b; return x :: xs) = List.cons <$> a <*> b := by
    intro a b
    cases a <;> cases b <;> rfl
  exact List.mapM_cons.trans (one a rest.allSome)

/-- Outcomes run to the last, also behind one without a result. -/
lemma run_all (outcomes : List (Outcome α)) :
    (all outcomes).run = do
      let results ← outcomes.mapM run
      return results.allSome := by
  induction outcomes with
  | nil => rfl
  | cons o rest ih =>
    rw [all, run_zipWith, ih]
    simp only [bind_assoc, pure_bind, List.mapM_cons, allSome_cons]

/-- Outcomes run to the last, with a slot for the result of each. -/
lemma run_slots (outcomes : List (Outcome α)) :
    (⟨some (outcomes.map result?), outcomes.flatMap diagnostics⟩ : Outcome (List (Option α))).run =
      some <$> outcomes.mapM run := by
  induction outcomes with
  | nil => rfl
  | cons o rest ih =>
    have first : (⟨some o.result?, o.diagnostics⟩ : Outcome (Option α)).run = some <$> o.run := by
      simp [run]
    -- a slot is a result of its own, so slots are combined as results are
    have split : (⟨some ((o :: rest).map result?), (o :: rest).flatMap diagnostics⟩ :
        Outcome (List (Option α))) =
        zipWith List.cons ⟨some o.result?, o.diagnostics⟩
          ⟨some (rest.map result?), rest.flatMap diagnostics⟩ := rfl
    rw [split, run_zipWith, first, ih]
    simp only [bind_pure_comp, Functor.map_map, bind_map_left, map_bind, List.mapM_cons]
    rfl

end Outcome

/-! ## Parts of a pass -/

open Outcome

/-- Reads the nodes of an array, one after the other. -/
def Node.readEach (path : Pointer) : Json → StateM Buffer (Option (List (Option Node)))
  | .array (value :: values) => do
    let slots ← (value :: values).zipIdx.mapM fun (value, index) =>
      (read (path.item index) value).run
    return some slots
  | value => (readAll path value).run

/-- Reading an array of nodes one by one is running the outcome of the whole array. -/
lemma Node.readEach_eq (path : Pointer) (value : Json) :
    readEach path value = (readAll path value).run := by
  unfold readEach
  split
  · simp only [readAll, Reader.itemsFrom_eq_map, run_slots, List.mapM_map]
    rfl
  · rfl

/-- Reads the members of a properties object, one after the other. -/
def Properties.readEach (path : Pointer) : Json → StateM Buffer (Option Properties)
  | .object members => do
    let results ← members.mapM fun (key, value) => do
      let result ← (PropertyValue.read (path.push key) value).run
      return result.map (key, ·)
    return results.allSome
  | value => (read path value).run

/-- Reading properties one by one is running the outcome of the whole object. -/
lemma Properties.readEach_eq (path : Pointer) (value : Json) :
    readEach path value = (read path value).run := by
  cases value with
  | object members =>
    simp only [readEach, read, Reader.mapOf, run_all, List.mapM_map]
    rfl
  | _ => rfl

/-- Checks the demands of a part, one after the other. -/
def Demands.checkEach (limit : Nat) (path : Pointer) (demands : Demands) : StateM Buffer Unit :=
  forM demands fun (place, demand) => reportAll (demand.check limit (path.join place))

/-- Checking demands one by one pushes what checking them all finds. -/
lemma Demands.checkEach_eq (limit : Nat) (path : Pointer) (demands : Demands) :
    demands.checkEach limit path = reportAll (demands.check limit path) :=
  (reportAll_flatMap demands _).symm

/-- Checks the nodes that could be read, one after the other. -/
def Node.checkEach (limit : Nat) (path : Pointer) (nodes : List (Option Node)) :
    StateM Buffer Unit :=
  forM nodes.zipIdx fun (node, index) =>
    match node with
    | some node => (node.demands index nodes.length).checkEach limit (path.item index)
    | none => return

/-- Checking nodes one by one pushes what checking the demands of all of them finds. -/
lemma Node.checkEach_eq (limit : Nat) (path : Pointer) (nodes : List (Option Node)) :
    checkEach limit path nodes = reportAll ((allDemands nodes).check limit path) := by
  have split : (allDemands nodes).check limit path = nodes.zipIdx.flatMap fun item =>
      (Demands.ifPresent item.1 fun node =>
        (node.demands item.2 nodes.length).under [toString item.2]).check limit path :=
    List.flatMap_assoc
  rw [split, reportAll_flatMap, checkEach]
  refine congrArg (forM nodes.zipIdx) (funext fun item => ?_)
  obtain ⟨node, index⟩ := item
  cases node with
  | none => rfl
  | some node =>
    exact (Demands.checkEach_eq limit (path.item index) _).trans
      (congrArg reportAll Demands.check_under.symm)

/-- Checks an expression: infers its families, and then looks at what is expected of them. -/
def Typing.checkEach (limit : Nat) (expect : Expectation) (path : Pointer) (e : Json) :
    StateM Buffer (Option Family) := do
  match ← (infer limit path e).run, expect with
  | none, _ => return none
  | some families, .logic => return families.primary
  | some families, .family family =>
    if families.contains family then return some family
    else
      reportAll [⟨path, .familyMismatch family (families.primary.getD .any)⟩]
      return none

/-- Checking an expression step by step is running the outcome of the whole check. -/
lemma Typing.checkEach_eq (limit : Nat) (expect : Expectation) (path : Pointer) (e : Json) :
    checkEach limit expect path e = (check limit expect path e).run := by
  unfold checkEach
  cases result : (infer limit path e).result? with
  | none => simp [check, run, result]
  | some families =>
    cases expect with
    | logic => simp [check, run, result]
    | family family =>
      by_cases within : families.contains family <;>
        simp [check, run, result, within, reportAll_append]

/-! ## Passes -/

/-- A pass over a part of a dialogue, with the type of what it gives. -/
inductive Pass : Type → Type where
  | readTrigger (v : Json) : Pass Trigger
  | readNode (v : Json) : Pass Node
  | readNodes (v : Json) : Pass (List (Option Node))
  | readProperties (v : Json) : Pass Properties
  | checkTrigger (trigger : Trigger) : Pass Unit
  | checkNode (index len : Nat) (node : Node) : Pass Unit
  | checkNodes (nodes : List (Option Node)) : Pass Unit
  | checkProperties (properties : Properties) : Pass Unit
  | infer (e : Json) : Pass FamilySet
  | check (expect : Expectation) (e : Json) : Pass Family

namespace Pass

variable {α : Type} {limit : Nat}

/-- A pass as a program on the buffer, if expressions may have so many levels. -/
def program (limit : Nat) : Pass α → Pointer → StateM Buffer (Option α)
  | readTrigger v, path => (Trigger.read path v).run
  | readNode v, path => (Node.read path v).run
  | readNodes v, path => Node.readEach path v
  | readProperties v, path => Properties.readEach path v
  | checkTrigger trigger, path => some <$> trigger.demands.checkEach limit path
  | checkNode index len node, path => some <$> (node.demands index len).checkEach limit path
  | checkNodes nodes, path => some <$> Node.checkEach limit path nodes
  | checkProperties properties, path => some <$> properties.demands.checkEach limit path
  | infer e, path => (Typing.infer limit path e).run
  | check expect e, path => Typing.checkEach limit expect path e

/-- Runs a pass at a place, on a buffer that earlier passes may have filled. -/
def run (limit : Nat) (pass : Pass α) (path : Pointer) (buffer : Buffer) : Option α × Buffer :=
  pass.program limit path buffer

/-- A pass that checks demands has nothing but its findings to give. -/
def checking (limit : Nat) (demands : Demands) (path : Pointer) : Outcome Unit :=
  ⟨some (), demands.check limit path⟩

/-- The outcome of a pass at a place, if expressions may have so many levels. -/
def outcome (limit : Nat) : Pass α → Pointer → Outcome α
  | readTrigger v, path => Trigger.read path v
  | readNode v, path => Node.read path v
  | readNodes v, path => Node.readAll path v
  | readProperties v, path => Properties.read path v
  | checkTrigger trigger, path => checking limit trigger.demands path
  | checkNode index len node, path => checking limit (node.demands index len) path
  | checkNodes nodes, path => checking limit (Node.allDemands nodes) path
  | checkProperties properties, path => checking limit properties.demands path
  | infer e, path => Typing.infer limit path e
  | check expect e, path => Typing.check limit expect path e

/-- To run the check of demands is to push what it finds. -/
lemma run_checking (limit : Nat) (demands : Demands) (path : Pointer) :
    (checking limit demands path).run = some <$> reportAll (demands.check limit path) :=
  rfl

/-- The program of a pass does nothing but to run its outcome. -/
lemma program_eq (pass : Pass α) (path : Pointer) :
    pass.program limit path = (pass.outcome limit path).run := by
  cases pass with
  | readTrigger v => rfl
  | readNode v => rfl
  | readNodes v => exact Node.readEach_eq path v
  | readProperties v => exact Properties.readEach_eq path v
  | checkTrigger trigger =>
    rw [program, Demands.checkEach_eq, outcome, run_checking]
  | checkNode index len node =>
    rw [program, Demands.checkEach_eq, outcome, run_checking]
  | checkNodes nodes =>
    rw [program, Node.checkEach_eq, outcome, run_checking]
  | checkProperties properties =>
    rw [program, Demands.checkEach_eq, outcome, run_checking]
  | infer e => rfl
  | check expect e => exact Typing.checkEach_eq limit expect path e

/-- The place only moves what checking demands finds. -/
lemma checking_moves (demands : Demands) (path : Pointer) :
    checking limit demands path = (checking limit demands .root).below path := by
  simp only [checking, Outcome.below, Outcome.mk.injEq, true_and]
  exact (Demands.regular_moves demands).moves path

/-- The place only moves the outcome of a pass. -/
lemma outcome_moves (pass : Pass α) (path : Pointer) :
    pass.outcome limit path = (pass.outcome limit .root).below path := by
  cases pass with
  | readTrigger v => exact (Trigger.read_regular v).moves path
  | readNode v => exact (Node.read_regular v).moves path
  | readNodes v => exact (Node.readAll_regular v).moves path
  | readProperties v => exact (Properties.read_regular v).moves path
  | checkTrigger trigger => exact checking_moves _ path
  | checkNode index len node => exact checking_moves _ path
  | checkNodes nodes => exact checking_moves _ path
  | checkProperties properties => exact checking_moves _ path
  | infer e => exact (Typing.inferWithin_regular limit (limit + 1) e).moves path
  | check expect e => exact Typing.check_regular.moves path

/-- Wherever and behind whatever a pass runs, it gives its result at the root, keeps the entries of
the buffer and adds its findings at the root, moved to its place. -/
theorem pass_relocates (limit : Nat) {α : Type} (pass : Pass α) (path : Pointer)
    (buffer : Buffer) :
    pass.run limit path buffer =
      ((pass.run limit .root .empty).1,
        ⟨buffer.entries ++
          (pass.run limit .root .empty).2.entries.map (Diagnostic.below path)⟩) := by
  simp only [run, program_eq, run_apply, Buffer.empty, List.nil_append]
  rw [outcome_moves pass path]
  rfl

example (d : Diagnostic) :
    (checkTrigger (.customEvent "greeting" (some "Bot/name"))).run 0 ⟨["trigger"]⟩ ⟨[d]⟩ =
      (some (), ⟨[d, ⟨⟨["trigger", "output"]⟩, .reservedNamespace "Bot/name" .bot⟩]⟩) := by
  rfl

end Pass

end DialogueLint
