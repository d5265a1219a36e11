import DialogueLint.Proofs.Typing.Surroundings
import DialogueLint.Proofs.Typing.Weave

/-!
# How deep expressions are typed

Typing goes down as many levels as the limit says and reports each expression that it would reach
one level further down. It reports such an expression once, finds nothing else in it, and reports
nothing else as too deep (`depth_exact`). Where nothing is too deep, a greater limit changes
nothing, and where something is, it is for every smaller limit too.

The limit is reached by going down: `inferWithin` counts the levels that are left, and a level
reports as too deep just what its operands do (`tooDeep_level`). So the induction on the levels
carries the positions one step down with each level, and ends with the one diagnostic of an
expression that is reached with no level left.
-/

namespace DialogueLint.Typing

/-- What is found in an expression by itself, or at a place that demands something of it. -/
def findings (limit : Nat) (expect? : Option Expectation) (path : Pointer) (e : Json) :
    List Diagnostic :=
  match expect? with
  | none => (infer limit path e).diagnostics
  | some expect => (check limit expect path e).diagnostics

section Levels

variable {limit levels : Nat} {path place : Pointer} {e operand : Json}

/-- What typing cannot reach any more is what it reports as too deep, in order. -/
lemma tooDeep_inferWithin :
    tooDeep (inferWithin limit levels path e).diagnostics =
      (positionsAt levels e).map fun p => ⟨path.join p.1, .depthExceeded limit⟩ := by
  induction levels generalizing path e with
  | zero => simp [inferWithin, Outcome.fail, tooDeep, positionsAt, Diagnostic.kind, Problem.kind]
  | succ levels ih =>
    rw [inferWithin, tooDeep_level, positionsAt, List.map_flatMap]
    refine List.flatMap_congr fun p _ => ?_
    rw [ih, List.map_map]
    exact List.map_congr_left fun q _ => by rw [Pointer.join_assoc]; rfl

/-- Where all can be reached, more levels and another limit change nothing. -/
lemma inferWithin_stable (more : Nat) {other : Nat} (reached : positionsAt levels e = []) :
    inferWithin other (levels + more) path e = inferWithin limit levels path e := by
  induction levels generalizing path e with
  | zero => cases reached
  | succ levels ih =>
    rw [Nat.add_right_comm]
    exact level_congr fun p hp => ih (positionsAt_succ_eq_nil.mp reached p hp)

/-- Of what cannot be reached any more nothing is found but that. -/
lemma inferWithin_ceiling (h : (place, operand) ∈ positionsAt levels e) :
    ∀ d ∈ (inferWithin limit levels path e).diagnostics,
      (path.join place).tokens <+: d.path.tokens → d = ⟨path.join place, .depthExceeded limit⟩ := by
  intro d mem inside
  cases levels with
  | zero =>
    cases List.mem_singleton.mp h
    cases List.mem_singleton.mp mem
    rw [Pointer.join_root]
  | succ n =>
    obtain ⟨surroundings, fill⟩ := @inferWithin_surroundings limit 0 n path _ _ _ h
    have whole := fill operand (positionsAt_admitted h)
    rw [Json.put_self (positionsAt_resolve h), Nat.zero_add] at whole
    rw [whole] at mem
    rcases List.mem_append.mp mem with mem | behind
    · rcases List.mem_append.mp mem with before | here
      · exact absurd inside (surroundings.before_outside d before)
      · exact List.mem_singleton.mp here
    · exact absurd rfl (surroundings.behind_outside none d behind inside).2

end Levels

section Findings

variable {limit : Nat} {expect? : Option Expectation} {path place : Pointer} {e operand : Json}

/-- A check adds a remark on the whole expression at most. -/
lemma findings_eq :
    ∃ remark, findings limit expect? path e = (infer limit path e).diagnostics ++ remark ∧
      Shallow remark ∧ ∀ d ∈ remark, d.path = path := by
  have nothing : ∃ remark : List Diagnostic,
      (infer limit path e).diagnostics = (infer limit path e).diagnostics ++ remark ∧
        Shallow remark ∧ ∀ d ∈ remark, d.path = path :=
    ⟨[], (List.append_nil _).symm, shallow_nil, List.forall_mem_nil _⟩
  cases expect? with
  | none => exact nothing
  | some expect =>
    simp only [findings, check]
    split
    · exact nothing
    · split
      · exact nothing
      · split_ifs
        · exact nothing
        · exact ⟨_, rfl, shallow_problem rfl, List.forall_mem_singleton.mpr rfl⟩

/-- What is reported as too deep are the positions one level below the limit, once each and in
order. -/
lemma tooDeep_findings : tooDeep (findings limit expect? path e) =
    (positionsAt (limit + 1) e).map fun p => ⟨path.join p.1, .depthExceeded limit⟩ := by
  obtain ⟨remark, same, shallow, -⟩ := @findings_eq limit expect? path e
  rw [same, tooDeep_append, shallow.tooDeep_eq_nil, List.append_nil]
  exact tooDeep_inferWithin

/-- At and below a position that is too deep, nothing else is found. -/
lemma findings_ceiling (h : (place, operand) ∈ positionsAt (limit + 1) e) :
    ∀ d ∈ findings limit expect? path e, (path.join place).tokens <+: d.path.tokens →
      d = ⟨path.join place, .depthExceeded limit⟩ := by
  intro d mem inside
  obtain ⟨remark, same, -, here⟩ := @findings_eq limit expect? path e
  rw [same] at mem
  rcases List.mem_append.mp mem with mem | mem
  · exact inferWithin_ceiling h d mem inside
  · rw [here d mem] at inside
    exact absurd inside (positionsAt_deeper h path)

/-- Nothing is too deep exactly if no position lies one level below the limit. -/
lemma tooDeep_findings_eq_nil :
    tooDeep (findings limit expect? path e) = [] ↔ positionsAt (limit + 1) e = [] := by
  rw [tooDeep_findings, List.map_eq_nil_iff]

/-- Where nothing is too deep, a greater limit finds the same. -/
lemma infer_stable {more : Nat} (reached : positionsAt (limit + 1) e = []) (le : limit ≤ more) :
    infer more path e = infer limit path e := by
  obtain ⟨n, rfl⟩ := Nat.exists_eq_add_of_le le
  have levels : limit + n + 1 = limit + 1 + n := Nat.add_right_comm limit n 1
  rw [infer, levels]
  exact inferWithin_stable n reached

/-- Positions lie at different places. -/
lemma positionsAt_nodup : ((positionsAt (limit + 1) e).map Prod.fst).Nodup := by
  have clear := @check_regular limit .logic e
  have distinct : Distinct (tooDeep (findings limit (some .logic) .root e)) :=
    (clear.found.distinct trivial).filter _
  rw [tooDeep_findings, Distinct, List.pairwise_map] at distinct
  refine List.pairwise_map.mpr (distinct.imp fun apart same => ?_)
  rw [same] at apart
  obtain ⟨field, other, missing, -⟩ := apart rfl rfl
  cases missing

end Findings

/-- The limit on the depth is exact. For every expression, place and limit, whether the expression
is typed by itself or checked against an expectation: each position that lies one level below the
limit is reported once as too deep, and nothing else is; nothing else is found at or inside such a
position; if nothing is reported as too deep, a greater limit changes neither the result nor what is
found; and if something is, something is with every smaller limit. -/
theorem depth_exact (limit : Nat) (path : Pointer) (e : Json) (expect? : Option Expectation) :
    ((positionsAt (limit + 1) e).map Prod.fst).Nodup ∧
    tooDeep (findings limit expect? path e) =
      ((positionsAt (limit + 1) e).map fun p => ⟨path.join p.1, .depthExceeded limit⟩) ∧
    (∀ p ∈ positionsAt (limit + 1) e, ∀ d ∈ findings limit expect? path e,
      (path.join p.1).tokens <+: d.path.tokens → d = ⟨path.join p.1, .depthExceeded limit⟩) ∧
    (tooDeep (findings limit expect? path e) = [] → ∀ more, limit ≤ more →
      infer more path e = infer limit path e ∧
        ∀ expect, check more expect path e = check limit expect path e) ∧
    (tooDeep (findings limit expect? path e) ≠ [] → ∀ less, less < limit →
      tooDeep (findings less expect? path e) ≠ []) := by
  refine ⟨positionsAt_nodup, tooDeep_findings, fun p hp => findings_ceiling hp, ?greater, ?smaller⟩
  case greater =>
    intro nothing more le
    have same : infer more path e = infer limit path e :=
      infer_stable (tooDeep_findings_eq_nil.mp nothing) le
    exact ⟨same, fun expect => by rw [check, same, check]⟩
  case smaller =>
    intro something less lt nothing
    apply something
    have above := positionsAt_eq_nil_add (limit - less) (tooDeep_findings_eq_nil.mp nothing)
    have levels : less + 1 + (limit - less) = limit + 1 := by omega
    rw [levels] at above
    exact tooDeep_findings_eq_nil.mpr above

example : tooDeep (findings 1 none .root
    (.object [("!", .object [("!", .object [("!", .array [.object [("!", .null)]])])])])) =
      [⟨⟨["!", "!"]⟩, .depthExceeded 1⟩] := by decide

end DialogueLint.Typing
