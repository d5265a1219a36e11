import DialogueLint.Proofs.Typing.Acceptance
import DialogueLint.Proofs.Typing.Depth

/-!
# Replacing an operand

What typing makes of an expression when something else is put at one of its positions. What is put
there counts by its families only (`inference_compositional`), and more families never do harm where
nothing is found: an accepted expression is still accepted when an operand is replaced by one of
more families, and by a variable in particular (`check_monotone`).

Both results come from what surrounds the position: it is a function of the families there
(`inferAt_surroundings`), and one that finds no more when there are more families. An array cannot
be put for the bare operand of a unary operator, since it would be read as the array of that
operator; `Pointer.Admits` excludes just that.
-/

namespace DialogueLint.Typing

variable {limit depth n : Nat} {expect : Expectation} {path place : Pointer} {c e : Json}

/-! ## Operands of the same families -/

/-- Typing is compositional. If two values are put at a position that typing reaches, neither of
them an array where the operand of `!` or `!!` stands by itself, and typing gives the same result
for both there, then it gives the same result for the whole expressions; and what it finds is the
same before and behind what it finds in the values. -/
theorem inference_compositional {first second : Json} (h : (place, e) ∈ positionsAt (n + 1) c)
    (reached : depth + n ≤ limit) (admits : place.Admits first) (admits' : place.Admits second)
    (same : (inferAt limit (depth + (n + 1)) (path.join place) first).result? =
      (inferAt limit (depth + (n + 1)) (path.join place) second).result?) :
    (inferAt limit depth path (c.put place.tokens first)).result? =
        (inferAt limit depth path (c.put place.tokens second)).result? ∧
      ∃ before behind,
        (inferAt limit depth path (c.put place.tokens first)).diagnostics =
          before ++ (inferAt limit (depth + (n + 1)) (path.join place) first).diagnostics ++
            behind ∧
        (inferAt limit depth path (c.put place.tokens second)).diagnostics =
          before ++ (inferAt limit (depth + (n + 1)) (path.join place) second).diagnostics ++
            behind := by
  obtain ⟨surroundings, fill⟩ := @inferAt_surroundings limit depth n path place c e h reached
  rw [fill first admits, fill second admits']
  refine ⟨congrArg surroundings.result? same, surroundings.before, surroundings.behind _, rfl, ?_⟩
  rw [same]
  rfl

/-- A quotient of an expression and a text, by which nothing can be divided. -/
def byText (e : Json) : Json :=
  .object [("/", .array [e, .string "x"])]

/-- A sum of nothing and a difference of truth values are both numeric, though both are wrong. -/
theorem byText_replaced :
    (infer 2 .root (byText (operation "+" []))).result? =
        (infer 2 .root (byText (operation "-" [.bool true]))).result? ∧
      ∃ before behind,
        (infer 2 .root (byText (operation "+" []))).diagnostics =
          before ++ (inferAt 2 1 ⟨["/", "0"]⟩ (operation "+" [])).diagnostics ++ behind ∧
        (infer 2 .root (byText (operation "-" [.bool true]))).diagnostics =
          before ++ (inferAt 2 1 ⟨["/", "0"]⟩ (operation "-" [.bool true])).diagnostics ++
            behind := by
  have position : (⟨["/", "0"]⟩, .null) ∈ positionsAt 1 (byText .null) := List.mem_cons_self
  exact @inference_compositional 2 0 0 .root ⟨["/", "0"]⟩ (byText .null) .null (operation "+" [])
    (operation "-" [.bool true]) position (by decide) nofun nofun rfl

/-! ## Operands of more families -/

/-- No array is an expression. -/
lemma inferAt_array {items : List Json} :
    (inferAt limit depth path (.array items)).diagnostics ≠ [] := by
  unfold inferAt
  cases limit + 1 - depth with
  | zero => nofun
  | succ levels => nofun

/-- Where nothing is found in an expression, it can be put anywhere. -/
lemma admits_of_clean (clean : (inferAt limit depth path e).diagnostics = []) :
    place.Admits e := by
  rintro - items rfl
  exact inferAt_array clean

/-- Where nothing is found, what is typed has a family. -/
lemma inferAt_definite (clean : (inferAt limit depth path e).diagnostics = []) :
    ∃ s, (inferAt limit depth path e).result? = some s ∧ ∃ f, s.contains f := by
  obtain ⟨-, s, hs, accepts⟩ :=
    (inferWithin_decides limit (limit + 1 - depth)).definite path e clean
  exact ⟨s, hs, accepts_logic.mp accepts⟩

/-- In an accepted expression all positions can be reached. -/
lemma reached_of_clean (clean : (check limit expect path c).diagnostics = [])
    (h : (place, e) ∈ positionsAt (n + 1) c) : n < limit := by
  have reached : positionsAt (limit + 1) c = [] := by
    have nothing : tooDeep (findings limit (some expect) path c) = [] := by
      rw [findings, clean]
      rfl
    exact tooDeep_findings_eq_nil.mp nothing
  by_contra beyond
  obtain ⟨m, rfl⟩ := Nat.exists_eq_add_of_le (Nat.le_of_not_lt beyond)
  have levels : limit + m + 1 = limit + 1 + m := Nat.add_right_comm limit m 1
  rw [levels, positionsAt_eq_nil_add m reached] at h
  cases h

/-- A variable that may be read is of every family but `null`. -/
lemma inferAt_lookedUp {r : String} (readable : Reference.isReadable r) (below : depth ≤ limit) :
    inferAt limit depth path (lookedUp r) = .ok Shape.unspecific.families := by
  have levels : limit + 1 - depth = limit - depth + 1 := by omega
  unfold inferAt
  rw [levels]
  exact congrArg (Outcome.mk _) (ofRead_eq_nil.mpr readable)

/-- What stands at a position of an expression in which nothing is found has families, and typing
the expression is to fill what surrounds the position with them. -/
lemma position_surroundings {first : Json} (clean : (infer limit path c).diagnostics = [])
    (h : (place, first) ∈ positionsAt (n + 1) c) (reached : n ≤ limit) :
    ∃ (surroundings : Surroundings (path.join place)) (s : FamilySet),
      inferAt limit (n + 1) (path.join place) first = .ok s ∧
        infer limit path c = surroundings.fill (.ok s) ∧
        ∀ e, place.Admits e → infer limit path (c.put place.tokens e) =
          surroundings.fill (inferAt limit (n + 1) (path.join place) e) := by
  obtain ⟨surroundings, fill⟩ :=
    @inferAt_surroundings limit 0 n path place c first h (by rwa [Nat.zero_add])
  rw [Nat.zero_add] at fill
  have whole : infer limit path c =
      surroundings.fill (inferAt limit (n + 1) (path.join place) first) := by
    have own := fill first (positionsAt_admitted h)
    rwa [Json.put_self (positionsAt_resolve h)] at own
  have typed : (inferAt limit (n + 1) (path.join place) first).diagnostics = [] := by
    rw [whole] at clean
    exact (List.append_eq_nil_iff.mp (List.append_eq_nil_iff.mp clean).1).2
  obtain ⟨s, hs, -⟩ := inferAt_definite typed
  have ok : inferAt limit (n + 1) (path.join place) first = .ok s := congrArg₂ Outcome.mk hs typed
  exact ⟨surroundings, s, ok, ok ▸ whole, fill⟩

/-- What accepts some families accepts more. -/
lemma accepts_of_grows {u v : FamilySet} (grows : ∀ f, u.contains f → v.contains f)
    (accepts : expect.accepts u) : expect.accepts v := by
  cases expect with
  | logic =>
    obtain ⟨f, hf⟩ := accepts_logic.mp accepts
    exact accepts_logic.mpr ⟨f, grows f hf⟩
  | family f => exact grows f accepts

/-- An accepted expression is accepted with an operand of more families too. -/
lemma check_widened {first second : Json} {s t : FamilySet}
    (clean : (check limit expect path c).diagnostics = [])
    (h : (place, first) ∈ positionsAt (n + 1) c)
    (hs : inferAt limit (n + 1) (path.join place) first = .ok s)
    (ht : inferAt limit (n + 1) (path.join place) second = .ok t)
    (more : ∀ f, f ≠ .null → s.contains f → t.contains f) :
    (check limit expect path (c.put place.tokens second)).diagnostics = [] ∧
      ∃ u v, infer limit path c = .ok u ∧ infer limit path (c.put place.tokens second) = .ok v ∧
        ∀ f, u.contains f → v.contains f := by
  obtain ⟨typed, u, hu, accepts⟩ := check_clean_meets.mp clean
  obtain ⟨surroundings, s', hs', whole, fill⟩ :=
    position_surroundings typed h (Nat.le_of_lt (reached_of_clean clean h))
  rw [hs] at hs'
  cases hs'
  have nothing : (inferAt limit (n + 1) (path.join place) second).diagnostics = [] :=
    congrArg Outcome.diagnostics ht
  obtain ⟨t', same, nonempty⟩ := inferAt_definite nothing
  rw [ht] at same
  cases same
  obtain ⟨u', v, hu', hv, grows⟩ := Surroundings.fill_widened ⟨more, nonempty⟩ (whole ▸ typed)
  rw [← whole] at hu'
  rw [← ht, ← fill second (admits_of_clean nothing)] at hv
  rw [hu'] at hu
  cases hu
  refine ⟨check_clean_meets.mpr ?_, u, v, hu', hv, grows⟩
  rw [hv]
  exact ⟨rfl, v, rfl, accepts_of_grows grows accepts⟩

/-- Typing is monotone. In an expression in which a check finds nothing, what stands at a position
has families; if something of all of these families but perhaps `null` is put there, in which
nothing is found either, then the check still finds nothing, and the expression has no fewer
families than before. So any operand of an accepted expression can be replaced by a variable that
may be read. -/
theorem check_monotone {first : Json} (clean : (check limit expect path c).diagnostics = [])
    (h : (place, first) ∈ positionsAt (n + 1) c) :
    ∃ s, inferAt limit (n + 1) (path.join place) first = .ok s ∧
      (∀ second t, inferAt limit (n + 1) (path.join place) second = .ok t →
        (∀ f, f ≠ .null → s.contains f → t.contains f) →
          (check limit expect path (c.put place.tokens second)).diagnostics = [] ∧
            ∃ u v, infer limit path c = .ok u ∧
              infer limit path (c.put place.tokens second) = .ok v ∧
              ∀ f, u.contains f → v.contains f) ∧
      ∀ r, Reference.isReadable r →
        (check limit expect path (c.put place.tokens (lookedUp r))).diagnostics = [] := by
  have low := reached_of_clean clean h
  obtain ⟨-, s, hs, -, -⟩ :=
    position_surroundings (check_clean_meets.mp clean).1 h (Nat.le_of_lt low)
  refine ⟨s, hs, fun second t ht more => check_widened clean h hs ht more, fun r readable => ?_⟩
  -- a variable is of every family but `null`, and so of all that are asked for
  exact (check_widened clean h hs (inferAt_lookedUp readable low) fun f proper _ =>
    contains_unspecific proper).1

/-- Whether an expression is before a date. -/
def beforeDate (e : Json) : Json :=
  operation "<" [e, .string "2020-02-29"]

/-- The current date, another date and a variable can all be before a date. -/
theorem beforeDate_replaced :
    (check 1 (.family .boolean) .root (beforeDate (operation "Date.currentDate" []))).diagnostics =
        [] ∧
      (check 1 (.family .boolean) .root (beforeDate (.string "2020-02-28"))).diagnostics = [] ∧
      (check 1 (.family .boolean) .root (beforeDate (lookedUp "User/birthday"))).diagnostics =
        [] := by
  have clean : (check 1 (.family .boolean) .root
      (beforeDate (operation "Date.currentDate" []))).diagnostics = [] := by decide
  have position : (⟨["<", "0"]⟩, operation "Date.currentDate" []) ∈
      positionsAt 1 (beforeDate (operation "Date.currentDate" [])) := List.mem_cons_self
  obtain ⟨s, hs, replaced, named⟩ := check_monotone clean position
  cases hs
  have more : ∀ f, f ≠ .null → (Shape.resultFamilies .date).contains f →
      (Shape.literal .text).families.contains f := by
    intro f
    cases f <;> decide
  exact ⟨clean, (replaced (.string "2020-02-28") _ rfl more).1,
    named "User/birthday" (by decide)⟩

end DialogueLint.Typing
