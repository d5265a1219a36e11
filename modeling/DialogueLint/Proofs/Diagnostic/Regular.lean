import DialogueLint.Proofs.Json.Place
import DialogueLint.Proofs.Pointer
import Mathlib.Data.List.Basic
import Mathlib.Data.List.Nodup
import Mathlib.Data.List.Pairwise

/-!
# Regular findings

Findings are lists of diagnostics that depend on the place where a part of a document stands. They
are regular if the place only moves them, if they are of usual kinds, and if no problem is among
them twice (`Findings.Regular`). Findings of several parts are regular together where the parts
stand apart, so that no path of one is a path of another.

Regularity is what all passes have in common, and it is kept by every way in which findings are put
together: side by side at diverging places (`Regular.append_inside`), one inside the other
(`Regular.inside`), item by item from an index on (`From`), and with a single problem at the place
itself (`regular_here`, `Regular.append_problem`). So it is shown of each pass along the recursion
of the pass, and no pass is unfolded twice. That findings are distinct may depend on a condition,
such as that no key occurs twice in a value; that they are only moved never does.
-/

namespace DialogueLint

/-! ## Diagnostics that do not repeat each other -/

/-- Two diagnostics with one path and one kind report different missing fields. -/
def Diagnostic.Apart (d e : Diagnostic) : Prop :=
  d.path.text = e.path.text → d.kind = e.kind →
    ∃ field other, d.problem = .missingRequiredField field ∧
      e.problem = .missingRequiredField other ∧ field ≠ other

/-- No problem is reported twice. -/
def Distinct (diagnostics : List Diagnostic) : Prop :=
  diagnostics.Pairwise Diagnostic.Apart

section Apart

variable {d e : Diagnostic} {tokens more : List String}

/-- Being apart does not depend on the order of two diagnostics. -/
lemma Diagnostic.Apart.symm (h : d.Apart e) : e.Apart d := by
  intro path kind
  obtain ⟨field, other, hd, he, different⟩ := h path.symm kind.symm
  exact ⟨other, field, he, hd, different.symm⟩

/-- Diagnostics at different places are apart. -/
lemma Diagnostic.apart_of_path (h : d.path ≠ e.path) : d.Apart e :=
  fun path _ => absurd (Pointer.text_injective path) h

/-- Diagnostics of different kinds are apart. -/
lemma Diagnostic.apart_of_kind (h : d.kind ≠ e.kind) : d.Apart e :=
  fun _ kind => absurd kind h

/-- Diagnostics that are apart differ in kind or path, but for missing fields. -/
lemma Diagnostic.Apart.differ (apart : d.Apart e)
    (kind : d.kind ≠ .missingRequiredField) : ¬ (e.kind = d.kind ∧ e.path = d.path) := by
  rintro ⟨sameKind, samePath⟩
  obtain ⟨field, other, same, -⟩ := apart (by rw [samePath]) sameKind.symm
  apply kind
  rw [Diagnostic.kind, same]
  rfl

/-- Moving two diagnostics to another place keeps them apart. -/
lemma Diagnostic.Apart.below (h : d.Apart e) (p : Pointer) :
    (Diagnostic.below p d).Apart (Diagnostic.below p e) := by
  intro path kind
  have same : p.tokens ++ d.path.tokens = p.tokens ++ e.path.tokens :=
    congrArg Pointer.tokens (Pointer.text_injective path)
  have inner : d.path = e.path := congrArg Pointer.mk (List.append_cancel_left same)
  exact h (congrArg Pointer.text inner) kind

/-- Diagnostics that are moved together stay distinct. -/
lemma Distinct.below {diagnostics : List Diagnostic} (h : Distinct diagnostics) (p : Pointer) :
    Distinct (diagnostics.map (Diagnostic.below p)) :=
  List.Pairwise.map _ (fun _ _ apart => apart.below p) h

/-- Among distinct diagnostics there is one of a kind at a path, but for missing fields. -/
lemma Distinct.filter_eq {diagnostics : List Diagnostic} (distinct : Distinct diagnostics)
    (mem : d ∈ diagnostics) (kind : d.kind ≠ .missingRequiredField) :
    diagnostics.filter (fun e => e.kind == d.kind && e.path == d.path) = [d] := by
  induction diagnostics with
  | nil => cases mem
  | cons e rest ih =>
    obtain ⟨first, later⟩ := List.pairwise_cons.mp distinct
    rcases List.mem_cons.mp mem with rfl | mem
    · have others : rest.filter (fun e => e.kind == d.kind && e.path == d.path) = [] := by
        refine List.filter_eq_nil_iff.mpr fun e mem => ?_
        simpa using (first e mem).differ kind
      rw [List.filter_cons_of_pos (by simp), others]
    · have apart : ¬ (e.kind = d.kind ∧ e.path = d.path) := by
        rintro ⟨sameKind, samePath⟩
        exact (first d mem).differ (sameKind ▸ kind) ⟨sameKind.symm, samePath.symm⟩
      rw [List.filter_cons_of_neg (by simpa using apart), ih later mem]

/-- Two places neither of which lies inside the other. -/
def Diverge (tokens more : List String) : Prop :=
  ¬ tokens <+: more ∧ ¬ more <+: tokens

instance : Decidable (Diverge tokens more) :=
  inferInstanceAs (Decidable (_ ∧ _))

/-- The places of two keys of one object diverge. -/
lemma diverge_singleton {key other : String} (h : key ≠ other) : Diverge [key] [other] := by
  simp [Diverge, h, h.symm]

/-- Places that diverge do so wherever they are below one place. -/
lemma Diverge.below (h : Diverge tokens more) (place : List String) :
    Diverge (place ++ tokens) (place ++ more) := by
  simpa [Diverge, List.prefix_append_right_inj] using h

/-- No place lies inside both of two diverging places. -/
lemma Diverge.not_inside (h : Diverge tokens more) {place : List String}
    (inside : tokens <+: place) : ¬ more <+: place := by
  intro other
  cases List.prefix_or_prefix_of_prefix inside other with
  | inl within => exact h.1 within
  | inr within => exact h.2 within

/-- Diagnostics at diverging places are apart. -/
lemma Diagnostic.apart_of_diverge (h : Diverge tokens more) (hd : tokens <+: d.path.tokens)
    (he : more <+: e.path.tokens) : d.Apart e := by
  apply apart_of_path
  intro same
  rw [← same] at he
  exact h.not_inside hd he

/-- A problem inside a part is not one of the part itself. -/
lemma Diagnostic.path_ne_root {token : String} (h : [token] <+: d.path.tokens) :
    d.path ≠ .root := by
  intro same
  rw [same] at h
  exact absurd (List.prefix_nil.mp h) (List.cons_ne_nil _ _)

/-- A problem inside a part is apart from one of the part itself. -/
lemma Diagnostic.apart_of_inside {token : String} (hd : [token] <+: d.path.tokens)
    (he : e.path = .root) : d.Apart e :=
  apart_of_path (he ▸ path_ne_root hd)

end Apart

/-! ## Findings -/

/-- What is found, depending on where the part looked at stands. -/
abbrev Findings : Type := Pointer → List Diagnostic

/-- The place only moves what is found, all of it is of the usual kinds, and on a condition no
problem is found twice. -/
structure Findings.Regular (usual : Kind → Prop) (condition : Prop) (found : Findings) : Prop where
  moves : ∀ path, found path = (found .root).map (Diagnostic.below path)
  kinds : ∀ d ∈ found .root, usual d.kind
  distinct : condition → Distinct (found .root)

namespace Findings

variable {usual : Kind → Prop} {condition : Prop} {found more : Findings}

/-- Regular findings are of the usual kinds at every place, not just at the root. -/
lemma Regular.kinds_at (h : found.Regular usual condition) (path : Pointer) :
    ∀ d ∈ found path, usual d.kind := by
  intro d mem
  rw [h.moves] at mem
  obtain ⟨e, he, rfl⟩ := List.mem_map.mp mem
  exact h.kinds e he

/-- All that is found lies inside the part. -/
lemma Regular.within (h : found.Regular usual condition) {path : Pointer} :
    ∀ d ∈ found path, path.tokens <+: d.path.tokens := by
  intro d mem
  rw [h.moves] at mem
  obtain ⟨e, -, rfl⟩ := List.mem_map.mp mem
  exact List.prefix_append _ _

/-- Regular findings are distinct at every place, if the condition holds. -/
lemma Regular.distinct_at (h : found.Regular usual condition) (holds : condition)
    (path : Pointer) : Distinct (found path) := by
  rw [h.moves]
  exact (h.distinct holds).below path

/-- A stronger condition will do as well. -/
lemma Regular.imp {other : Prop} (h : found.Regular usual condition) (imp : other → condition) :
    found.Regular usual other where
  moves := h.moves
  kinds := h.kinds
  distinct holds := h.distinct (imp holds)

/-- More kinds may be called usual. -/
lemma Regular.kinds_imp {other : Kind → Prop} (h : found.Regular usual condition)
    (imp : ∀ kind, usual kind → other kind) : found.Regular other condition where
  moves := h.moves
  kinds d mem := imp _ (h.kinds d mem)
  distinct := h.distinct

/-- Finding nothing is regular. -/
lemma regular_nil : Regular usual condition fun _ => [] where
  moves _ := rfl
  kinds := by simp
  distinct _ := .nil

/-- A single problem of the part itself. -/
lemma regular_here {problem : Problem} (h : usual problem.kind) :
    Regular usual condition fun path => [⟨path, problem⟩] where
  moves path := by simp [Diagnostic.below]
  kinds := List.forall_mem_singleton.mpr h
  distinct _ := List.pairwise_singleton _ _

/-- A part that lies inside another. -/
lemma Regular.inside (h : found.Regular usual condition) (tokens : List String) :
    Regular usual condition fun path => found (path.join ⟨tokens⟩) where
  moves path := by
    rw [h.moves, h.moves (Pointer.root.join ⟨tokens⟩), List.map_map]
    refine List.map_congr_left fun d _ => ?_
    simp [Diagnostic.below, Pointer.join, Pointer.root]
  kinds := h.kinds_at _
  distinct holds := h.distinct_at holds _

/-- Findings of two parts are regular together if no two of them repeat each other at the root. -/
lemma Regular.append (h : found.Regular usual condition) (hm : more.Regular usual condition)
    (apart : condition → ∀ d ∈ found .root, ∀ e ∈ more .root, d.Apart e) :
    Regular usual condition fun path => found path ++ more path where
  moves path := by rw [h.moves, hm.moves, List.map_append]
  kinds := List.forall_mem_append.mpr ⟨h.kinds, hm.kinds⟩
  distinct holds := List.pairwise_append.mpr ⟨h.distinct holds, hm.distinct holds, apart holds⟩

/-- Two parts that stand at diverging places. -/
lemma Regular.append_inside (h : found.Regular usual condition) (hm : more.Regular usual condition)
    (tokens others : List String) (diverge : Diverge tokens others) :
    Regular usual condition fun path =>
      found (path.join ⟨tokens⟩) ++ more (path.join ⟨others⟩) := by
  refine (h.inside tokens).append (hm.inside others) fun _ d hd e he => ?_
  exact Diagnostic.apart_of_diverge diverge (h.within d hd) (hm.within e he)

/-- A problem at a place where nothing was found before. -/
lemma Regular.append_problem (h : found.Regular usual condition) (tokens : List String)
    {problem : Problem} (kind : usual problem.kind)
    (away : ∀ d ∈ found .root, d.path ≠ Pointer.root.join ⟨tokens⟩) :
    Regular usual condition fun path => found path ++ [⟨path.join ⟨tokens⟩, problem⟩] := by
  refine h.append ((regular_here kind).inside tokens) fun _ d hd e he => ?_
  cases List.mem_singleton.mp he
  exact Diagnostic.apart_of_path (away d hd)

/-- What is found in one part is not found at a diverging place. -/
lemma Regular.elsewhere (h : found.Regular usual condition) {tokens others : List String}
    (diverge : Diverge tokens others) :
    ∀ d ∈ found (Pointer.root.join ⟨tokens⟩), d.path ≠ Pointer.root.join ⟨others⟩ := by
  intro d mem same
  have inside := h.within d mem
  rw [same] at inside
  exact diverge.1 inside

section Parts

variable {α : Type} {parts : List α} {place : α → List String} {each : α → Findings}

/-- Several parts, one at each of several places. -/
lemma regular_parts (h : ∀ a ∈ parts, (each a).Regular usual condition)
    (diverge : condition → parts.Pairwise fun a b => Diverge (place a) (place b)) :
    Regular usual condition fun path => parts.flatMap fun a => each a (path.join ⟨place a⟩) where
  moves path := by
    rw [List.map_flatMap]
    exact List.flatMap_congr fun a mem => ((h a mem).inside (place a)).moves path
  kinds d mem := by
    obtain ⟨a, ha, hd⟩ := List.mem_flatMap.mp mem
    exact (h a ha).kinds_at _ d hd
  distinct holds := by
    refine List.pairwise_flatMap.mpr ⟨fun a mem => (h a mem).distinct_at holds _, ?_⟩
    refine (diverge holds).imp_of_mem fun {a b} ha hb apart d hd e he => ?_
    exact Diagnostic.apart_of_diverge apart ((h a ha).within d hd) ((h b hb).within e he)

/-- Several parts that are gone through twice: problems of one part found the second time are not
those found the first time. -/
lemma regular_twice (each again : α → Findings)
    (h : ∀ a ∈ parts, (each a).Regular usual condition)
    (hs : ∀ a ∈ parts, (again a).Regular usual condition)
    (apart : condition → ∀ a ∈ parts, ∀ d ∈ each a .root, ∀ e ∈ again a .root, d.Apart e)
    (diverge : condition → parts.Pairwise fun a b => Diverge (place a) (place b)) :
    Regular usual condition fun path =>
      (parts.flatMap fun a => each a (path.join ⟨place a⟩)) ++
        parts.flatMap fun a => again a (path.join ⟨place a⟩) := by
  refine (regular_parts h diverge).append (regular_parts hs diverge) ?_
  intro holds d hd e he
  obtain ⟨a, ha, inA⟩ := List.mem_flatMap.mp hd
  obtain ⟨b, hb, inB⟩ := List.mem_flatMap.mp he
  -- within one part the condition on the two rounds counts, between parts their places do
  by_cases same : a = b
  · subst same
    rw [(h a ha).moves] at inA
    rw [(hs a ha).moves] at inB
    obtain ⟨d, first, rfl⟩ := List.mem_map.mp inA
    obtain ⟨e, second, rfl⟩ := List.mem_map.mp inB
    exact (apart holds a ha d first e second).below _
  · have symm : Std.Symm fun a b => Diverge (place a) (place b) := ⟨fun _ _ => And.symm⟩
    have different : Diverge (place a) (place b) := (diverge holds).forall ha hb same
    exact Diagnostic.apart_of_diverge different ((h a ha).within d inA) ((hs b hb).within e inB)

end Parts

/-! ## Items from an index on -/

/-- All that is found lies in the items from an index on. -/
def From (index : Nat) (found : Findings) : Prop :=
  ∀ d ∈ found .root, ∃ i, index ≤ i ∧ [toString i] <+: d.path.tokens

variable {index : Nat}

/-- What is found in an item is apart from what is found in later ones. -/
lemma From.apart (later : more.From (index + 1)) (h : found.Regular usual condition) :
    ∀ d ∈ found (Pointer.root.item index), ∀ e ∈ more .root, d.Apart e := by
  intro d hd e he
  obtain ⟨i, le, inside⟩ := later e he
  have different : toString index ≠ toString i := by
    intro same
    have := toString_nat_injective same
    omega
  exact Diagnostic.apart_of_diverge (diverge_singleton different) (h.within d hd) inside

/-- What is found in an item, and in later ones, is found in the items from its index on. -/
lemma From.cons (later : more.From (index + 1)) (h : found.Regular usual condition) :
    From index fun path => found (path.item index) ++ more path := by
  refine List.forall_mem_append.mpr ⟨fun d mem => ?_, fun d mem => ?_⟩
  · exact ⟨index, Nat.le_refl index, h.within d mem⟩
  · obtain ⟨i, le, inside⟩ := later d mem
    exact ⟨i, by omega, inside⟩

end Findings

end DialogueLint
