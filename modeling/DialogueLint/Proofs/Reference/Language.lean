import DialogueLint.Proofs.Reference.Pattern
import Mathlib.Computability.Language

/-!
# The language of blob references

The regular expression that messages show for blob references, `^(/*conversation/+)?[^/]+$`, as a
language over characters, put together from classes, words, options and repetitions. A repetition
of a class has the texts whose characters are all in it (`mem_manyOf`, `mem_someOf`), so the texts
of the language are those of the pattern (`mem_blobLanguage`).

The library's languages have union, product and star, and membership in each is known there. So the
proof is by membership, constructor by constructor, until only words and classes of characters are
left, and these are compared with the pattern that the code tests.
-/

namespace DialogueLint.Reference

open scoped Computability

/-- The texts of one character of a class. -/
def charOf (P : Char → Prop) : Language Char :=
  {s | ∃ c, P c ∧ s = [c]}

/-- Any number of characters of a class. -/
def manyOf (P : Char → Prop) : Language Char :=
  (charOf P)∗

/-- At least one character of a class. -/
def someOf (P : Char → Prop) : Language Char :=
  charOf P * manyOf P

/-- A text of a language, or nothing. -/
def maybe (l : Language Char) : Language Char :=
  1 + l

/-- The language of `^(/*conversation/+)?[^/]+$`. -/
def blobLanguage : Language Char :=
  maybe (manyOf (· = '/') * {"conversation".toList} * someOf (· = '/')) * someOf (· ≠ '/')

section Repetition

variable {P : Char → Prop} {s : List Char}

/-- A repetition has the texts whose characters are all in the class. -/
lemma mem_manyOf : s ∈ manyOf P ↔ ∀ c ∈ s, P c := by
  constructor
  · intro mem
    obtain ⟨parts, rfl, each⟩ := Language.mem_kstar.mp mem
    intro c hc
    obtain ⟨part, listed, hc⟩ := List.mem_flatten.mp hc
    obtain ⟨d, hd, rfl⟩ := each part listed
    rw [List.mem_singleton.mp hc]
    exact hd
  · intro all
    refine Language.mem_kstar.mpr ⟨s.map fun c => [c], ?_, ?_⟩
    · rw [← List.flatMap_def, List.flatMap_singleton']
    · intro part listed
      obtain ⟨c, hc, rfl⟩ := List.mem_map.mp listed
      exact ⟨c, all c hc, rfl⟩

/-- A repetition of at least one has, of those, the texts that are not empty. -/
lemma mem_someOf : s ∈ someOf P ↔ s ≠ [] ∧ ∀ c ∈ s, P c := by
  constructor
  · intro mem
    obtain ⟨first, ⟨c, hc, rfl⟩, rest, others, rfl⟩ := Language.mem_mul.mp mem
    exact ⟨List.cons_ne_nil _ _, List.forall_mem_cons.mpr ⟨hc, mem_manyOf.mp others⟩⟩
  · rintro ⟨nonempty, all⟩
    obtain ⟨c, rest, rfl⟩ := List.exists_cons_of_ne_nil nonempty
    obtain ⟨hc, others⟩ := List.forall_mem_cons.mp all
    have first : [c] ∈ charOf P := ⟨c, hc, rfl⟩
    exact Language.append_mem_mul first (mem_manyOf.mpr others)

/-- At least one character other than a slash is a segment. -/
lemma mem_someOf_ne_slash : s ∈ someOf (· ≠ '/') ↔ IsSegmentPattern s := by
  rw [mem_someOf, IsSegmentPattern]
  exact and_congr_right fun _ => ⟨fun all mem => all _ mem rfl, fun h c hc same => h (same ▸ hc)⟩

end Repetition

/-- The texts of the regular expression are those of the pattern. -/
lemma mem_blobLanguage {s : List Char} : s ∈ blobLanguage ↔ IsBlobPattern s := by
  simp only [blobLanguage, maybe, add_mul, one_mul, Language.mem_add, mem_someOf_ne_slash,
    IsBlobPattern]
  apply or_congr_right
  constructor
  · intro mem
    obtain ⟨head, inHead, rest, segment, rfl⟩ := Language.mem_mul.mp mem
    obtain ⟨named, inNamed, back, behind, rfl⟩ := Language.mem_mul.mp inHead
    obtain ⟨front, slashes, word, same, rfl⟩ := Language.mem_mul.mp inNamed
    obtain ⟨nonempty, more⟩ := mem_someOf.mp behind
    cases Set.mem_singleton_iff.mp same
    exact ⟨front, back, rest, mem_manyOf.mp slashes, more, nonempty,
      mem_someOf_ne_slash.mp segment, rfl⟩
  · rintro ⟨front, back, rest, slashes, more, nonempty, segment, rfl⟩
    have named := Language.append_mem_mul (mem_manyOf.mpr slashes)
      (Set.mem_singleton "conversation".toList)
    have head := Language.append_mem_mul named (mem_someOf.mpr ⟨nonempty, more⟩)
    exact Language.append_mem_mul head (mem_someOf_ne_slash.mpr segment)

end DialogueLint.Reference
