import DialogueLint.Reference
import Mathlib.Tactic.Common

/-!
# Patterns of references

The forms of keys, language references and blob references, written as their patterns are: a text is
put together from slashes, words, and a rest of a certain kind. The tests of
`DialogueLint.Reference` decide these patterns (`isKey_iff`, `isLanguage_iff`, `isBlob_iff`).

The tests go over a text from the front: they drop slashes, look for a word, and test what is left.
A pattern says that the text can be split in such a way. The difference is that a split could be
made in several ways; the lemmas show that there is only one, because the word does not begin with a
slash and the rest has none, so that dropping all slashes at once is never too much.
-/

namespace DialogueLint.Reference

/-- A text of slashes only. -/
def IsSlashes (s : List Char) : Prop := ∀ c ∈ s, c = '/'

/-- A text of 1 to 128 letters and digits. -/
def IsKeyPattern (s : List Char) : Prop :=
  (1 ≤ s.length ∧ s.length ≤ 128) ∧ ∀ c ∈ s, c.isAlphanum

/-- A text that is not empty and has no slashes. -/
def IsSegmentPattern (s : List Char) : Prop := s ≠ [] ∧ '/' ∉ s

/-- Slashes, a word, and a key. -/
def IsKeyUnderPattern (word s : List Char) : Prop :=
  ∃ front key, IsSlashes front ∧ IsKeyPattern key ∧ s = front ++ word ++ key

/-- A segment, or slashes, the word `conversation`, at least one slash, and a segment. -/
def IsBlobPattern (s : List Char) : Prop :=
  IsSegmentPattern s ∨ ∃ front back rest, IsSlashes front ∧ IsSlashes back ∧ back ≠ [] ∧
    IsSegmentPattern rest ∧ s = front ++ "conversation".toList ++ back ++ rest

/-- A word is found in front of a text that begins with it. -/
lemma after?_eq_some {word s rest : List Char} : after? word s = some rest ↔ s = word ++ rest := by
  induction word generalizing s with
  | nil => simp [after?]
  | cons c word ih =>
    cases s with
    | nil => simp [after?]
    | cons d s =>
      simp only [after?, List.cons_append, List.cons.injEq]
      split_ifs with same
      · rw [ih]
        exact ⟨fun h => ⟨same.symm, h⟩, fun h => h.2⟩
      · exact ⟨fun h => by simp at h, fun h => absurd h.1.symm same⟩

/-- Slashes in front are dropped. -/
lemma dropSlashes_append {front s : List Char} (h : IsSlashes front) :
    dropSlashes (front ++ s) = dropSlashes s := by
  induction front with
  | nil => rfl
  | cons c front ih =>
    obtain ⟨rfl, rest⟩ := List.forall_mem_cons.mp h
    exact ih rest

/-- A text is made of the slashes in front and what remains without them. -/
lemma exists_dropSlashes (s : List Char) :
    ∃ front, IsSlashes front ∧ s = front ++ dropSlashes s := by
  refine ⟨s.takeWhile (· == '/'), ?_, List.takeWhile_append_dropWhile.symm⟩
  intro c hc
  simpa using List.all_eq_true.mp List.all_takeWhile c hc

/-- A text without slashes keeps all its characters. -/
lemma dropSlashes_of_not_mem {s : List Char} (h : '/' ∉ s) : dropSlashes s = s := by
  cases s with
  | nil => rfl
  | cons c s =>
    have first : c ≠ '/' := fun same => h (same ▸ List.mem_cons_self)
    simp [dropSlashes, first]

/-- A text begins, after slashes, with a word that begins with no slash. -/
lemma dropSlashes_eq_iff {c : Char} (first : c ≠ '/') {s rest : List Char} :
    dropSlashes s = c :: rest ↔ ∃ front, IsSlashes front ∧ s = front ++ c :: rest := by
  constructor
  · intro h
    obtain ⟨front, slashes, hs⟩ := exists_dropSlashes s
    exact ⟨front, slashes, h ▸ hs⟩
  · rintro ⟨front, slashes, rfl⟩
    rw [dropSlashes_append slashes]
    simp [dropSlashes, first]

/-- The test for keys decides their pattern, character by character. -/
lemma isKeyText_iff {s : List Char} : isKeyText s ↔ IsKeyPattern s := by
  have some_char : s.isEmpty = false ↔ 1 ≤ s.length := by
    rw [List.isEmpty_eq_false_iff, ← List.length_pos_iff]
    rfl
  simp only [isKeyText, IsKeyPattern, isKeyChar, ← some_char, Bool.and_eq_true, Bool.not_eq_true',
    decide_eq_true_eq, List.all_eq_true]
  exact Iff.rfl

/-- The test for keys decides their pattern. -/
lemma isKey_iff {s : String} : isKey s ↔ IsKeyPattern s.toList :=
  isKeyText_iff

/-- The test for segments decides their pattern. -/
lemma isSegment_iff {s : List Char} : isSegment s ↔ IsSegmentPattern s := by
  simp [isSegment, IsSegmentPattern]

/-- The test for keys under a word decides their pattern, given that slashes were dropped. -/
lemma isKeyUnder_iff {c : Char} (first : c ≠ '/') {word s : List Char} :
    isKeyUnder (c :: word) (dropSlashes s) ↔ IsKeyUnderPattern (c :: word) s := by
  -- the word does not start with a slash, so that it is clear how many slashes are dropped
  have test : isKeyUnder (c :: word) (dropSlashes s) ↔
      ∃ key, dropSlashes s = c :: (word ++ key) ∧ IsKeyPattern key := by
    unfold isKeyUnder
    cases found : after? (c :: word) (dropSlashes s) with
    | none =>
      simp only [Bool.false_eq_true, false_iff, not_exists, not_and]
      intro key hkey
      have := after?_eq_some.mpr (hkey.trans (List.cons_append.symm))
      simp [this] at found
    | some rest =>
      rw [after?_eq_some] at found
      simp only [isKeyText_iff, found]
      constructor
      · intro h
        exact ⟨rest, rfl, h⟩
      · rintro ⟨key, hkey, h⟩
        rw [← List.cons_append, List.append_cancel_left_eq] at hkey
        exact hkey ▸ h
  rw [test]
  constructor
  · rintro ⟨key, hkey, h⟩
    obtain ⟨front, slashes, rfl⟩ := (dropSlashes_eq_iff first).mp hkey
    exact ⟨front, key, slashes, h, by simp⟩
  · rintro ⟨front, key, slashes, h, rfl⟩
    refine ⟨key, (dropSlashes_eq_iff first).mpr ⟨front, slashes, by simp⟩, h⟩

/-- The test for references to languages decides their pattern. -/
lemma isLanguage_iff {r : String} :
    isLanguage r ↔ IsKeyUnderPattern "Language/".toList r.toList := by
  have word : "Language/".toList = 'L' :: "anguage/".toList := by simp
  rw [isLanguage, word]
  exact isKeyUnder_iff (by decide)

/-- What stands behind a slash and the slashes after it. -/
lemma isSegment_dropSlashes_iff {s : List Char} :
    isSegment (dropSlashes s) ↔
      ∃ front rest, IsSlashes front ∧ IsSegmentPattern rest ∧ s = front ++ rest := by
  rw [isSegment_iff]
  constructor
  · intro h
    obtain ⟨front, slashes, hs⟩ := exists_dropSlashes s
    exact ⟨front, _, slashes, h, hs⟩
  · rintro ⟨front, rest, slashes, segment, rfl⟩
    rw [dropSlashes_append slashes, dropSlashes_of_not_mem segment.2]
    exact segment

/-- The test for blob references decides their pattern. -/
lemma isBlob_iff {r : String} : isBlob r ↔ IsBlobPattern r.toList := by
  -- slashes are dropped twice, in front of the word and behind it, where one must remain
  have conversation : ∀ {s rest : List Char},
      after? "conversation/".toList (dropSlashes s) = some rest ↔
        ∃ front, IsSlashes front ∧ s = front ++ "conversation/".toList ++ rest := by
    intro s rest
    have word : "conversation/".toList = 'c' :: "onversation/".toList := by simp
    rw [after?_eq_some, word]
    simp only [List.cons_append, List.append_assoc]
    exact dropSlashes_eq_iff (by decide)
  have split : isBlob r ↔ IsSegmentPattern r.toList ∨
      ∃ rest, after? "conversation/".toList (dropSlashes r.toList) = some rest ∧
        isSegment (dropSlashes rest) := by
    rw [isBlob, Bool.or_eq_true, isSegment_iff]
    apply or_congr_right
    cases after? "conversation/".toList (dropSlashes r.toList) <;> simp
  rw [split, IsBlobPattern]
  apply or_congr_right
  constructor
  · rintro ⟨rest, found, segment⟩
    obtain ⟨front, slashes, hr⟩ := conversation.mp found
    obtain ⟨back, last, more, pattern, rfl⟩ := isSegment_dropSlashes_iff.mp segment
    refine ⟨front, '/' :: back, last, slashes, ?_, List.cons_ne_nil _ _, pattern, ?_⟩
    · exact List.forall_mem_cons.mpr ⟨rfl, more⟩
    · rw [hr]
      simp
  · rintro ⟨front, back, rest, slashes, more, some_slash, segment, hr⟩
    cases back with
    | nil => exact absurd rfl some_slash
    | cons c back =>
      obtain ⟨rfl, others⟩ := List.forall_mem_cons.mp more
      refine ⟨back ++ rest, conversation.mpr ⟨front, slashes, ?_⟩,
        isSegment_dropSlashes_iff.mpr ⟨back, rest, others, segment, rfl⟩⟩
      rw [hr]
      simp

/-! ## Blob references are outside the namespaces of the system -/

/-- A text is split at its first slash. -/
lemma splitSlash?_append {head rest : List Char} (h : '/' ∉ head) :
    splitSlash? (head ++ '/' :: rest) = some (head, rest) := by
  induction head with
  | nil => simp [splitSlash?]
  | cons c head ih =>
    obtain ⟨first, others⟩ := not_or.mp fun mem => h (List.mem_cons.mpr mem)
    simp [splitSlash?, Ne.symm first, ih others]

/-- A text without a slash cannot be split at one. -/
lemma splitSlash?_eq_none {s : List Char} (h : '/' ∉ s) : splitSlash? s = none := by
  induction s with
  | nil => rfl
  | cons c s ih =>
    obtain ⟨first, others⟩ := not_or.mp fun mem => h (List.mem_cons.mpr mem)
    simp [splitSlash?, Ne.symm first, ih others]

/-- Only a slash becomes a slash in lower case. -/
lemma toLower_eq_slash {c : Char} (h : c.toLower = '/') : c = '/' := by
  unfold Char.toLower at h
  split at h
  · rename_i upper
    exfalso
    have shifted : c.val + 32 = 47 := congrArg Char.val h
    have low : 65 ≤ c.val := upper.1
    have high : c.val ≤ 90 := upper.2
    clear upper h
    generalize c.val = n at shifted low high
    have sum := congrArg UInt32.toNat shifted
    simp only [UInt32.toNat_add, UInt32.le_iff_toNat_le] at sum low high
    simp at sum low high
    omega
  · exact h

/-- A blob reference is not in a namespace of the system, although nothing demands so. -/
lemma reserved?_of_isBlobPattern {r : String} (h : IsBlobPattern r.toList) :
    reserved? r = none := by
  unfold reserved? spaceOf?
  rcases h with ⟨-, noSlash⟩ | ⟨front, back, rest, slashes, more, some_slash, -, hr⟩
  · have lower : '/' ∉ r.toList.map Char.toLower := by
      rw [List.mem_map]
      rintro ⟨c, mem, hc⟩
      exact noSlash (toLower_eq_slash hc ▸ mem)
    rw [dropSlashes_of_not_mem noSlash, splitSlash?_eq_none lower]
  · cases back with
    | nil => exact absurd rfl some_slash
    | cons c back =>
      obtain ⟨rfl, -⟩ := List.forall_mem_cons.mp more
      have word : "conversation".toList = 'c' :: "onversation".toList := by simp
      have dropped : dropSlashes r.toList = "conversation".toList ++ '/' :: (back ++ rest) := by
        rw [word, List.cons_append, dropSlashes_eq_iff (by decide)]
        exact ⟨front, slashes, by simp [hr, word]⟩
      have lower : (dropSlashes r.toList).map Char.toLower =
          "conversation".toList ++ '/' :: (back ++ rest).map Char.toLower := by
        rw [dropped]
        simp
      rw [lower, splitSlash?_append (by simp)]
      simp

end DialogueLint.Reference
