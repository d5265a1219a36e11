import DialogueLint.Pointer
import Mathlib.Tactic.Common

/-!
# Written pointers

How a written pointer is decoded: it is split at its slashes, and in each token `~1` stands for a
slash and `~0` for a tilde. Decoding undoes writing (`Pointer.decode?_text`), so no key is confused
with another, whatever characters it has.

Decoding is written as a client would write it, from the text alone. The proof goes over the
characters of one token first, where an escape is read as one character and no slash is left, and
then over the tokens, which are split at the slashes between them.
-/

namespace DialogueLint.Pointer

/-- The characters of a token from their written form. -/
def unescape : List Char → List Char
  | '~' :: '1' :: rest => '/' :: unescape rest
  | '~' :: '0' :: rest => '~' :: unescape rest
  | c :: rest => c :: unescape rest
  | [] => []

/-- The tokens of a written pointer, which is empty or begins with a slash. -/
def decode? (text : String) : Option (List String) :=
  match text.toList with
  | [] => some []
  | '/' :: rest => some ((rest.splitOn '/').map fun token => String.ofList (unescape token))
  | _ :: _ => none

/-- A character that begins no escape is kept. -/
lemma unescape_cons {c : Char} (h : c ≠ '~') (rest : List Char) :
    unescape (c :: rest) = c :: unescape rest := by
  rw [unescape]
  · rintro - rfl
    exact absurd rfl h
  · rintro - rfl
    exact absurd rfl h

/-- A character that is neither a tilde nor a slash is written as it is. -/
lemma escapeChar_of_ne {c : Char} (tilde : c ≠ '~') (slash : c ≠ '/') : escapeChar c = [c] := by
  unfold escapeChar
  split
  · exact absurd rfl tilde
  · exact absurd rfl slash
  · rfl

/-- Reading the written form of a token gives its characters. -/
lemma unescape_escape (token : List Char) : unescape (token.flatMap escapeChar) = token := by
  induction token with
  | nil => rfl
  | cons c token ih =>
    rw [List.flatMap_cons]
    by_cases tilde : c = '~'
    · subst tilde
      exact congrArg _ ih
    by_cases slash : c = '/'
    · subst slash
      exact congrArg _ ih
    rw [escapeChar_of_ne tilde slash, List.singleton_append, unescape_cons tilde, ih]

/-- The written form of a token has no slash. -/
lemma slash_not_mem_escape (token : List Char) : '/' ∉ token.flatMap escapeChar := by
  rw [List.mem_flatMap]
  rintro ⟨c, -, mem⟩
  by_cases tilde : c = '~'
  · subst tilde
    revert mem
    decide
  by_cases slash : c = '/'
  · subst slash
    revert mem
    decide
  rw [escapeChar_of_ne tilde slash, List.mem_singleton] at mem
  exact slash mem.symm

/-- Written tokens are split where they were put together. -/
lemma splitOn_escape (token : String) (tokens : List String) :
    (token.toList.flatMap escapeChar ++ escape tokens).splitOn '/' =
      (token :: tokens).map fun token => token.toList.flatMap escapeChar := by
  induction tokens generalizing token with
  | nil =>
    rw [escape, List.flatMap_nil, List.append_nil]
    exact List.splitOn_eq_singleton (slash_not_mem_escape _)
  | cons next tokens ih =>
    rw [escape, List.flatMap_cons, List.cons_append, List.splitOn_append_cons_self,
      List.splitOn_eq_singleton (slash_not_mem_escape _)]
    exact congrArg _ (ih next)

/-- Decoding the written form of a pointer gives its tokens. -/
lemma decode?_text (p : Pointer) : decode? p.text = some p.tokens := by
  obtain ⟨tokens⟩ := p
  cases tokens with
  | nil => rfl
  | cons token tokens =>
    have written : (text ⟨token :: tokens⟩).toList =
        '/' :: (token.toList.flatMap escapeChar ++ escape tokens) := by
      simp [text, escape]
    simp only [decode?, written, splitOn_escape, List.map_map, Function.comp_def, unescape_escape,
      String.ofList_toList, List.map_id']

/-- The written form determines the pointer. -/
lemma text_injective {p q : Pointer} (h : p.text = q.text) : p = q := by
  have tokens : some p.tokens = some q.tokens := by
    rw [← decode?_text, ← decode?_text, h]
  cases p
  cases q
  cases tokens
  rfl

/-- Only the root has an empty written form. -/
lemma text_eq_empty {p : Pointer} : p.text = "" ↔ p.isRoot := by
  constructor
  · intro empty
    have root : p = .root := text_injective empty
    rw [root]
    rfl
  · intro root
    rw [text, List.isEmpty_iff.mp root]
    rfl

end DialogueLint.Pointer
