import DialogueLint.Proofs.Pointer
import Mathlib.Data.List.Basic

/-!
# Pointers by their tokens

Tokens are written by replacing `~` and then `/`, and are read back by splitting the text and
undoing the replacements in the opposite order. Each of the two replacements goes over the whole
text, but no replacement makes an escape that was not there (`contract_contract`). So the text of a
pointer stands for its tokens, whatever characters they have, and texts are joined as the tokens are
(`tokens_faithful`).

Replacing one after the other is what the code does when it writes a token, and what a reader of
pointers does when it reads one. Going over the characters once, as `escapeChar` and `unescape` do,
is easier to reason about, so the first part shows that both come to the same. The second part is
about lists of tokens, for which joining pointers is appending.
-/

namespace DialogueLint.Pointer

/-- Replaces a character, wherever it occurs, by a text. -/
def substitute (c : Char) (word s : List Char) : List Char :=
  s.flatMap fun d => if d = c then word else [d]

/-- Replaces two characters, wherever the second follows the first, by a single one. -/
def contract (first second single : Char) : List Char → List Char
  | c :: d :: rest =>
    if c = first ∧ d = second then single :: contract first second single rest
    else c :: contract first second single (d :: rest)
  | rest => rest

/-- The written form of a token: `~` is replaced by `~0`, and then `/` by `~1`. -/
def writtenToken (token : String) : String :=
  String.ofList (substitute '/' ['~', '1'] (substitute '~' ['~', '0'] token.toList))

/-- The tokens of a written pointer. Behind its first character it is split at the slashes, and in
each part `~1` is replaced by `/`, and then `~0` by `~`. -/
def readTokens (text : String) : List String :=
  match text.toList with
  | [] => []
  | _ :: rest => (rest.splitOn '/').map fun part =>
      String.ofList (contract '~' '0' '~' (contract '~' '1' '/' part))

/-- The place to which tokens lead from the root, one after the other. -/
def ofTokens (tokens : List String) : Pointer :=
  tokens.foldl push root

/-! ## Replacing in order -/

/-- The two replacements, tilde first, write a text as going over it once does. -/
lemma substitute_substitute (s : List Char) :
    substitute '/' ['~', '1'] (substitute '~' ['~', '0'] s) = s.flatMap escapeChar := by
  rw [substitute, substitute, List.flatMap_assoc]
  refine List.flatMap_congr fun c _ => ?_
  by_cases tilde : c = '~'
  · subst tilde
    rfl
  by_cases slash : c = '/'
  · subst slash
    rfl
  simp [escapeChar_of_ne tilde slash, tilde, slash]

section Contract

variable {first second single c : Char} {rest : List Char}

/-- A pair is replaced by the single character. -/
lemma contract_pair :
    contract first second single (first :: second :: rest) =
      single :: contract first second single rest := by
  rw [contract, if_pos ⟨rfl, rfl⟩]

/-- A character that begins no pair is kept. -/
lemma contract_cons_of_ne (h : c ≠ first) :
    contract first second single (c :: rest) = c :: contract first second single rest := by
  cases rest with
  | nil => rfl
  | cons d rest => rw [contract, if_neg fun same => h same.1]

/-- A character that the second one does not follow is kept. -/
lemma contract_cons_of_head (h : rest.head? ≠ some second) :
    contract first second single (c :: rest) = c :: contract first second single rest := by
  cases rest with
  | nil => rfl
  | cons d rest =>
    rw [contract, if_neg]
    rintro ⟨-, rfl⟩
    exact h rfl

/-- No character comes to the front that was not there, but the single one. -/
lemma head?_contract (first second single : Char) (rest : List Char) :
    (contract first second single rest).head? = rest.head? ∨
      (contract first second single rest).head? = some single := by
  match rest with
  | [] => exact .inl rfl
  | [c] => exact .inl rfl
  | c :: d :: rest =>
    rw [contract]
    split_ifs
    · exact .inr rfl
    · exact .inl rfl

end Contract

/-- The replacements one after the other read a text as going over it once does. -/
lemma contract_contract (s : List Char) :
    contract '~' '0' '~' (contract '~' '1' '/' s) = unescape s := by
  fun_induction unescape s with
  | case1 rest ih => rw [contract_pair, contract_cons_of_ne (by decide), ih]
  | case2 rest ih =>
    have inner : contract '~' '1' '/' ('~' :: '0' :: rest) =
        '~' :: '0' :: contract '~' '1' '/' rest := by
      rw [contract_cons_of_head (by simp), contract_cons_of_ne (by decide)]
    rw [inner, contract_pair, ih]
  | case3 c rest slash tilde ih =>
    by_cases escape : c = '~'
    · subst escape
      have one : rest.head? ≠ some '1' := by
        intro h
        obtain ⟨behind, rfl⟩ := List.head?_eq_some_iff.mp h
        exact slash behind rfl rfl
      -- the first replacement puts no `0` behind the tilde, so the second one keeps it
      have zero : (contract '~' '1' '/' rest).head? ≠ some '0' := by
        intro h
        rcases head?_contract '~' '1' '/' rest with same | other
        · obtain ⟨behind, rfl⟩ := List.head?_eq_some_iff.mp (same.symm.trans h)
          exact tilde behind rfl rfl
        · cases other.symm.trans h
      rw [contract_cons_of_head one, contract_cons_of_head zero, ih]
    · rw [contract_cons_of_ne escape, contract_cons_of_ne escape, ih]
  | case4 => rfl

/-! ## Texts of pointers -/

/-- Pushing tokens one after the other is joining with the pointer of the tokens. -/
lemma foldl_push (p : Pointer) (tokens : List String) : tokens.foldl push p = p.join ⟨tokens⟩ := by
  induction tokens generalizing p with
  | nil => exact (join_root p).symm
  | cons token tokens ih =>
    rw [List.foldl_cons, ih]
    simp [push, join]

/-- From the root, the tokens are those of the pointer. -/
lemma ofTokens_eq (tokens : List String) : ofTokens tokens = ⟨tokens⟩ :=
  foldl_push root tokens

/-- Joined pointers are written one after the other. -/
lemma text_join (p q : Pointer) : (p.join q).text = p.text ++ q.text := by
  simp only [text, join_tokens, escape, List.flatMap_append, String.ofList_append]

/-- A pushed token is written behind a slash. -/
lemma text_push (p : Pointer) (token : String) :
    (p.push token).text = p.text ++ "/" ++ writtenToken token := by
  have last : text ⟨[token]⟩ = "/" ++ writtenToken token := by
    rw [writtenToken, substitute_substitute, text, escape, List.flatMap_singleton]
    have append : String.ofList (['/'] ++ token.toList.flatMap escapeChar) = _ :=
      String.ofList_append
    exact append
  have joined : p.push token = p.join ⟨[token]⟩ := rfl
  rw [joined, text_join, last, String.append_assoc]

/-- Reading the text of a pointer gives its tokens. -/
lemma readTokens_text (p : Pointer) : readTokens p.text = p.tokens := by
  have read := decode?_text p
  unfold decode? at read
  unfold readTokens
  split at read
  · rename_i empty
    rw [empty]
    simpa using read
  · rename_i rest written
    rw [written]
    simpa [contract_contract] using read
  · cases read

/-- Pointers are a faithful encoding of lists of tokens. A token is written behind those before it
with its tildes and slashes replaced; the text of a pointer, split and with the replacements undone,
gives the tokens that were put onto the root, so only the same tokens give the same text. Joining
pointers joins their texts and their tokens, is associative, and has the root as identity. -/
theorem tokens_faithful :
    (∀ (p : Pointer) (token : String),
        (p.push token).text = p.text ++ "/" ++ writtenToken token) ∧
      (∀ tokens, readTokens (ofTokens tokens).text = tokens) ∧
      (∀ a b, (ofTokens a).text = (ofTokens b).text → a = b) ∧
      (∀ a b, (ofTokens a).join (ofTokens b) = ofTokens (a ++ b)) ∧
      (∀ p q : Pointer, (p.join q).text = p.text ++ q.text) ∧
      (∀ p q r : Pointer, (p.join q).join r = p.join (q.join r)) ∧
      ∀ p : Pointer, root.join p = p ∧ p.join root = p := by
  refine ⟨text_push, fun tokens => ?_, fun a b same => ?_, fun a b => ?_, text_join, join_assoc,
    fun p => ⟨root_join p, join_root p⟩⟩
  · rw [readTokens_text, ofTokens_eq]
  · have pointers := text_injective same
    rw [ofTokens_eq, ofTokens_eq] at pointers
    exact congrArg tokens pointers
  · simp only [ofTokens_eq, join]

/-- Tokens that look like escapes are told apart from those that are escaped. -/
example : readTokens (ofTokens ["~1", "", "/~0", "~01"]).text = ["~1", "", "/~0", "~01"] := by
  decide

end DialogueLint.Pointer
