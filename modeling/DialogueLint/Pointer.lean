/-!
# Pointers

Where in a document something is: the keys and indices that lead there from the root. The written
form (RFC 6901) puts a slash before each token and escapes `~` and `/` inside it.
-/

namespace DialogueLint

/-- A place in a document, as the tokens that lead to it from the root. -/
structure Pointer where
  /-- The tokens, outermost first. -/
  tokens : List String
  deriving Repr, DecidableEq

namespace Pointer

/-- The place of the whole document. -/
def root : Pointer := ⟨[]⟩

/-- The place of a member. -/
def push (p : Pointer) (token : String) : Pointer :=
  ⟨p.tokens ++ [token]⟩

/-- The place of an item of an array. -/
def item (p : Pointer) (index : Nat) : Pointer :=
  p.push (toString index)

/-- The place that the second pointer leads to from the first. -/
def join (p q : Pointer) : Pointer :=
  ⟨p.tokens ++ q.tokens⟩

/-- Whether this is the place of the whole document. -/
def isRoot (p : Pointer) : Bool :=
  p.tokens.isEmpty

/-- The written form of a character inside a token. -/
def escapeChar : Char → List Char
  | '~' => ['~', '0']
  | '/' => ['~', '1']
  | c => [c]

/-- The written form of tokens: a slash before each. -/
def escape (tokens : List String) : List Char :=
  tokens.flatMap fun token => '/' :: token.toList.flatMap escapeChar

/-- The written form; the root's is empty. -/
def text (p : Pointer) : String :=
  String.ofList (escape p.tokens)

/-- The written form for readers, who see a slash for the root. -/
def display (p : Pointer) : String :=
  if p.isRoot then "/" else p.text

/-- A push is one token more. -/
@[simp] theorem push_tokens (p : Pointer) (token : String) :
    (p.push token).tokens = p.tokens ++ [token] := rfl

/-- What is joined has the tokens of both, in order. -/
@[simp] theorem join_tokens (p q : Pointer) : (p.join q).tokens = p.tokens ++ q.tokens := rfl

/-- To go on by nothing is to stay. -/
@[simp] theorem join_root (p : Pointer) : p.join root = p := by
  simp [join, root]

/-- What starts at the root is as it was. -/
@[simp] theorem root_join (p : Pointer) : root.join p = p := rfl

/-- It does not matter which places are joined first. -/
theorem join_assoc (p q r : Pointer) : (p.join q).join r = p.join (q.join r) :=
  congrArg mk (List.append_assoc p.tokens q.tokens r.tokens)

/-- A member of a joined place. -/
theorem join_push (p q : Pointer) (token : String) :
    p.join (q.push token) = (p.join q).push token := by
  simp [join, push]

end Pointer

end DialogueLint
