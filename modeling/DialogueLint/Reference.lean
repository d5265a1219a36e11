/-!
# References

A reference names a place in the context of a conversation. Four namespaces belong to the system and
are never written; a few of their references may still be read.
-/

namespace DialogueLint

/-- A namespace that belongs to the system. -/
inductive SystemSpace where
  /-- What the bot is and does. -/
  | bot
  /-- The state of the running dialogue. -/
  | dialogue
  /-- The language of the conversation. -/
  | language
  /-- The user's authentication. -/
  | userAuthenticationToken
  deriving Repr, DecidableEq

/-- The name of a namespace. -/
def SystemSpace.name : SystemSpace → String
  | bot => "Bot/"
  | dialogue => "Dialogue/"
  | language => "Language/"
  | userAuthenticationToken => "User/AuthenticationToken"

namespace Reference

/-- The longest key, in characters. -/
def maxKeyLength : Nat := 128

/-- A letter or digit of ASCII. -/
def isKeyChar (c : Char) : Bool :=
  c.isAlphanum

/-- One to 128 ASCII letters and digits. -/
def isKeyText (s : List Char) : Bool :=
  !s.isEmpty && s.length ≤ maxKeyLength && s.all isKeyChar

/-- A key: one to 128 ASCII letters and digits. -/
def isKey (s : String) : Bool :=
  isKeyText s.toList

/-- Drops the slashes in front. -/
def dropSlashes (s : List Char) : List Char :=
  s.dropWhile (· == '/')

/-- What follows a word at the front of a text, if the word is there. -/
def after? : List Char → List Char → Option (List Char)
  | [], s => some s
  | _ :: _, [] => none
  | c :: word, d :: s => if c = d then after? word s else none

/-- Whether a text begins with a word. -/
def startsWith (word s : List Char) : Bool :=
  (after? word s).isSome

/-- Splits a text at its first slash. -/
def splitSlash? : List Char → Option (List Char × List Char)
  | [] => none
  | c :: s =>
    if c = '/' then some ([], s)
    else (splitSlash? s).map fun (head, rest) => (c :: head, rest)

/-- The namespace of the system that a text leads into. Case and slashes in front do not count, nor
does the number of slashes behind `user`. -/
def spaceOf? (s : List Char) : Option SystemSpace :=
  match splitSlash? ((dropSlashes s).map Char.toLower) with
  | none => none
  | some (head, rest) =>
    if head = "bot".toList then some .bot
    else if head = "dialogue".toList then some .dialogue
    else if head = "language".toList then some .language
    else if head = "user".toList && startsWith "authenticationtoken".toList (dropSlashes rest) then
      some .userAuthenticationToken
    else none

/-- The namespace of the system that a reference leads into, if any. -/
def reserved? (reference : String) : Option SystemSpace :=
  spaceOf? reference.toList

/-- A reference that may be written: one outside the namespaces of the system. -/
def isWritable (reference : String) : Bool :=
  (reserved? reference).isNone

/-- Whether a word and then a key make up a text. -/
def isKeyUnder (word s : List Char) : Bool :=
  match after? word s with
  | some rest => isKeyText rest
  | none => false

/-- A reference of the system that may be read: slashes, then `Bot/` or `Language/` and a key, or
exactly `Dialogue/LastApiStatusCode`. -/
def isSystemRead (reference : String) : Bool :=
  let s := dropSlashes reference.toList
  s == "Dialogue/LastApiStatusCode".toList || isKeyUnder "Bot/".toList s ||
    isKeyUnder "Language/".toList s

/-- A reference that may be read. -/
def isReadable (reference : String) : Bool :=
  isWritable reference || isSystemRead reference

/-- A text of the conversation's language: slashes, then `Language/` and a key. -/
def isLanguage (reference : String) : Bool :=
  isKeyUnder "Language/".toList (dropSlashes reference.toList)

/-- A text without slashes that is not empty. -/
def isSegment (s : List Char) : Bool :=
  !s.isEmpty && !s.contains '/'

/-- A place for a file: a segment, or slashes, `conversation`, slashes and a segment. -/
def isBlob (reference : String) : Bool :=
  let s := reference.toList
  isSegment s ||
    match after? "conversation/".toList (dropSlashes s) with
    | some rest => isSegment (dropSlashes rest)
    | none => false

end Reference

end DialogueLint
