import DialogueLint.Reading.Fields

/-!
# Messages

The parts that messages are made of: texts, references to texts of the conversation's language,
custom content, and the content types of attachments.
-/

namespace DialogueLint

/-- A message that a trigger listens to. -/
inductive MessageValue where
  | text (text : String)
  | language (reference : String)
  deriving Repr, DecidableEq

/-- An object whose only field `var` refers to a text of the conversation's language. -/
def MessageValue.readLanguage : Reader String :=
  Fields.object "a language reference" <|
    .required "var" (.matching Reference.isLanguage "^/*Language/[a-zA-Z0-9]\x7b1,128\x7d$")

/-- A short text or a language reference. -/
def MessageValue.read : Reader MessageValue
  | path, .string words => (Reader.short path (.string words)).map .text
  | path, .object members => (readLanguage path (.object members)).map .language
  | path, value => .fail path (.variantNotMatched "message value"
      ("expected text or a language reference, found " ++ value.describe))

/-- Content of a type of its own. -/
structure CustomContent where
  contentType : String
  content : Members Json
  deriving Repr

/-- An object with the fields `contentType` and `content`. -/
def CustomContent.read : Reader CustomContent :=
  Fields.object "a custom content object"
    (.mk <$> .required "contentType" .string <*> .required "content" .object)

namespace ContentTypes

/-- Reads content types behind those already seen. One that was seen before is reported, and the
list has no result then. -/
def readFrom (path : Pointer) : Nat → List String → List Json → List (Outcome String)
  | _, _, [] => []
  | index, seen, .string text :: rest =>
    (if seen.contains text then
      .fail (path.item index) (.cardinalityMismatch "unique content types"
        (Text.quote text ++ " more than once"))
    else .ok text) :: readFrom path (index + 1) (text :: seen) rest
  | index, seen, value :: rest =>
    Reader.string (path.item index) value :: readFrom path (index + 1) seen rest

/-- An array of at least one content type, each of them once. -/
def read : Reader (List String)
  | path, .array [] => .fail path (.cardinalityMismatch "at least 1 content type" "0 items")
  | path, .array values => .all (readFrom path 0 [] values)
  | path, value => Reader.wrongType "an array of content types" path value

end ContentTypes

end DialogueLint
