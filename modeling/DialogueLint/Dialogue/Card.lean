import DialogueLint.Dialogue.Exchange

/-!
# Cards

The content of cards: texts, an image, and what happens when the card or one of its buttons is
tapped.
-/

namespace DialogueLint

/-- What happens when a card is tapped. -/
structure TapOptions where
  displayName : String
  output : String
  value : String
  deriving Repr, DecidableEq

/-- The fields of tap options. -/
def TapOptions.read : Reader TapOptions :=
  Fields.object "a tap options object"
    (.mk <$> .required "displayName" .string <*> .required "output" .string <*>
      .required "value" .short)

/-- The buttons of a card. -/
structure ButtonOptions where
  listName : String
  displayName : Option String
  output : String
  deriving Repr, DecidableEq

/-- The fields of button options. -/
def ButtonOptions.read : Reader ButtonOptions :=
  Fields.object "a button options object"
    (.mk <$> .required "listName" .string <*> .optional "displayName" .string <*>
      .required "output" .string)

/-- The content of a card. -/
structure CardContent where
  url : Option String
  title : Option String
  subtitle : Option String
  text : Option String
  image : Option String
  isThumbnail : Option Expression
  retryMessage : Option String
  tapOptions : Option TapOptions
  buttonOptions : Option ButtonOptions
  deriving Repr

/-- The fields of which a card shows at least one. -/
def CardContent.visible : List String :=
  ["title", "subtitle", "text", "image", "tapOptions", "buttonOptions"]

/-- The fields of a card's content, at least one of them visible. -/
def CardContent.read : Reader CardContent :=
  Fields.object "a card content object"
    (.anyOf "card content" visible *>
      (.mk <$> .optional "url" .string <*> .optional "title" .short <*>
        .optional "subtitle" .short <*> .optional "text" .nonEmpty <*>
        .optional "image" .nonEmpty <*> .optional "isThumbnail" .anything <*>
        .optional "retryMessage" .short <*> .optional "tapOptions" TapOptions.read <*>
        .optional "buttonOptions" ButtonOptions.read))

end DialogueLint
