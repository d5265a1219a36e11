import DialogueLint.Dialogue.Message

/-!
# Triggers

What starts a dialogue.
-/

namespace DialogueLint

/-- An event of the system that starts a dialogue. -/
inductive SystemEvent where
  /-- A conversation begins. -/
  | conversationStart
  /-- The user asks for help. -/
  | help
  deriving Repr, DecidableEq

/-- The name of an event. -/
def SystemEvent.name : SystemEvent → String
  | conversationStart => "conversationStart"
  | help => "help"

/-- The events by name. -/
def SystemEvent.choices : List (String × SystemEvent) :=
  [conversationStart, help].map fun e => (e.name, e)

/-- What starts a dialogue. -/
inductive Trigger where
  /-- A file of one of the given types arrives and is stored. -/
  | attachment (contentTypes : List String) (output : String)
  /-- An event of the application arrives; its value may be stored. -/
  | customEvent (name : String) (output : Option String)
  /-- The system reports an event. -/
  | event (event : SystemEvent)
  /-- An intent of the user is recognized. -/
  | intent (intent : String)
  /-- The user sends one of the given messages. -/
  | message (values : List MessageValue)
  /-- Another dialogue starts this one. -/
  | nestedDialogue
  deriving Repr, DecidableEq

namespace Trigger

/-- The name of a trigger's type. -/
def typeName : Trigger → String
  | attachment .. => "attachment"
  | customEvent .. => "customEvent"
  | event .. => "event"
  | intent .. => "intent"
  | message .. => "message"
  | nestedDialogue => "nestedDialogue"

/-- The types of triggers and their fields. -/
def variants : Variants Trigger where
  union := "trigger"
  plans :=
    [("attachment", attachment <$> .required "contentTypes" ContentTypes.read <*>
        .required "output" .blob),
      ("customEvent", customEvent <$> .required "name" .string <*> .optional "output" .string),
      ("event", event <$> .required "event" (.oneOf SystemEvent.choices)),
      ("intent", intent <$> .required "intent" .string),
      ("message", message <$>
        .required "values" (.arrayOf "an array of messages" MessageValue.read)),
      ("nestedDialogue", pure nestedDialogue)]

/-- A trigger, read by its type. -/
def read : Reader Trigger := variants.read

end Trigger

end DialogueLint
