import DialogueLint.Dialogue.Node.Basic

/-!
# Reading nodes

The fields of each kind of node, in the order in which they are read, and the table of all kinds.
-/

namespace DialogueLint

/-- A number, or `null` where the dialogue ends. -/
def Successor.read : Reader Successor
  | _, .null => .ok none
  | _, .number index => .ok (some index)
  | path, value => Reader.wrongType "a node index or null" path value

/-- The field for the node that comes next. -/
def nextField : Fields Successor := .required "nextNodeIndex" Successor.read

/-- Where the parts of an answer go: two optional fields, both absent if there is no object. -/
def outputParts {α β : Type} (first : Fields (Option α)) (second : Fields (Option β)) :
    Fields (Option α × Option β) :=
  (fun parts => parts.getD (none, none)) <$>
    .optional "outputs" (Fields.object "an outputs object" (Prod.mk <$> first <*> second))

/-- The fields of a request to a service. -/
def Action.fields : Fields Action :=
  (fun service outputs next => ⟨service, outputs.1, outputs.2, next⟩) <$>
    .required "service" Service.read <*>
    outputParts (.optional "body" Properties.read) (.optional "header" Properties.read) <*>
    nextField

/-- The fields of a question that is answered with a file. -/
def AttachmentPrompt.fields : Fields AttachmentPrompt :=
  .mk <$> .optional "contentTypes" ContentTypes.read <*> .required "message" .short <*>
    .required "retryMessage" .short <*> .optional "customContent" CustomContent.read <*>
    .required "output" .blob <*> nextField

/-- The fields of a card that is shown. -/
def Card.fields : Fields Card :=
  .mk <$> .required "content" CardContent.read <*> nextField

/-- The fields of a card for each item of a list. -/
def CardCollection.fields : Fields CardCollection :=
  .mk <$> .required "listName" .string <*> .required "contentItem" .key <*>
    .required "content" CardContent.read <*> .required "output" .string <*>
    .optional "pageSize" .number <*> nextField

/-- The fields of a question that is answered with an item of a list. -/
def ChoicePrompt.fields : Fields ChoicePrompt :=
  .mk <$> .required "message" .short <*> .required "retryMessage" .short <*>
    .required "listName" .string <*> .optional "displayName" .string <*>
    .required "output" .string <*> nextField

/-- The fields of a question that is answered with yes or no. -/
def ConfirmationPrompt.fields : Fields ConfirmationPrompt :=
  .mk <$> .required "message" .short <*> .required "retryMessage" .short <*>
    .optional "positiveMessage" .short <*> .optional "negativeMessage" .short <*>
    .required "output" .string <*> nextField

/-- The fields of what is computed from a chosen item. -/
def OutputOperation.read : Reader OutputOperation :=
  Fields.object "an output operation object"
    (.mk <$> .required "operation" .anything <*> .required "output" .string)

/-- The fields of custom content for each item of a list. -/
def CustomCardCollection.fields : Fields CustomCardCollection :=
  .mk <$> .required "listName" .string <*> .required "contentItem" .key <*>
    .required "customContent" CustomContent.read <*> .optional "retryMessage" .short <*>
    .optional "outputOperation" OutputOperation.read <*> .required "output" .string <*>
    .optional "pageSize" .number <*> .optional "validation" .anything <*> nextField

/-- The fields of an event of the application. -/
def CustomEvent.fields : Fields CustomEvent :=
  .mk <$> .required "name" .string <*> .optional "data" Lookup.read

/-- The fields of a choice between two nodes. -/
def Decision.fields : Fields Decision :=
  .mk <$> .required "rule" .anything <*> .required "passNodeIndex" Successor.read <*>
    .required "failNodeIndex" Successor.read

/-- The fields of a call of another dialogue. -/
def DialogueCall.fields : Fields DialogueCall :=
  .mk <$> .required "dialogueId" .nonEmpty <*> .optional "inputs" Inputs.read <*>
    .optional "outputs" Outputs.read <*> nextField

/-- The fields of a file that is fetched from a service. -/
def DownloadAction.fields : Fields DownloadAction :=
  (fun service outputs next => ⟨service, outputs.1, outputs.2, next⟩) <$>
    .required "service" Service.readDownload <*>
    outputParts (.optional "content" .blob) (.optional "header" Properties.read) <*>
    nextField

/-- The field of an event of the system. -/
def NodeEvent.field : Fields NodeEvent :=
  .required "event" (.oneOf NodeEvent.choices)

/-- The fields of a message that is sent. -/
def Message.fields : Fields Message :=
  .mk <$> .required "message" .short <*> .optional "customContent" CustomContent.read <*>
    nextField

/-- The fields of an expression whose value is written somewhere. -/
def Operation.fields : Fields Operation :=
  .mk <$> .required "operation" .anything <*> .required "output" .string <*> nextField

/-- The fields of a dialogue that is called until a condition holds. -/
def RepeatDialogue.fields : Fields RepeatDialogue :=
  .mk <$> .required "dialogueId" .nonEmpty <*> .required "inputs" Inputs.read <*>
    .required "outputs" Outputs.read <*> .required "repeatUntil" .anything <*> nextField

/-- The fields of a dialogue that is called for each item of a list. -/
def SequenceDialogue.fields : Fields SequenceDialogue :=
  .mk <$> .required "dialogueId" .nonEmpty <*> .required "inputItem" .key <*>
    .optional "inputs" Inputs.read <*> .required "listName" .string <*> nextField

/-- The fields of a question that is answered with a value. -/
def SimplePrompt.fields (kind : PromptKind) : Fields SimplePrompt :=
  .mk kind <$> .required "message" .short <*> .required "retryMessage" .short <*>
    .optional "customContent" CustomContent.read <*> .required "output" .string <*>
    .optional "validation" .anything <*> nextField

namespace Node

/-- The entry of the table of types for a simple question. -/
def promptPlan (kind : PromptKind) : String × Fields Node :=
  (kind.typeName, simplePrompt <$> SimplePrompt.fields kind)

/-- The types of nodes and their fields. -/
def variants : Variants Node where
  union := "node"
  plans :=
    [("action", action <$> Action.fields),
      ("attachmentPrompt", attachmentPrompt <$> AttachmentPrompt.fields),
      ("card", card <$> Card.fields),
      ("cardCollection", cardCollection <$> CardCollection.fields),
      ("choicePrompt", choicePrompt <$> ChoicePrompt.fields),
      ("confirmationPrompt", confirmationPrompt <$> ConfirmationPrompt.fields),
      ("customCardCollection", customCardCollection <$> CustomCardCollection.fields),
      ("customEvent", customEvent <$> CustomEvent.fields),
      promptPlan .date,
      promptPlan .dateTime,
      ("decision", decision <$> Decision.fields),
      ("dialogue", dialogue <$> DialogueCall.fields),
      ("downloadAction", downloadAction <$> DownloadAction.fields),
      ("event", event <$> NodeEvent.field),
      ("message", message <$> Message.fields),
      promptPlan .number,
      ("operation", operation <$> Operation.fields),
      ("repeatDialogue", repeatDialogue <$> RepeatDialogue.fields),
      ("sequenceDialogue", sequenceDialogue <$> SequenceDialogue.fields),
      promptPlan .string,
      promptPlan .time]

/-- A node, read by its type. -/
def read : Reader Node := variants.read

/-- The nodes of an array of at least one node. There is a slot for every item, which is empty if
the item could not be read, so that indices keep their meaning. -/
def readAll : Reader (List (Option Node))
  | path, .array [] => ⟨some [], [⟨path, .cardinalityMismatch "at least 1 node" "0 nodes"⟩]⟩
  | path, .array values =>
    let read := Reader.itemsFrom Node.read path 0 values
    ⟨some (read.map Outcome.result?), read.flatMap Outcome.diagnostics⟩
  | path, value => ⟨some [], [⟨path, .invalidType "an array of nodes" value.describe⟩]⟩

end Node

end DialogueLint
