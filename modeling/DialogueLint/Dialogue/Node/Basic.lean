import DialogueLint.Dialogue.Card
import DialogueLint.Dialogue.Message
import DialogueLint.Dialogue.Properties
import DialogueLint.Dialogue.Service

/-!
# Nodes

The steps of a dialogue. Each kind of node has a structure of its own; `Node` is their union.
-/

namespace DialogueLint

/-- The index of the node that comes next, as written; without one the dialogue ends. -/
abbrev Successor : Type := Option Number

/-- A request to a service. -/
structure Action where
  service : Service
  bodyOutputs : Option Properties
  headerOutputs : Option Properties
  next : Successor
  deriving Repr

/-- A question that is answered with a file. -/
structure AttachmentPrompt where
  contentTypes : Option (List String)
  message : String
  retryMessage : String
  customContent : Option CustomContent
  output : String
  next : Successor
  deriving Repr

/-- A card that is shown. -/
structure Card where
  content : CardContent
  next : Successor
  deriving Repr

/-- A card for each item of a list, one of which is chosen. -/
structure CardCollection where
  listName : String
  contentItem : String
  content : CardContent
  output : String
  pageSize : Option Number
  next : Successor
  deriving Repr

/-- A question that is answered with an item of a list. -/
structure ChoicePrompt where
  message : String
  retryMessage : String
  listName : String
  displayName : Option String
  output : String
  next : Successor
  deriving Repr, DecidableEq

/-- A question that is answered with yes or no. -/
structure ConfirmationPrompt where
  message : String
  retryMessage : String
  positiveMessage : Option String
  negativeMessage : Option String
  output : String
  next : Successor
  deriving Repr, DecidableEq

/-- What is computed from a chosen item, and where it goes. -/
structure OutputOperation where
  operation : Expression
  output : String
  deriving Repr

/-- A piece of custom content for each item of a list, one of which is chosen. -/
structure CustomCardCollection where
  listName : String
  contentItem : String
  customContent : CustomContent
  retryMessage : Option String
  outputOperation : Option OutputOperation
  output : String
  pageSize : Option Number
  validation : Option Expression
  next : Successor
  deriving Repr

/-- An event of the application, sent at the end of the dialogue. -/
structure CustomEvent where
  name : String
  data : Option Lookup
  deriving Repr, DecidableEq

/-- A choice between two nodes. -/
structure Decision where
  rule : Expression
  pass : Successor
  fail : Successor
  deriving Repr

/-- A call of another dialogue. -/
structure DialogueCall where
  dialogueId : String
  inputs : Option Inputs
  outputs : Option Outputs
  next : Successor
  deriving Repr

/-- A file that is fetched from a service. -/
structure DownloadAction where
  service : Service
  contentOutput : Option String
  headerOutputs : Option Properties
  next : Successor
  deriving Repr

/-- An event of the system that a dialogue ends with. -/
inductive NodeEvent where
  | leaveConversation
  | resetDialogue
  | endDialogue
  | resetAuthentication
  deriving Repr, DecidableEq

/-- The name of an event. -/
def NodeEvent.name : NodeEvent → String
  | leaveConversation => "leaveConversation"
  | resetDialogue => "resetDialogue"
  | endDialogue => "endDialogue"
  | resetAuthentication => "resetAuthentication"

/-- The events by name. -/
def NodeEvent.choices : List (String × NodeEvent) :=
  [leaveConversation, resetDialogue, endDialogue, resetAuthentication].map fun e => (e.name, e)

/-- A message that is sent. -/
structure Message where
  message : String
  customContent : Option CustomContent
  next : Successor
  deriving Repr

/-- An expression whose value is written somewhere. -/
structure Operation where
  operation : Expression
  output : String
  next : Successor
  deriving Repr

/-- A dialogue that is called until a condition holds. -/
structure RepeatDialogue where
  dialogueId : String
  inputs : Inputs
  outputs : Outputs
  repeatUntil : Expression
  next : Successor
  deriving Repr

/-- A dialogue that is called for each item of a list. -/
structure SequenceDialogue where
  dialogueId : String
  inputItem : String
  inputs : Option Inputs
  listName : String
  next : Successor
  deriving Repr

/-- What a simple question is answered with. -/
inductive PromptKind where
  | date
  | dateTime
  | number
  | string
  | time
  deriving Repr, DecidableEq

/-- The name of the node type that asks for an answer. -/
def PromptKind.typeName : PromptKind → String
  | date => "datePrompt"
  | dateTime => "dateTimePrompt"
  | number => "numberPrompt"
  | string => "stringPrompt"
  | time => "timePrompt"

/-- A question that is answered with a value. -/
structure SimplePrompt where
  kind : PromptKind
  message : String
  retryMessage : String
  customContent : Option CustomContent
  output : String
  validation : Option Expression
  next : Successor
  deriving Repr

/-- A step of a dialogue. -/
inductive Node where
  | action (node : Action)
  | attachmentPrompt (node : AttachmentPrompt)
  | card (node : Card)
  | cardCollection (node : CardCollection)
  | choicePrompt (node : ChoicePrompt)
  | confirmationPrompt (node : ConfirmationPrompt)
  | customCardCollection (node : CustomCardCollection)
  | customEvent (node : CustomEvent)
  | decision (node : Decision)
  | dialogue (node : DialogueCall)
  | downloadAction (node : DownloadAction)
  | event (event : NodeEvent)
  | message (node : Message)
  | operation (node : Operation)
  | repeatDialogue (node : RepeatDialogue)
  | sequenceDialogue (node : SequenceDialogue)
  | simplePrompt (node : SimplePrompt)
  deriving Repr

namespace Node

/-- The name of a node's type. -/
def typeName : Node → String
  | action _ => "action"
  | attachmentPrompt _ => "attachmentPrompt"
  | card _ => "card"
  | cardCollection _ => "cardCollection"
  | choicePrompt _ => "choicePrompt"
  | confirmationPrompt _ => "confirmationPrompt"
  | customCardCollection _ => "customCardCollection"
  | customEvent _ => "customEvent"
  | decision _ => "decision"
  | dialogue _ => "dialogue"
  | downloadAction _ => "downloadAction"
  | event _ => "event"
  | message _ => "message"
  | operation _ => "operation"
  | repeatDialogue _ => "repeatDialogue"
  | sequenceDialogue _ => "sequenceDialogue"
  | simplePrompt node => node.kind.typeName

/-- The successors of a node with the fields that hold them. Events end the dialogue and have
none. -/
def successors : Node → List (String × Successor)
  | action node => [("nextNodeIndex", node.next)]
  | attachmentPrompt node => [("nextNodeIndex", node.next)]
  | card node => [("nextNodeIndex", node.next)]
  | cardCollection node => [("nextNodeIndex", node.next)]
  | choicePrompt node => [("nextNodeIndex", node.next)]
  | confirmationPrompt node => [("nextNodeIndex", node.next)]
  | customCardCollection node => [("nextNodeIndex", node.next)]
  | customEvent _ => []
  | decision node => [("passNodeIndex", node.pass), ("failNodeIndex", node.fail)]
  | dialogue node => [("nextNodeIndex", node.next)]
  | downloadAction node => [("nextNodeIndex", node.next)]
  | event _ => []
  | message node => [("nextNodeIndex", node.next)]
  | operation node => [("nextNodeIndex", node.next)]
  | repeatDialogue node => [("nextNodeIndex", node.next)]
  | sequenceDialogue node => [("nextNodeIndex", node.next)]
  | simplePrompt node => [("nextNodeIndex", node.next)]

end Node

end DialogueLint
