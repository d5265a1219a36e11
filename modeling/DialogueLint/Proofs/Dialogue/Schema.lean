import DialogueLint.Proofs.Reading.Form
import DialogueLint.Proofs.Reference.Pattern

/-!
# The schema of dialogues

The grammar of documents as forms: the values that fields share, the variants of triggers and of
nodes by type, and the document itself. Nothing here mentions how documents are read; that reading
reports nothing exactly for documents of this form is shown in
`DialogueLint.Proofs.Dialogue.Conformance`.

The forms are predicates on JSON, put together by the constructors of
`DialogueLint.Proofs.Reading.Form`: a closed object says for each field whether it must or may be
there, and which form its value has. The tables of triggers and of nodes list the rules by type, as
the documentation of the format does.
-/

namespace DialogueLint.Schema

open Form FieldRule

/-! ## Values -/

/-- A text of 1 to 320 characters. -/
def short : Form := textOf 1 320

/-- A key: 1 to 128 letters and digits. -/
def key : Form := text fun s => Reference.IsKeyPattern s.toList

/-- A place for a file. -/
def blob : Form := text fun s => Reference.IsBlobPattern s.toList

/-- An object whose only field refers to a text of the conversation's language. -/
def language : Form :=
  closed [must "var" (text fun s => Reference.IsKeyUnderPattern "Language/".toList s.toList)]

/-- A message that is listened to. -/
def messageValue : Form := either short language

/-- A variable that is looked up. -/
def lookup : Form := closed [must "var" string]

/-- The index of a node, or `null` where the dialogue ends. -/
def successor : Form := orNull number

/-- Content of a type of its own. -/
def customContent : Form := closed [must "contentType" string, must "content" object]

/-- References with a text or a list of at least one text each. -/
def properties : Form := mapOf (fun _ => True) (either string (someOf string))

/-- Expressions under keys. -/
def inputs : Form := mapOf (fun k => Reference.IsKeyPattern k.toList) anything

/-- References with a variable each. -/
def outputs : Form := mapOf (fun _ => True) lookup

/-- Texts under names that are not empty. -/
def headers : Form := mapOf (fun name => name ≠ "") string

/-- A request with a method. -/
def service : Form :=
  closed [must "url" string, may "headers" headers,
    must "method" (oneOf ["GET", "PUT", "POST", "DELETE"]), may "body" object]

/-- A request of a download. -/
def download : Form := closed [must "url" string, may "headers" headers]

/-- What happens when a card is tapped. -/
def tapOptions : Form :=
  closed [must "displayName" string, must "output" string, must "value" short]

/-- The buttons of a card. -/
def buttonOptions : Form :=
  closed [must "listName" string, may "displayName" string, must "output" string]

/-- The content of a card: closed, and at least one part of it is visible. -/
def cardContent : Form := fun v =>
  closed [may "url" string, may "title" short, may "subtitle" short, may "text" nonEmptyText,
    may "image" nonEmptyText, may "isThumbnail" anything, may "retryMessage" short,
    may "tapOptions" tapOptions, may "buttonOptions" buttonOptions] v ∧
  withOneOf ["title", "subtitle", "text", "image", "tapOptions", "buttonOptions"] v

/-- What is computed from a chosen item. -/
def outputOperation : Form := closed [must "operation" anything, must "output" string]

/-! ## Triggers -/

/-- The types of triggers with their fields. -/
def triggers : List (String × List FieldRule) :=
  [("attachment", [must "contentTypes" distinctTexts, must "output" blob]),
    ("customEvent", [must "name" string, may "output" string]),
    ("event", [must "event" (oneOf ["conversationStart", "help"])]),
    ("intent", [must "intent" string]),
    ("message", [must "values" (arrayOf messageValue)]),
    ("nestedDialogue", [])]

/-! ## Nodes -/

/-- The field for the node that comes next. -/
def next : FieldRule := must "nextNodeIndex" successor

/-- The fields of a simple question. -/
def simplePrompt : List FieldRule :=
  [must "message" short, must "retryMessage" short, may "customContent" customContent,
    must "output" string, may "validation" anything, next]

/-- The types of nodes with their fields. -/
def nodes : List (String × List FieldRule) :=
  [("action", [must "service" service,
      may "outputs" (closed [may "body" properties, may "header" properties]), next]),
    ("attachmentPrompt", [may "contentTypes" distinctTexts, must "message" short,
      must "retryMessage" short, may "customContent" customContent, must "output" blob, next]),
    ("card", [must "content" cardContent, next]),
    ("cardCollection", [must "listName" string, must "contentItem" key,
      must "content" cardContent, must "output" string, may "pageSize" number, next]),
    ("choicePrompt", [must "message" short, must "retryMessage" short, must "listName" string,
      may "displayName" string, must "output" string, next]),
    ("confirmationPrompt", [must "message" short, must "retryMessage" short,
      may "positiveMessage" short, may "negativeMessage" short, must "output" string, next]),
    ("customCardCollection", [must "listName" string, must "contentItem" key,
      must "customContent" customContent, may "retryMessage" short,
      may "outputOperation" outputOperation, must "output" string, may "pageSize" number,
      may "validation" anything, next]),
    ("customEvent", [must "name" string, may "data" lookup]),
    ("datePrompt", simplePrompt),
    ("dateTimePrompt", simplePrompt),
    ("decision", [must "rule" anything, must "passNodeIndex" successor,
      must "failNodeIndex" successor]),
    ("dialogue", [must "dialogueId" nonEmptyText, may "inputs" inputs, may "outputs" outputs,
      next]),
    ("downloadAction", [must "service" download,
      may "outputs" (closed [may "content" blob, may "header" properties]), next]),
    ("event", [must "event" (oneOf ["leaveConversation", "resetDialogue", "endDialogue",
      "resetAuthentication"])]),
    ("message", [must "message" short, may "customContent" customContent, next]),
    ("numberPrompt", simplePrompt),
    ("operation", [must "operation" anything, must "output" string, next]),
    ("repeatDialogue", [must "dialogueId" nonEmptyText, must "inputs" inputs,
      must "outputs" outputs, must "repeatUntil" anything, next]),
    ("sequenceDialogue", [must "dialogueId" nonEmptyText, must "inputItem" key,
      may "inputs" inputs, must "listName" string, next]),
    ("stringPrompt", simplePrompt),
    ("timePrompt", simplePrompt)]

/-! ## Documents -/

/-- The fields of a document. -/
def document : List FieldRule :=
  [must "trigger" (tagged triggers), must "nodes" (someOf (tagged nodes)),
    must "id" nonEmptyText, may "model" properties, may "entities" properties,
    may "background" bool]

/-- A document of a dialogue. -/
def IsDocument : Form := closed document

end DialogueLint.Schema
