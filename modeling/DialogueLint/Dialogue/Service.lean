import DialogueLint.Reading.Fields

/-!
# Services

The requests that actions make, with or without a method and a body.
-/

namespace DialogueLint

/-- The method of a request. -/
inductive HttpMethod where
  | get
  | put
  | post
  | delete
  deriving Repr, DecidableEq

/-- The name of a method. -/
def HttpMethod.name : HttpMethod → String
  | get => "GET"
  | put => "PUT"
  | post => "POST"
  | delete => "DELETE"

/-- The methods by name. -/
def HttpMethod.choices : List (String × HttpMethod) :=
  [get, put, post, delete].map fun m => (m.name, m)

/-- A request. -/
structure Service where
  url : String
  headers : Option (Members String)
  method : Option HttpMethod
  body : Option (Members Json)
  deriving Repr

namespace Service

/-- Headers: texts under names that are not empty. -/
def readHeaders : Reader (Members String) :=
  .mapOf "a headers object" (.keyed (fun name => name != "") .string)

/-- The fields of a request with a method. -/
def read : Reader Service :=
  Fields.object "a service object"
    (.mk <$> .required "url" .string <*> .optional "headers" readHeaders <*>
      (some <$> .required "method" (.oneOf HttpMethod.choices)) <*> .optional "body" .object)

/-- The fields of a download. -/
def readDownload : Reader Service :=
  Fields.object "a service object"
    ((fun url headers => ⟨url, headers, none, none⟩) <$> .required "url" .string <*>
      .optional "headers" readHeaders)

end Service

end DialogueLint
