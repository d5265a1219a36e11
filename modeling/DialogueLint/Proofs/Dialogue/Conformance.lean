import DialogueLint.Dialogue.Definition
import DialogueLint.Proofs.Dialogue.Schema
import DialogueLint.Proofs.Reading.Closure

/-!
# Reading accepts the schema

Every reader of a part of a dialogue accepts the form that the schema gives for the part, every plan
follows the rules for its fields, and so reading a document reports nothing exactly for the
documents of the schema (`draft_clean_iff_document`).

The lemmas come in three forms. A reader that accepts a form (`Accepts`) settles for each value
whether there is anything to report; one that reads a closed object by rules (`ReadsClosed`) says in
addition which rules its fields follow; variants follow a table of rules (`Follows`). All are put
together from the lemmas about the combinators, in the order of the fields, so that a change of one
field touches one lemma. The few readers that are no combination of others have proofs of their own:
content types, which look at what was seen before, and the array of nodes, which has a result in any
case.
-/

namespace DialogueLint

open Fields Reader

/-! ## Values -/

/-- Keys are read exactly if they have the pattern of keys. -/
lemma Reader.key_accepts : Accepts key Schema.key :=
  matching_accepts fun _ => Reference.isKey_iff

/-- Places of files are read exactly if they have the pattern of such places. -/
lemma Reader.blob_accepts : Accepts blob Schema.blob :=
  matching_accepts fun _ => Reference.isBlob_iff

/-- A language is referred to in an object by its only field. -/
lemma MessageValue.readLanguage_closed : ReadsClosed readLanguage Schema.language :=
  .object (required_follows (matching_accepts fun _ => Reference.isLanguage_iff))

/-- A string is no object, so it refers to no language. -/
lemma Schema.not_language_string {s : String} : ¬ Schema.language (.string s) := by
  rintro ⟨members, h, -⟩
  cases h

/-- An object is no short text. -/
lemma Schema.not_short_object {members : Members Json} : ¬ Schema.short (.object members) := by
  rintro ⟨s, h, -⟩
  cases h

/-- A message is a short text or an object that refers to a language, and no value is both. -/
lemma MessageValue.read_accepts : Accepts read Schema.messageValue := by
  intro path v
  cases v with
  | string s =>
    refine ((short_accepts path (.string s)).map _).iff ?_
    rw [Schema.messageValue, Form.either, or_iff_left Schema.not_language_string, Schema.short]
  | object members =>
    refine ((readLanguage_closed.accepts path (.object members)).map _).iff ?_
    rw [Schema.messageValue, Form.either, or_iff_right Schema.not_short_object]
  | null | bool b | number n | array items =>
    refine Outcome.settles_fail ?_ rfl trivial
    simp [Schema.messageValue, Form.either, Schema.short, Form.textOf, Form.text, Schema.language,
      Form.closed]

/-- A variable is looked up in an object by its only field. -/
lemma Lookup.read_closed : ReadsClosed read Schema.lookup :=
  .object ((required_follows string_accepts).map _)

/-- A successor is a number or `null`. Whether there is such a node is not asked here. -/
lemma Successor.read_accepts : Accepts read Schema.successor := by
  intro path v
  cases v with
  | null => exact Outcome.settles_ok (.inl rfl)
  | number n => exact Outcome.settles_ok (.inr ⟨n, rfl⟩)
  | _ => exact wrongType_settles (by simp [Schema.successor, Form.orNull, Form.number])

/-- Custom content is an object of a type and of content. -/
lemma CustomContent.read_closed : ReadsClosed read Schema.customContent :=
  .object (((required_follows string_accepts).map _).seq (required_follows object_accepts))

/-- A property is a string or an array of at least one string. -/
lemma PropertyValue.read_accepts :
    Accepts read (.either .string (.someOf .string)) := by
  intro path v
  cases v with
  | string s => exact Outcome.settles_ok (.inl ⟨s, rfl, trivial⟩)
  | array values =>
    cases values with
    | nil =>
      refine Outcome.settles_fail ?_ rfl trivial
      simp [Form.either, Form.someOf, Form.string, Form.text]
    | cons value values =>
      refine ((string_accepts.items path (value :: values)).map _).iff ?_
      simp [Form.either, Form.someOf, Form.string, Form.text]
  | null | bool b | number n | object members =>
    refine Outcome.settles_fail ?_ rfl trivial
    simp [Form.either, Form.someOf, Form.string, Form.text]

/-- Properties are a map under any keys. -/
lemma Properties.read_accepts : Accepts read Schema.properties :=
  mapOf_accepts PropertyValue.read_accepts.members

/-- Inputs are a map of anything under keys of the pattern. -/
lemma Inputs.read_accepts : Accepts read Schema.inputs :=
  mapOf_accepts (anything_accepts.keyed fun _ => Reference.isKey_iff)

/-- Outputs are a map of variables under any keys. -/
lemma Outputs.read_accepts : Accepts read Schema.outputs :=
  mapOf_accepts Lookup.read_closed.accepts.members

/-- Headers are a map of strings under keys that are not empty. -/
lemma Service.readHeaders_accepts : Accepts readHeaders Schema.headers :=
  mapOf_accepts (string_accepts.keyed fun _ => by simp)

/-- A request is an object with a method. -/
lemma Service.read_closed : ReadsClosed read Schema.service :=
  .object (((((required_follows string_accepts).map _).seq
    (optional_follows readHeaders_accepts)).seq
    ((required_follows oneOf_accepts).map some)).seq (optional_follows object_accepts))

/-- A request of a download is an object without a method and without a body. -/
lemma Service.readDownload_closed : ReadsClosed readDownload Schema.download :=
  .object (((required_follows string_accepts).map _).seq (optional_follows readHeaders_accepts))

/-- What happens on a tap is an object of three fields. -/
lemma TapOptions.read_closed : ReadsClosed read Schema.tapOptions :=
  .object ((((required_follows string_accepts).map _).seq (required_follows string_accepts)).seq
    (required_follows short_accepts))

/-- Buttons are an object of a list, of an output and perhaps of a name for what is shown. -/
lemma ButtonOptions.read_closed : ReadsClosed read Schema.buttonOptions :=
  .object ((((required_follows string_accepts).map _).seq (optional_follows string_accepts)).seq
    (required_follows string_accepts))

/-- What is computed from a chosen item is an object of an expression and a reference. -/
lemma OutputOperation.read_closed : ReadsClosed read Schema.outputOperation :=
  .object (((required_follows anything_accepts).map _).seq (required_follows string_accepts))

/-- Whether values are strings, of which none occurs twice and none was seen before. -/
def ContentTypes.AreFresh (seen : List String) (values : List Json) : Prop :=
  ∃ texts : List String, values = texts.map .string ∧ texts.Nodup ∧ ∀ t ∈ texts, t ∉ seen

/-- A string is fresh in front of strings that stay fresh behind it. -/
lemma ContentTypes.areFresh_cons {seen : List String} {text : String} {values : List Json} :
    AreFresh seen (.string text :: values) ↔ text ∉ seen ∧ AreFresh (text :: seen) values := by
  constructor
  · rintro ⟨texts, htexts, distinct, unseen⟩
    cases texts with
    | nil => simp at htexts
    | cons t texts =>
      simp only [List.map_cons, List.cons.injEq, Json.string.injEq] at htexts
      obtain ⟨rfl, rfl⟩ := htexts
      obtain ⟨absent, distinct⟩ := List.nodup_cons.mp distinct
      obtain ⟨new, unseen⟩ := List.forall_mem_cons.mp unseen
      refine ⟨new, texts, rfl, distinct, fun s mem => ?_⟩
      rw [List.mem_cons, not_or]
      exact ⟨fun same => absent (same ▸ mem), unseen s mem⟩
  · rintro ⟨new, texts, rfl, distinct, unseen⟩
    simp only [List.mem_cons, not_or] at unseen
    refine ⟨text :: texts, rfl, ?_, ?_⟩
    · exact List.nodup_cons.mpr ⟨fun mem => (unseen text mem).1 rfl, distinct⟩
    · exact List.forall_mem_cons.mpr ⟨new, fun t mem => (unseen t mem).2⟩

/-- Only strings are fresh. -/
lemma ContentTypes.not_areFresh {seen : List String} {value : Json} {values : List Json}
    (h : ∀ s, value ≠ .string s) : ¬ AreFresh seen (value :: values) := by
  rintro ⟨texts, htexts, -⟩
  cases texts with
  | nil => simp at htexts
  | cons t texts => exact h t (List.cons.inj htexts).1

/-- Content types behind those already seen are read if they are fresh. -/
lemma ContentTypes.readFrom_settles {path : Pointer} {items : List Json} {index : Nat}
    {seen : List String} {values : List Json}
    (behind : ∀ i v, values[i]? = some v → items[index + i]? = some v) :
    (Outcome.all (readFrom path index seen values)).Settles path (.array items)
      (AreFresh seen values) := by
  induction values generalizing index seen with
  | nil => exact Outcome.settles_ok ⟨[], rfl, .nil, by simp⟩
  | cons value values ih =>
    -- `values` are the items from `index` on
    have found : items[index]? = some value := behind 0 value rfl
    have rest : ∀ i v, values[i]? = some v → items[index + 1 + i]? = some v := by
      intro i v h
      rw [show index + 1 + i = index + (i + 1) by omega]
      exact behind (i + 1) v h
    cases value with
    | string text =>
      have first : (if seen.contains text then
          .fail (path.item index) (.cardinalityMismatch "unique content types"
            (Text.quote text ++ " more than once"))
          else .ok text : Outcome String).Settles (path.item index) (.string text)
            (text ∉ seen) := by
        split_ifs with known
        · exact Outcome.settles_fail (by simpa using known) rfl trivial
        · exact Outcome.settles_ok (by simpa using known)
      exact ((first.item found).zipWith (ih rest) _).iff areFresh_cons.symm
    | null | bool b | number n | array _ | object _ =>
      have first : (wrongType "a string" (path.item index) _ : Outcome String).Settles path
          (.array items) False := (wrongType_settles not_false).item found
      -- the items behind a value that is no string are read all the same
      refine (first.zipWith (ih rest) _).iff ?_
      simp [not_areFresh]

/-- Content types are an array of at least one string in which no string occurs twice. -/
lemma ContentTypes.read_accepts : Accepts read .distinctTexts := by
  intro path v
  cases v with
  | array values =>
    cases values with
    | nil =>
      refine Outcome.settles_fail ?_ rfl trivial
      simp [Form.distinctTexts]
    | cons value values =>
      refine (readFrom_settles (by simp)).iff ?_
      simp only [AreFresh, Form.distinctTexts, Json.array.injEq]
      refine exists_congr fun texts => and_congr_right fun htexts => ?_
      have some_text : texts ≠ [] := by
        rintro rfl
        simp at htexts
      simp [some_text]
  | _ => exact wrongType_settles (by simp [Form.distinctTexts])

/-- The content of a card is a closed object in which at least one visible field is there. -/
lemma CardContent.read_closed : ReadsClosed read Schema.cardContent :=
  .anyOf <| (optional_follows string_accepts).map CardContent.mk
    |>.seq (optional_follows short_accepts)
    |>.seq (optional_follows short_accepts)
    |>.seq (optional_follows nonEmpty_accepts)
    |>.seq (optional_follows nonEmpty_accepts)
    |>.seq (optional_follows anything_accepts)
    |>.seq (optional_follows short_accepts)
    |>.seq (optional_follows TapOptions.read_closed.accepts)
    |>.seq (optional_follows ButtonOptions.read_closed.accepts)

/-! ## Triggers -/

/-- The plan for each type of trigger follows the rules that the schema gives for the type. -/
lemma Trigger.variants_follow : Trigger.variants.Follows Schema.triggers := by
  refine .cons ⟨rfl, ?attachment⟩ <| .cons ⟨rfl, ?customEvent⟩ <| .cons ⟨rfl, ?event⟩ <|
    .cons ⟨rfl, ?intent⟩ <| .cons ⟨rfl, ?message⟩ <| .cons ⟨rfl, ?nestedDialogue⟩ .nil
  case attachment =>
    exact (required_follows ContentTypes.read_accepts).map _ |>.seq (required_follows blob_accepts)
  case customEvent =>
    exact (required_follows string_accepts).map _ |>.seq (optional_follows string_accepts)
  case event => exact (required_follows oneOf_accepts).map _
  case intent => exact (required_follows string_accepts).map _
  case message => exact (required_follows (arrayOf_accepts MessageValue.read_accepts)).map _
  case nestedDialogue => exact pure_follows

/-- Triggers are read exactly if they have the form of their type. -/
lemma Trigger.read_accepts : Accepts read (.tagged Schema.triggers) :=
  variants_follow.accepts (by decide)

/-! ## Nodes -/

/-- The field for the node that comes next follows its rule. -/
lemma nextField_follows : nextField.Follows [Schema.next] :=
  required_follows Successor.read_accepts

/-- The parts of an answer are two fields of an object that may be absent. -/
lemma outputParts_follows {α β : Type} {first : Fields (Option α)} {second : Fields (Option β)}
    {rules more : List FieldRule} (hf : first.Follows rules) (hs : second.Follows more) :
    (outputParts first second).Follows [.may "outputs" (.closed (rules ++ more))] :=
  (optional_follows ((hf.map _).seq hs).object).map _

/-- Simple questions of all kinds follow the same rules. -/
lemma SimplePrompt.fields_follow {kind : PromptKind} :
    (SimplePrompt.fields kind).Follows Schema.simplePrompt :=
  (required_follows short_accepts).map _
    |>.seq (required_follows short_accepts)
    |>.seq (optional_follows CustomContent.read_closed.accepts)
    |>.seq (required_follows string_accepts)
    |>.seq (optional_follows anything_accepts)
    |>.seq nextField_follows

/-- An action has a request and perhaps outputs for the parts of the answer. -/
lemma Action.fields_follow : Action.fields.Follows
    [.must "service" Schema.service,
      .may "outputs" (.closed [.may "body" Schema.properties, .may "header" Schema.properties]),
      Schema.next] :=
  (required_follows Service.read_closed.accepts).map _
    |>.seq (outputParts_follows (optional_follows Properties.read_accepts)
      (optional_follows Properties.read_accepts))
    |>.seq nextField_follows

/-- A download has a request without a body, and perhaps outputs for the parts of the answer. -/
lemma DownloadAction.fields_follow : DownloadAction.fields.Follows
    [.must "service" Schema.download,
      .may "outputs" (.closed [.may "content" Schema.blob, .may "header" Schema.properties]),
      Schema.next] :=
  (required_follows Service.readDownload_closed.accepts).map _
    |>.seq (outputParts_follows (optional_follows blob_accepts)
      (optional_follows Properties.read_accepts))
    |>.seq nextField_follows

/-- The plan for each type of node follows the rules that the schema gives for the type. -/
lemma Node.variants_follow : Node.variants.Follows Schema.nodes := by
  refine .cons ⟨rfl, ?action⟩ <| .cons ⟨rfl, ?attachmentPrompt⟩ <| .cons ⟨rfl, ?card⟩ <|
    .cons ⟨rfl, ?cardCollection⟩ <| .cons ⟨rfl, ?choicePrompt⟩ <|
    .cons ⟨rfl, ?confirmationPrompt⟩ <| .cons ⟨rfl, ?customCardCollection⟩ <|
    .cons ⟨rfl, ?customEvent⟩ <| .cons ⟨rfl, SimplePrompt.fields_follow.map _⟩ <|
    .cons ⟨rfl, SimplePrompt.fields_follow.map _⟩ <| .cons ⟨rfl, ?decision⟩ <|
    .cons ⟨rfl, ?dialogue⟩ <| .cons ⟨rfl, ?downloadAction⟩ <| .cons ⟨rfl, ?event⟩ <|
    .cons ⟨rfl, ?message⟩ <| .cons ⟨rfl, SimplePrompt.fields_follow.map _⟩ <|
    .cons ⟨rfl, ?operation⟩ <| .cons ⟨rfl, ?repeatDialogue⟩ <|
    .cons ⟨rfl, ?sequenceDialogue⟩ <| .cons ⟨rfl, SimplePrompt.fields_follow.map _⟩ <|
    .cons ⟨rfl, SimplePrompt.fields_follow.map _⟩ .nil
  case action => exact Action.fields_follow.map _
  case attachmentPrompt =>
    exact Follows.map ((optional_follows ContentTypes.read_accepts).map _
      |>.seq (required_follows short_accepts)
      |>.seq (required_follows short_accepts)
      |>.seq (optional_follows CustomContent.read_closed.accepts)
      |>.seq (required_follows blob_accepts)
      |>.seq nextField_follows) _
  case card =>
    exact Follows.map ((required_follows CardContent.read_closed.accepts).map _
      |>.seq nextField_follows) _
  case cardCollection =>
    exact Follows.map ((required_follows string_accepts).map _
      |>.seq (required_follows key_accepts)
      |>.seq (required_follows CardContent.read_closed.accepts)
      |>.seq (required_follows string_accepts)
      |>.seq (optional_follows number_accepts)
      |>.seq nextField_follows) _
  case choicePrompt =>
    exact Follows.map ((required_follows short_accepts).map _
      |>.seq (required_follows short_accepts)
      |>.seq (required_follows string_accepts)
      |>.seq (optional_follows string_accepts)
      |>.seq (required_follows string_accepts)
      |>.seq nextField_follows) _
  case confirmationPrompt =>
    exact Follows.map ((required_follows short_accepts).map _
      |>.seq (required_follows short_accepts)
      |>.seq (optional_follows short_accepts)
      |>.seq (optional_follows short_accepts)
      |>.seq (required_follows string_accepts)
      |>.seq nextField_follows) _
  case customCardCollection =>
    exact Follows.map ((required_follows string_accepts).map _
      |>.seq (required_follows key_accepts)
      |>.seq (required_follows CustomContent.read_closed.accepts)
      |>.seq (optional_follows short_accepts)
      |>.seq (optional_follows OutputOperation.read_closed.accepts)
      |>.seq (required_follows string_accepts)
      |>.seq (optional_follows number_accepts)
      |>.seq (optional_follows anything_accepts)
      |>.seq nextField_follows) _
  case customEvent =>
    exact Follows.map ((required_follows string_accepts).map _
      |>.seq (optional_follows Lookup.read_closed.accepts)) _
  case decision =>
    exact Follows.map ((required_follows anything_accepts).map _
      |>.seq (required_follows Successor.read_accepts)
      |>.seq (required_follows Successor.read_accepts)) _
  case dialogue =>
    exact Follows.map ((required_follows nonEmpty_accepts).map _
      |>.seq (optional_follows Inputs.read_accepts)
      |>.seq (optional_follows Outputs.read_accepts)
      |>.seq nextField_follows) _
  case downloadAction => exact DownloadAction.fields_follow.map _
  case event => exact (required_follows oneOf_accepts).map _
  case message =>
    exact Follows.map ((required_follows short_accepts).map _
      |>.seq (optional_follows CustomContent.read_closed.accepts)
      |>.seq nextField_follows) _
  case operation =>
    exact Follows.map ((required_follows anything_accepts).map _
      |>.seq (required_follows string_accepts)
      |>.seq nextField_follows) _
  case repeatDialogue =>
    exact Follows.map ((required_follows nonEmpty_accepts).map _
      |>.seq (required_follows Inputs.read_accepts)
      |>.seq (required_follows Outputs.read_accepts)
      |>.seq (required_follows anything_accepts)
      |>.seq nextField_follows) _
  case sequenceDialogue =>
    exact Follows.map ((required_follows nonEmpty_accepts).map _
      |>.seq (required_follows key_accepts)
      |>.seq (optional_follows Inputs.read_accepts)
      |>.seq (required_follows string_accepts)
      |>.seq nextField_follows) _

/-- Nodes are read exactly if they have the form of their type. -/
lemma Node.read_accepts : Accepts read (.tagged Schema.nodes) :=
  variants_follow.accepts (by decide)

/-- The array of nodes is inspected, but has a result in any case. -/
lemma Node.readAll_inspects : Inspects readAll (.someOf (.tagged Schema.nodes)) := by
  intro path v
  cases v with
  | array values =>
    cases values with
    | nil =>
      refine ⟨by simp [readAll, Form.someOf], List.forall_mem_singleton.mpr ?_⟩
      exact Diagnostic.speaks_here trivial
    | cons value values =>
      have items := read_accepts.items path (value :: values)
      have same : (readAll path (.array (value :: values))).diagnostics =
          (Reader.items read path (value :: values)).diagnostics := by
        rw [Reader.items, Outcome.diagnostics_all]
        rfl
      refine ⟨?_, same ▸ items.located⟩
      rw [same, items.clean]
      simp [Form.someOf]
  | null | bool b | number n | string s | object members =>
    refine ⟨by simp [readAll, Form.someOf], List.forall_mem_singleton.mpr ?_⟩
    exact Diagnostic.speaks_here rfl

/-! ## Documents -/

/-- The fields of a document are inspected by its rules, whether or not one of them has a result. -/
lemma Draft.fields_inspect : Draft.fields.Inspects Schema.document :=
  (required_follows Trigger.read_accepts).inspects.attempt.map _
    |>.seq (required_inspects Node.readAll_inspects).attempt
    |>.seq (required_follows nonEmpty_accepts).inspects.attempt
    |>.seq (optional_follows Properties.read_accepts).inspects.attempt
    |>.seq (optional_follows Properties.read_accepts).inspects.attempt
    |>.seq (optional_follows bool_accepts).inspects.attempt

/-- What is reported about the structure of a document comes from reading its fields. -/
lemma Draft.read_diagnostics {v : Json} :
    (Draft.read v).2 = (Fields.object "a dialogue object" Draft.fields .root v).diagnostics := by
  simp only [Draft.read, Draft.readBehind, List.nil_append]
  split <;> rfl

/-- The structural pass accepts the schema. For every JSON value, reading it as a document reports
nothing exactly if it is a document of the schema: a closed object with all required fields, in
which every field that is there has its form. -/
theorem draft_clean_iff_document (v : Json) : (Draft.read v).2 = [] ↔ Schema.IsDocument v := by
  rw [Draft.read_diagnostics]
  exact (Draft.fields_inspect.object .root v).clean

end DialogueLint
