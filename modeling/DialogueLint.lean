import DialogueLint.Main
import DialogueLint.Proofs.Command.Outcome
import DialogueLint.Proofs.Dialogue.ContentTypes
import DialogueLint.Proofs.Dialogue.Definite
import DialogueLint.Proofs.Integrity.Acceptance
import DialogueLint.Proofs.Integrity.Access
import DialogueLint.Proofs.Integrity.Dangling
import DialogueLint.Proofs.Integrity.Definition
import DialogueLint.Proofs.Integrity.Display
import DialogueLint.Proofs.Integrity.Distinct
import DialogueLint.Proofs.Integrity.Files
import DialogueLint.Proofs.Integrity.Isolation
import DialogueLint.Proofs.Integrity.Lines
import DialogueLint.Proofs.Integrity.Relocation
import DialogueLint.Proofs.Integrity.RoundTrip
import DialogueLint.Proofs.Integrity.Stray
import DialogueLint.Proofs.Json.Name
import DialogueLint.Proofs.Pointer.Tokens
import DialogueLint.Proofs.Reading.Account
import DialogueLint.Proofs.Typing.Arguments
import DialogueLint.Proofs.Typing.Narrowing
import DialogueLint.Proofs.Typing.Replacement
import DialogueLint.Proofs.Typing.Spelling
