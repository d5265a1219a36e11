import DialogueLint.Proofs.Integrity.Regular
import DialogueLint.Proofs.Integrity.Successors
import DialogueLint.Proofs.Reference.Language
import DialogueLint.Validation

/-!
# Places for files

Attachment triggers, attachment prompts and downloads store files. The references they store them
under are written, but no demand says so: whatever could be read there is a blob reference
(`Trigger.files_blobs`, `Node.files_blobs`), and these are outside the namespaces of the system. So
a validation that made the demands as well would report nothing more (`blob_exact`).

What the readers let through is described by the language of blob references, and each plan that
stores a file is followed to the field that holds the reference (`Fields.Gives`). The demands that
are missing are then made by hand (`fileDemands`) and seen to be met, so that adding them behind the
others changes no report.
-/

namespace DialogueLint

open Demands (ifPresent)

/-! ## Demands that are not made -/

/-- A trigger writes the file that starts the dialogue. -/
def Trigger.fileDemands : Trigger → Demands
  | attachment _ output => Demands.writes "output" output
  | _ => []

/-- A node writes the file that it asks for or fetches. -/
def Node.fileDemands : Node → Demands
  | attachmentPrompt node => Demands.writes "output" node.output
  | downloadAction node =>
    ifPresent node.contentOutput fun output => (Demands.writes "content" output).under ["outputs"]
  | _ => []

/-- The files that nodes write. -/
def Node.allFileDemands (nodes : List (Option Node)) : Demands :=
  nodes.zipIdx.flatMap fun (node, index) =>
    ifPresent node fun node => node.fileDemands.under [toString index]

/-- The files that the parts of a document write. -/
def Draft.fileDemands (draft : Draft) : Demands :=
  ifPresent draft.trigger (fun trigger => trigger.fileDemands.under ["trigger"]) ++
    (Node.allFileDemands draft.nodes).under ["nodes"]

/-! ## Blob references -/

/-- A blob reference may be written. -/
lemma Reference.reserved?_of_isBlob {r : String} (blob : isBlob r) : reserved? r = none :=
  reserved?_of_isBlobPattern (isBlob_iff.mp blob)

/-- Nothing is demanded but that blob references are written. -/
def Demands.Blobs (demands : Demands) : Prop :=
  ∀ entry ∈ demands, ∃ r, entry.2 = .writes r ∧ Reference.isBlob r

namespace Demands.Blobs

variable {demands others : Demands} {r : String}

/-- No demands at all are demands on blob references. -/
lemma nil : Blobs [] :=
  nofun

/-- A blob reference that is written is such a demand. -/
lemma writes {name : String} (blob : Reference.isBlob r) : (Demands.writes name r).Blobs :=
  List.forall_mem_singleton.mpr ⟨r, rfl, blob⟩

/-- Moving demands below a part does not change the references. -/
lemma under {tokens : List String} (h : demands.Blobs) : (demands.under tokens).Blobs := by
  intro entry mem
  obtain ⟨made, listed, rfl⟩ := List.mem_map.mp mem
  exact h made listed

/-- Demands together are on blob references if both are. -/
lemma append (h : demands.Blobs) (more : others.Blobs) : Blobs (demands ++ others) :=
  List.forall_mem_append.mpr ⟨h, more⟩

/-- Demands of a part that may be absent are on blob references if those of the part are. -/
lemma ifPresent {α : Type} {part : Option α} {made : α → Demands}
    (h : ∀ a, part = some a → (made a).Blobs) : (Demands.ifPresent part made).Blobs := by
  cases part with
  | none => exact nofun
  | some a => exact h a rfl

/-- There is nothing to say about blob references that are written. -/
lemma check {limit : Nat} {path : Pointer} (h : demands.Blobs) : demands.check limit path = [] := by
  refine List.flatMap_eq_nil_iff.mpr fun entry mem => ?_
  obtain ⟨r, written, blob⟩ := h entry mem
  simp only [written, Demand.check, Reference.reserved?_of_isBlob blob]

end Demands.Blobs

/-! ## What is read is a blob reference -/

section Read

variable {path : Pointer} {members : Members Json} {v : Json}

/-- What is read as a place for a file is a blob reference. -/
lemma Reader.blob_result {r : String} (h : (blob path v).result? = some r) :
    Reference.isBlob r := by
  cases v with
  | string s =>
    simp only [blob, matching, andThen, string, Outcome.andThen, Outcome.ok] at h
    split_ifs at h with test
    · cases h
      exact test
    · cases h
  | _ => cases h

/-- A prompt for attachments that was read stores them under a blob reference. -/
lemma AttachmentPrompt.fields_give : fields.Gives fun node => Reference.isBlob node.output := by
  intro path members node result
  have parts := Fields.yields_of_result result
  simp only [fields, Fields.yields_seq, Fields.yields_map] at parts
  obtain ⟨types, -, message, -, retry, -, content, -, output, found, next, -, rfl⟩ := parts
  obtain ⟨v, -, found⟩ := Fields.required_result.mp found
  exact Reader.blob_result found

/-- A download that was read stores its content, if at all, under a blob reference. -/
lemma DownloadAction.fields_give :
    fields.Gives fun node => ∀ r, node.contentOutput = some r → Reference.isBlob r := by
  intro path members node result r stored
  have parts := Fields.yields_of_result result
  simp only [fields, outputParts, Fields.yields_seq, Fields.yields_map] at parts
  obtain ⟨service, -, outputs?, found, next, -, rfl⟩ := parts
  -- the reference stands in an object of its own, and both may be absent
  rcases Fields.optional_result.mp found with ⟨-, rfl⟩ | ⟨v, outputs, -, given, rfl⟩
  · cases stored
  · obtain ⟨inner, -, result⟩ := Fields.object_result.mp given
    have parts := Fields.yields_of_result result
    simp only [Fields.yields_seq, Fields.yields_map] at parts
    obtain ⟨content?, part, header, -, rfl⟩ := parts
    rcases Fields.optional_result.mp part with ⟨-, rfl⟩ | ⟨w, content, -, text, rfl⟩
    · cases stored
    · cases stored
      exact Reader.blob_result text

/-- Of every type, a trigger that was read stores files under blob references only. -/
lemma Trigger.plans_give : ∀ entry ∈ variants.plans,
    entry.2.Gives fun trigger => trigger.fileDemands.Blobs := by
  simp only [variants, List.forall_mem_cons, List.not_mem_nil, false_implies, implies_true,
    and_true]
  refine ⟨?attachment, .seq (.map fun _ _ => .nil), .map fun _ => .nil, .map fun _ => .nil,
    .map fun _ => .nil, ?nestedDialogue⟩
  case attachment =>
    intro path members trigger result
    have parts := Fields.yields_of_result result
    simp only [Fields.yields_seq, Fields.yields_map] at parts
    obtain ⟨types, -, output, found, rfl⟩ := parts
    obtain ⟨v, -, found⟩ := Fields.required_result.mp found
    exact .writes (Reader.blob_result found)
  case nestedDialogue =>
    intro path members trigger result
    cases result
    exact .nil

/-- Of every type, a node that was read stores files under blob references only. -/
lemma Node.plans_give : ∀ entry ∈ variants.plans,
    entry.2.Gives fun node => node.fileDemands.Blobs := by
  have silent : ∀ {α : Type} {plan : Fields α} {kind : α → Node},
      (∀ a, (kind a).fileDemands = []) → (kind <$> plan).Gives fun node => node.fileDemands.Blobs :=
    fun h => .map fun a => h a ▸ .nil
  simp only [variants, promptPlan, List.forall_mem_cons, List.not_mem_nil, false_implies,
    implies_true, and_true]
  -- only two kinds of nodes store files
  refine ⟨?_, ?attachmentPrompt, ?_, ?_, ?_, ?_, ?_, ?_, ?_, ?_, ?_, ?_, ?downloadAction, ?_, ?_,
    ?_, ?_, ?_, ?_, ?_, ?_⟩
  case attachmentPrompt =>
    intro path members _ result
    obtain ⟨node, found, rfl⟩ := Fields.yields_map.mp (Fields.yields_of_result result)
    exact .writes (AttachmentPrompt.fields_give path members node found)
  case downloadAction =>
    intro path members _ result
    obtain ⟨node, found, rfl⟩ := Fields.yields_map.mp (Fields.yields_of_result result)
    exact .ifPresent fun r stored =>
      .under (.writes (DownloadAction.fields_give path members node found r stored))
  all_goals exact silent fun _ => rfl

/-- What is read by a type is what a plan of the table gives. -/
lemma Variants.read_gives {α : Type} {variants : Variants α} {P : α → Prop} {a : α}
    (plans : ∀ entry ∈ variants.plans, entry.2.Gives P)
    (h : (variants.read path v).result? = some a) : P a := by
  obtain ⟨members, type, plan, -, -, known, found⟩ := Variants.read_result.mp h
  exact plans (type, plan) (Members.mem_of_get? known) path members a found

/-- A trigger that was read stores files under blob references only. -/
lemma Trigger.files_blobs {trigger : Trigger} (h : (read path v).result? = some trigger) :
    trigger.fileDemands.Blobs :=
  Variants.read_gives (a := trigger) plans_give h

/-- A node that was read stores files under blob references only. -/
lemma Node.files_blobs {node : Node} (h : (read path v).result? = some node) :
    node.fileDemands.Blobs :=
  Variants.read_gives (a := node) plans_give h

/-- Every slot of an array of nodes is empty or holds a node that was read. -/
lemma Node.readAll_slots {nodes : List (Option Node)}
    (h : (readAll path v).result? = some nodes) {node : Node} (mem : some node ∈ nodes) :
    ∃ place item, (read place item).result? = some node := by
  cases v with
  | array items =>
    cases (readAll_array path items).symm.trans h
    obtain ⟨item, -, found⟩ := List.mem_map.mp mem
    exact ⟨path.item item.2, item.1, found⟩
  | _ =>
    cases h
    cases mem

/-- All nodes that could be read store files under blob references only. -/
lemma Node.allFiles_blobs {nodes : List (Option Node)}
    (h : (readAll path v).result? = some nodes) : (allFileDemands nodes).Blobs := by
  intro entry mem
  obtain ⟨⟨slot, index⟩, listed, mem⟩ := List.mem_flatMap.mp mem
  have blobs : (ifPresent slot fun node => node.fileDemands.under [toString index]).Blobs := by
    refine .ifPresent fun node occupied => .under ?_
    subst occupied
    obtain ⟨place, item, found⟩ := readAll_slots h (List.fst_mem_of_mem_zipIdx listed)
    exact files_blobs found
  exact blobs entry mem

/-- The parts of a document that could be read store files under blob references only. -/
lemma Draft.files_blobs : (read v).1.fileDemands.Blobs := by
  cases v with
  | object members =>
    refine .append (.ifPresent fun trigger found => .under ?_) (.under ?_)
    · obtain ⟨value, -, found⟩ := Fields.required_result.mp found
      exact Trigger.files_blobs found
    · have nodes : (read (.object members)).1.nodes =
          ((Fields.required "nodes" Node.readAll).read .root members).result?.getD [] := rfl
      rw [nodes]
      cases result : ((Fields.required "nodes" Node.readAll).read .root members).result? with
      | none => exact .nil
      | some nodes =>
        obtain ⟨value, -, found⟩ := Fields.required_result.mp result
        exact Node.allFiles_blobs found
  | _ => exact .nil

end Read

/-! ## Reports -/

/-- Demands that find nothing do not change a report. -/
lemma Settings.conclude_blobs {settings : Settings} {structural : List Diagnostic}
    {demands files : Demands} (h : files.Blobs) :
    settings.conclude structural (demands ++ files) = settings.conclude structural demands := by
  simp only [conclude, Demands.check_append, h.check, List.append_nil]

/-- If a part stores files under blob references only, the demands on them change nothing about its
report. -/
lemma Settings.validatePart_blobs {α : Type} {settings : Settings} {reader : Reader α}
    {demands files : α → Demands} {v : Json}
    (h : ∀ a, (reader .root v).result? = some a → (files a).Blobs) :
    settings.validatePart reader (fun a => demands a ++ files a) v =
      settings.validatePart reader demands v := by
  simp only [validatePart]
  cases result : (reader .root v).result? with
  | none => rfl
  | some a => exact conclude_blobs (h a result)

/-- Blob references are the texts that match `^(/*conversation/+)?[^/]+$`: a segment without
slashes, or slashes, `conversation`, at least one slash and a segment. None of them leads into a
namespace of the system. So nothing is missed where files are stored and no demand is made:
whatever the settings, a document, a trigger and an array of nodes have the reports they would have
if the files were checked as well. -/
theorem blob_exact :
    (∀ r, Reference.isBlob r ↔ r.toList ∈ Reference.blobLanguage) ∧
      (∀ r, Reference.isBlob r ↔ Reference.IsBlobPattern r.toList) ∧
      (∀ r, Reference.isBlob r → Reference.reserved? r = none) ∧
      ∀ (settings : Settings) (v : Json),
        settings.conclude (Draft.read v).2
            ((Draft.read v).1.demands ++ (Draft.read v).1.fileDemands) =
          settings.validateDocument v ∧
        settings.validatePart Trigger.read (fun trigger => trigger.demands ++ trigger.fileDemands)
            v = settings.validateTrigger v ∧
        settings.validatePart Node.readAll
            (fun nodes => Node.allDemands nodes ++ Node.allFileDemands nodes) v =
          settings.validateNodes v := by
  refine ⟨fun r => ?_, fun r => Reference.isBlob_iff, fun r => Reference.reserved?_of_isBlob,
    fun settings v => ⟨?_, ?_, ?_⟩⟩
  · rw [Reference.mem_blobLanguage, Reference.isBlob_iff]
  · exact Settings.conclude_blobs Draft.files_blobs
  · exact Settings.validatePart_blobs fun trigger => Trigger.files_blobs
  · exact Settings.validatePart_blobs fun nodes => Node.allFiles_blobs

/-- Case counts, and a segment has no slash in front unless `conversation` stands there. -/
example : Reference.isBlob "//conversation//upload" ∧ ¬ Reference.isBlob "/upload" ∧
    ¬ Reference.isBlob "Conversation/upload" ∧ ¬ Reference.isBlob "conversation/" := by
  decide

end DialogueLint
