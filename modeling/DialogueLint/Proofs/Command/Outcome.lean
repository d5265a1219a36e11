import DialogueLint.Command.Run
import DialogueLint.Proofs.Json.Member
import DialogueLint.Proofs.Pointer

/-!
# What the command leaves behind

The command stops before it shows anything if something hinders it (`Hinders`): the settings, or a
file at any position (`texts_error`). If nothing does, each file has its result (`results_ok`), and
the two views show the same results: the lines of text can be told from the JSON entries
(`output_eq_presented`). Whether results are shown has no part in the exit code (`run_exact`).

The files are read one after the other, and standard input can be read only once, so that what a
path gives depends on the paths before it. The proofs therefore say of every path what it gives
behind the earlier ones (`Files.textBehind`, `Reads`), and go by induction on the paths. A failure
at any of them is the failure of the whole, since nothing is shown before all have been read.

The two views are compared through the JSON entries: each line of text is a function of an entry
(`entryLines`), which is checked entry by entry.
-/

namespace DialogueLint.Command

/-- The text that a path stands for behind other paths. The first dash stands for standard input,
every later one for an empty text. -/
def Files.textBehind (files : Files) (earlier : List String) (path : String) :
    Except ReadFault String :=
  if path = "-" then if "-" ∈ earlier then .ok "" else files.input else files.read path

/-- The path at an index of a list is read, and this is what it gives. -/
structure Reads (files : Files) (paths : List String) (index : Nat) (path : String)
    (given : Except ReadFault String) : Prop where
  listed : paths[index]? = some path
  gives : files.textBehind (paths.take index) path = given

/-- The settings in force before the command line has its say. -/
inductive Configures (files : Files) : Option String → Settings → Prop where
  /-- No file is named. -/
  | default : Configures files none .default
  /-- A file is named, and its text holds settings. -/
  | file {path text : String} {settings : Settings} (read : files.read path = .ok text)
      (holds : Settings.ofText text = .ok settings) : Configures files (some path) settings

/-- What keeps the command from doing its work. -/
inductive Hinders (files : Files) (options : Options) : Failure → Prop where
  /-- The file with the settings cannot be read. -/
  | unreadableConfig {path : String} {fault : ReadFault} (named : options.config = some path)
      (read : files.read path = .error fault) : Hinders files options (.unreadableConfig path fault)
  /-- The file with the settings holds none. -/
  | faultyConfig {path text : String} {fault : Json.LocatedFault}
      (named : options.config = some path) (read : files.read path = .ok text)
      (holds : Settings.ofText text = .error fault) :
      Hinders files options (.faultyConfig path fault)
  /-- One of the files to validate cannot be read. -/
  | unreadable {index : Nat} {path : String} {fault : ReadFault}
      (reads : Reads files options.paths index path (.error fault)) :
      Hinders files options (.unreadable path fault)

/-! ## Steps that may fail -/

section Steps

variable {α β : Type} {x : Except Failure α} {next : α → Except Failure β} {b : β}
  {failure : Failure}

/-- If two steps succeed one after the other, the first one gave what the second one went on with.
-/
lemma bind_ok (done : (x >>= next) = .ok b) : ∃ a, x = .ok a ∧ next a = .ok b := by
  cases x with
  | error failure => cases done
  | ok a => exact ⟨a, rfl, done⟩

/-- If one of two steps fails, either the first one failed, or it succeeded and the second one
failed. -/
lemma bind_error (failed : (x >>= next) = .error failure) :
    x = .error failure ∨ ∃ a, x = .ok a ∧ next a = .error failure := by
  cases x with
  | error failure =>
    cases failed
    exact .inl rfl
  | ok a => exact .inr ⟨a, rfl, failed⟩

end Steps

/-! ## Reading files -/

section Reading

variable {files : Files} {paths rest earlier : List String} {first path : String} {index : Nat}
  {given other : Except ReadFault String} {entries : List (String × String)} {failure : Failure}

/-- A path at an index gives one thing only. -/
lemma Reads.unique (reads : Reads files paths index path given)
    (again : Reads files paths index path other) : given = other :=
  reads.gives.symm.trans again.gives

/-- What is left behind a path gives what it gives to those that come later. -/
lemma Files.take_textBehind :
    (files.take first).2.textBehind earlier path = files.textBehind (first :: earlier) path := by
  unfold Files.take Files.textBehind
  by_cases dash : first = "-"
  · simp [dash]
  · simp [dash, Ne.symm dash]

/-- In front of all other paths, a path gives its own text. -/
lemma Files.take_text : (files.take path).1 = files.textBehind [] path := by
  unfold Files.take Files.textBehind
  split <;> simp

/-- The first path is read from the files as they are. -/
lemma reads_zero : Reads files (first :: rest) 0 first (files.take first).1 :=
  ⟨rfl, Files.take_text.symm⟩

/-- A later path is read from what the first path leaves. -/
lemma reads_succ : Reads files (first :: rest) (index + 1) path given ↔
    Reads (files.take first).2 rest index path given := by
  constructor
  · rintro ⟨listed, gives⟩
    exact ⟨listed, Files.take_textBehind.trans gives⟩
  · rintro ⟨listed, gives⟩
    exact ⟨listed, Files.take_textBehind.symm.trans gives⟩

/-- The first path gives its text, and the others give theirs from what it leaves. -/
lemma texts_cons_ok (found : texts files (first :: rest) = .ok entries) :
    ∃ text others, (files.take first).1 = .ok text ∧
      texts (files.take first).2 rest = .ok others ∧ entries = (first, text) :: others := by
  rw [texts] at found
  split at found
  · cases found
  · rename_i text left taken
    obtain ⟨others, later, same⟩ := bind_ok found
    cases same
    rw [taken]
    exact ⟨text, others, rfl, later, rfl⟩

/-- Either the first path cannot be read, or it is a later one. -/
lemma texts_cons_error (failed : texts files (first :: rest) = .error failure) :
    (∃ fault, (files.take first).1 = .error fault ∧ failure = .unreadable first fault) ∨
      texts (files.take first).2 rest = .error failure := by
  rw [texts] at failed
  split at failed
  · rename_i fault left taken
    cases failed
    rw [taken]
    exact .inl ⟨fault, rfl, rfl⟩
  · rename_i text left taken
    rw [taken]
    rcases bind_error failed with later | ⟨others, -, same⟩
    · exact .inr later
    · cases same

/-- Where the texts are found, each path has its text, in order. -/
lemma texts_ok (found : texts files paths = .ok entries) :
    entries.length = paths.length ∧ ∀ index path, paths[index]? = some path →
      ∃ text, Reads files paths index path (.ok text) ∧ entries[index]? = some (path, text) := by
  -- what the others are read from is what the first path leaves
  induction paths generalizing files entries with
  | nil =>
    cases found
    exact ⟨rfl, nofun⟩
  | cons first rest ih =>
    obtain ⟨text, others, taken, later, rfl⟩ := texts_cons_ok found
    obtain ⟨length, each⟩ := ih later
    refine ⟨congrArg (· + 1) length, fun index path listed => ?_⟩
    cases index with
    | zero =>
      cases listed
      exact ⟨text, taken ▸ reads_zero, rfl⟩
    | succ index =>
      obtain ⟨text, reads, entry⟩ := each index path listed
      exact ⟨text, reads_succ.mpr reads, entry⟩

/-- Where the texts are not found, one of the paths cannot be read. -/
lemma texts_error (failed : texts files paths = .error failure) :
    ∃ index path fault, Reads files paths index path (.error fault) ∧
      failure = .unreadable path fault := by
  induction paths generalizing files with
  | nil => cases failed
  | cons first rest ih =>
    rcases texts_cons_error failed with ⟨fault, taken, rfl⟩ | later
    · exact ⟨0, first, fault, taken ▸ reads_zero, rfl⟩
    · obtain ⟨index, path, fault, reads, same⟩ := ih later
      exact ⟨index + 1, path, fault, reads_succ.mpr reads, same⟩

end Reading

/-! ## Settings and results -/

section Results

variable {files : Files} {options : Options} {given : Settings} {found : List Result}
  {failure : Failure}

/-- There are settings where no file of settings is named, or where the named one can be read. -/
lemma configured_ok {config : Option String} :
    configured files config = .ok given ↔ Configures files config given := by
  constructor
  · intro found
    unfold configured at found
    split at found
    · cases found
      exact .default
    · split at found
      · cases found
      · rename_i read
        split at found
        · cases found
        · rename_i holds
          cases found
          exact .file read holds
  · rintro (_ | ⟨read, holds⟩)
    · rfl
    · simp only [configured, read, holds]

/-- If there are no settings, the named file of settings is what hinders. -/
lemma configured_error (failed : configured files options.config = .error failure) :
    Hinders files options failure := by
  unfold configured at failed
  split at failed
  · cases failed
  · rename_i named
    split at failed
    · rename_i read
      cases failed
      exact .unreadableConfig named read
    · rename_i read
      split at failed
      · rename_i holds
        cases failed
        exact .faultyConfig named read holds
      · cases failed

/-- The command finds results where its settings are in force and every text is found. -/
lemma results_ok (done : results files options = .ok found) :
    ∃ given entries, Configures files options.config given ∧
      texts files options.paths = .ok entries ∧
      found = entries.map fun (path, text) =>
        result ⟨options.maxDepth.getD given.maxDepth, given.checkFaulty⟩ options.fragment path
          text := by
  obtain ⟨chosen, asked, done⟩ := bind_ok done
  obtain ⟨entries, read, done⟩ := bind_ok done
  obtain ⟨given, config, asked⟩ := bind_ok asked
  cases asked
  cases done
  exact ⟨given, entries, configured_ok.mp config, read, rfl⟩

/-- If there are no results, something hinders. -/
lemma results_error (failed : results files options = .error failure) :
    Hinders files options failure := by
  rcases bind_error failed with asked | ⟨chosen, -, failed⟩
  · rcases bind_error asked with config | ⟨given, -, asked⟩
    · exact configured_error config
    · cases asked
  · rcases bind_error failed with read | ⟨entries, -, failed⟩
    · obtain ⟨index, path, fault, reads, rfl⟩ := texts_error read
      exact .unreadable reads
    · cases failed

/-- Where the command finds results, nothing hinders it. -/
lemma not_hinders_of_results (done : results files options = .ok found) :
    ¬ Hinders files options failure := by
  obtain ⟨given, entries, configures, read, -⟩ := results_ok done
  rintro (⟨named, faulty⟩ | ⟨named, faulty, holds⟩ | reads)
  · rw [named] at configures
    cases configures with
    | file text _ => cases faulty.symm.trans text
  · rw [named] at configures
    cases configures with
    | file text settings =>
      cases faulty.symm.trans text
      cases holds.symm.trans settings
  · obtain ⟨text, again, -⟩ := (texts_ok read).2 _ _ reads.listed
    cases reads.unique again

end Results

/-! ## The two views -/

/-- The text at a key of a JSON entry. -/
def textOf (key : String) : Json → String
  | .object members =>
    match Members.get? members key with
    | some (.string text) => text
    | _ => ""
  | _ => ""

/-- The line of a diagnostic, as its JSON form tells it. -/
def diagnosticLine (diagnostic : Json) : String :=
  let path := textOf "path" diagnostic
  let shown := if path = "" then "/" else path
  let kind := textOf "kind" diagnostic
  let message := textOf "message" diagnostic
  s!"  {shown}: {kind}: {message}"

/-- The lines of a file, as its JSON entry tells them: a line with the number of its diagnostics and
one for each, or a single line if it is accepted. -/
def entryLines (entry : Json) : List String :=
  match entry with
  | .object members =>
    let file := textOf "file" entry
    match Members.get? members "accepted", Members.get? members "diagnostics" with
    | some (.bool false), some (.array diagnostics) =>
      s!"{file}: {diagnostics.length} problem(s)" :: diagnostics.map diagnosticLine
    | _, _ => [s!"{file}: accepted"]
  | _ => []

/-- What is shown of JSON entries: their array, or the lines that they tell. -/
def presented : View → List Json → String
  | .text, entries => String.join ((entries.flatMap entryLines).map fun line => line ++ "\n")
  | .json, entries => (Json.array entries).pretty ++ "\n"

/-- The line that the JSON form of a diagnostic tells is the one that shows it, indented. -/
lemma diagnosticLine_toJson (d : Diagnostic) : diagnosticLine d.toJson = "  " ++ d.display := by
  have path : textOf "path" d.toJson = d.path.text := rfl
  have kind : textOf "kind" d.toJson = d.kind.name := rfl
  have message : textOf "message" d.toJson = d.message := rfl
  rw [diagnosticLine, path, kind, message, Diagnostic.display, Pointer.display]
  simp only [Pointer.text_eq_empty, toString, String.append_assoc]

/-- The lines that the JSON entry of a file tells are those that show its result. -/
lemma entryLines_toJson (r : Result) : entryLines r.toJson = r.lines := by
  have lines : r.report.diagnostics.map (diagnosticLine ∘ Diagnostic.toJson) =
      r.report.diagnostics.map fun d => "  " ++ d.display :=
    List.map_congr_left fun d _ => diagnosticLine_toJson d
  cases accepted : r.report.accepted with
  | true =>
    rw [Result.lines, if_pos accepted, Result.toJson, accepted]
    rfl
  | false =>
    rw [Result.lines, accepted, if_neg Bool.false_ne_true, Result.toJson, accepted, entryLines]
    simp [Members.get?_cons, Report.toJson, Report.size, lines, textOf]

/-- Both views show what the JSON entries of the results say. -/
lemma output_eq_presented (view : View) (found : List Result) :
    output view found = presented view (found.map Result.toJson) := by
  cases view with
  | text =>
    have lines : found.flatMap Result.lines = (found.map Result.toJson).flatMap entryLines := by
      rw [List.flatMap_map]
      simp only [entryLines_toJson]
    rw [output, presented, lines]
  | json => rfl

/-! ## Running the command -/

/-- There is something to say about the file. -/
def Result.Rejected (r : Result) : Prop := r.report.diagnostics ≠ []

instance {r : Result} : Decidable r.Rejected :=
  inferInstanceAs (Decidable (r.report.diagnostics ≠ []))

section Running

variable {files : Files} {options : Options} {found : List Result}

/-- A file is not accepted exactly if there is something to say about it. -/
lemma not_accepted (r : Result) : (!r.report.accepted) = decide r.Rejected := by
  rw [Report.accepted, Bool.eq_iff_iff, Bool.not_eq_true', List.isEmpty_eq_false_iff,
    decide_eq_true_iff, Result.Rejected]

/-- All files are accepted exactly if there is nothing to say about any of them. -/
lemma all_accepted : (found.all fun r => r.report.accepted) = true ↔
    ¬ ∃ r ∈ found, r.Rejected := by
  simp only [List.all_eq_true, Report.accepted, List.isEmpty_iff, Result.Rejected, not_exists,
    not_and, not_not]

/-- The results decide what the command leaves behind; they do not depend on how they are shown. -/
lemma run_of_results (done : results files options = .ok found) (view : View) (quiet : Bool) :
    run files { options with view := view, quiet := quiet } =
      ⟨if ∃ r ∈ found, r.Rejected then 1 else 0,
        presented view ((if quiet then found.filter fun r => r.Rejected else found).map
          Result.toJson), ""⟩ := by
  have same : results files { options with view := view, quiet := quiet } = .ok found := done
  rw [run, same]
  dsimp only
  rw [output_eq_presented, shown]
  simp only [not_accepted, all_accepted, ite_not]

end Running

/-- The command exits with 2 and shows nothing if its settings or any of its files hinder it.
Otherwise there is a result for each path, in order, under the settings of the named file but for a
depth of its own; the exit code tells whether one of them has diagnostics; and both views show the
same entries, without those of accepted files if it is asked to be quiet. -/
theorem run_exact (files : Files) (options : Options) :
    ((∃ failure, Hinders files options failure) →
      ∃ failure, Hinders files options failure ∧
        run files options = ⟨2, "", s!"\nError: {failure.message}\n"⟩) ∧
    ((∀ failure, ¬ Hinders files options failure) →
      ∃ (given : Settings) (found : List Result), Configures files options.config given ∧
        found.length = options.paths.length ∧
        (∀ index path, options.paths[index]? = some path →
          ∃ text, Reads files options.paths index path (.ok text) ∧
            found[index]? = some ⟨path, Settings.validateText
              ⟨options.maxDepth.getD given.maxDepth, given.checkFaulty⟩
              (options.fragment.getD (.ofFileName path)) text⟩) ∧
        ∀ view quiet, run files { options with view := view, quiet := quiet } =
          ⟨if ∃ r ∈ found, r.Rejected then 1 else 0,
            presented view ((if quiet then found.filter fun r => r.Rejected else found).map
              Result.toJson), ""⟩) := by
  cases outcome : results files options with
  | error failure =>
    have hinders : Hinders files options failure := results_error outcome
    refine ⟨fun _ => ⟨failure, hinders, ?_⟩, fun free => absurd hinders (free failure)⟩
    rw [run, outcome]
  | ok found =>
    refine ⟨fun ⟨failure, hinders⟩ => absurd hinders (not_hinders_of_results outcome), fun _ => ?_⟩
    -- one set of settings and one list of entries stand behind all results
    obtain ⟨given, entries, configures, read, rfl⟩ := results_ok outcome
    obtain ⟨length, each⟩ := texts_ok read
    refine ⟨given, _, configures, by rw [List.length_map, length], fun index path listed => ?_,
      run_of_results outcome⟩
    obtain ⟨text, reads, entry⟩ := each index path listed
    refine ⟨text, reads, ?_⟩
    rw [List.getElem?_map, entry]
    rfl

/-- Nothing is shown of a faulty file if a later one cannot be read. -/
example : run (.ofTexts [("a.json", "[")] "")
    ⟨["a.json", "b.json"], none, none, none, .text, false⟩ =
      ⟨2, "", "\nError: Failed to read 'b.json': No such file or directory (os error 2)\n"⟩ := by
  decide +kernel

/-- Standard input is empty when it is read again, and an empty text is no JSON. -/
example : run (.ofTexts [] "\x7b\x7d")
    ⟨["-", "-"], some .properties, none, none, .text, true⟩ =
      ⟨1, "-: 1 problem(s)\n  /: MalformedJson: Malformed JSON at line 1, column 0: " ++
        "EOF while parsing a value at line 1 column 0\n", ""⟩ := by
  decide +kernel

end DialogueLint.Command
