import CloudGraph.Proofs.Loading
import CloudGraph.Proofs.Requests
import Mathlib

/-!
# Where settings come from

A compilation is settled by its command line, by the settings file of a project and by defaults, in
this order. `Command.taskFrom` tells the task that comes of these, and
`Command.settings_settle_runs` that a run carries out this task and nothing else, unless it is
stopped by its settings with no other file asked for. A run whose settings file has an absolute path
and that takes all else from there does the same in every directory.
-/

namespace CloudGraph

namespace Path

/-- An absolute path leads to the same location from every directory. -/
theorem resolve_of_absolute {path : Path} (absolute : path.isAbsolute = true)
    (directory other : Location) : path.resolve directory = path.resolve other := by
  simp only [resolve, absolute, if_true]

theorem isAbsolute_join {directory path : Path} (absolute : directory.isAbsolute = true) :
    (directory.join path).isAbsolute = true := by
  unfold join
  split
  next isAbsolute => exact isAbsolute
  next => exact absolute

end Path

namespace Settings

/-- A table of texts. -/
def textTable (texts : List (String × String)) : List (String × Toml.Node) :=
  texts.map fun entry => (entry.1, textNode entry.2)

/-- The texts that a settings file sets for its project, by key; none if it has no project. -/
inductive Sets (contents : Toml.Node) : List (String × String) → Prop
  | absent (absent : contents.field? "project" = none) : Sets contents []
  | table {oneLine : Bool} {texts : List (String × String)}
      (held : contents.field? "project" = some (.table oneLine (textTable texts))) :
      Sets contents texts

/-- The keys of some texts that are no keys of a project, in alphabetical order. -/
def unknownIn (texts : List (String × String)) : List String :=
  ((Entries.keys texts).filter (!keys.contains ·)).eraseDups.mergeSort inOrder

variable {texts : List (String × String)} {key : String} {directory other : Location} {file : Path}

theorem mem_unknownIn : key ∈ unknownIn texts ↔ key ∈ Entries.keys texts ∧ key ∉ keys := by
  simp [unknownIn, List.mem_mergeSort]

theorem unknownIn_eq_nil_iff : unknownIn texts = [] ↔ ∀ key ∈ Entries.keys texts, key ∈ keys := by
  simp only [List.eq_nil_iff_forall_not_mem, mem_unknownIn, not_and, not_not]

theorem inOrder_iff {first second : String} : inOrder first second = true ↔ first ≤ second := by
  rw [inOrder, Bool.not_eq_true', decide_eq_false_iff_not, not_lt]

/-- Unknown keys are told in alphabetical order, each once. -/
theorem pairwise_unknownIn : (unknownIn texts).Pairwise (· < ·) := by
  have sorted : (unknownIn texts).Pairwise fun first second => inOrder first second = true :=
    @List.pairwise_mergeSort String inOrder
      (fun _ _ _ before after => inOrder_iff.2 ((inOrder_iff.1 before).trans (inOrder_iff.1 after)))
      (fun first second => Bool.or_eq_true_iff.2
        ((le_total first second).imp inOrder_iff.2 inOrder_iff.2)) _
  have distinct : (unknownIn texts).Nodup :=
    (List.mergeSort_perm _ _).nodup_iff.2 (nodup_eraseDups _)
  exact (sorted.and distinct).imp fun both => (inOrder_iff.1 both.1).lt_of_ne both.2

theorem find?_textTable :
    Toml.Node.find? (textTable texts) key = (texts.lookup key).map textNode := by
  induction texts with
  | nil => rfl
  | cons entry texts ih =>
      obtain ⟨name, text⟩ := entry
      rw [List.lookup_cons, textTable, List.map_cons, Toml.Node.find?, Entries.find?_cons]
      by_cases same : key = name
      · simp [same]
      · have other : (name == key) = false := beq_eq_false_iff_ne.2 (Ne.symm same)
        rw [other, if_neg Bool.false_ne_true, beq_eq_false_iff_ne.2 same]
        exact ih

theorem toValue_textTable {oneLine : Bool} :
    (Toml.Node.table oneLine (textTable texts)).toValue =
      .map (texts.map fun entry => (.text entry.1, .text entry.2)) := by
  rw [Toml.Node.toValue]
  refine congrArg Value.map ?_
  induction texts with
  | nil => rfl
  | cons entry texts ih =>
      rw [textTable, List.map_cons, List.map_cons, Toml.Node.entryValues]
      exact congrArg (_ :: ·) ih

/-- The project of a settings file is a table of the texts that the file sets. -/
theorem Sets.project {contents : Toml.Node} (sets : Sets contents texts) :
    ∃ oneLine, (contents.field? "project").getD Toml.emptyTable =
      .table oneLine (textTable texts) := by
  cases sets with
  | absent absent => exact ⟨false, by rw [absent]; rfl⟩
  | table held => exact ⟨_, by rw [held]; rfl⟩

theorem unknownKeys_textTable {oneLine : Bool} :
    unknownKeys (Toml.Node.table oneLine (textTable texts)).toValue = .ok (unknownIn texts) := by
  rw [toValue_textTable]
  have named : ∀ (name? : Value → Except Fault (Option String)) (names : List String),
      (∀ name, name? (.text name) = .ok (some name)) →
      (names.map fun name => Value.text name).mapM name? = .ok (names.map some) := by
    intro name? names each
    rw [mapM_eq_ok_iff, List.forall₂_map_left_iff, List.forall₂_map_right_iff, List.forall₂_same]
    exact fun name _ => each name
  have all : ∀ names : List String, (names.map some).mapM id = some names := by
    intro names
    induction names with
    | nil => rfl
    | cons name names ih => simp [ih]
  have listed : (Value.map (texts.map fun entry => (.text entry.1, .text entry.2))).elements? =
      some ((Entries.keys texts).map fun name => Value.text name) := by
    simp [Value.elements?, Entries.keys]
  unfold unknownKeys
  simp only [listed]
  rw [named _ _ fun _ => rfl]
  simp only [bind, Except.bind, all]
  rfl

theorem pathAt_textTable {oneLine : Bool} (default : Path) :
    pathAt (.table oneLine (textTable texts)) key default =
      .ok (((texts.lookup key).map Path.ofText).getD default) := by
  rw [pathAt, Toml.Node.field?, find?_textTable]
  cases texts.lookup key <;> rfl

/-- The settings that texts make, with defaults for the others. -/
def ofTexts (directory : Location) (file : Path) (texts : List (String × String)) : Settings :=
  let root := Path.ofLocation (file.parent.resolve directory)
  { root
    file? := some file
    service := textNode ((texts.lookup "service").getD defaultService)
    runtime := textNode ((texts.lookup "runtime").getD Runtime.defaultName)
    provider := textNode ((texts.lookup "provider").getD defaultProvider)
    model := root.join (((texts.lookup "model").map Path.ofText).getD defaultModel)
    output := root.join (((texts.lookup "output_dir").map Path.ofText).getD defaultOutput) }

theorem Sets.ofContents_known {contents : Toml.Node} (sets : Sets contents texts)
    (known : unknownIn texts = []) :
    ofContents directory file contents = .ok (ofTexts directory file texts) := by
  obtain ⟨oneLine, project⟩ := sets.project
  have held : ∀ key default, ((Toml.Node.table oneLine (textTable texts)).field? key).getD
      (textNode default) = textNode ((texts.lookup key).getD default) := by
    intro key default
    rw [Toml.Node.field?, find?_textTable]
    cases texts.lookup key <;> rfl
  unfold ofContents
  simp only [project, unknownKeys_textTable, pathAt_textTable, held]
  simp [known, bind, Except.bind, pure, Except.pure, ofTexts]

theorem Sets.ofContents_unknown {contents : Toml.Node} (sets : Sets contents texts)
    (unknown : unknownIn texts ≠ []) : ofContents directory file contents =
      .error (.problem (.unknownSettings file.text (unknownIn texts) keys)) := by
  obtain ⟨oneLine, project⟩ := sets.project
  have isUnknown : (!(unknownIn texts).isEmpty) = true := by simpa using unknown
  unfold ofContents
  simp only [project, unknownKeys_textTable, bind, Except.bind, isUnknown, if_true]
  rfl

/-- A settings file with an absolute path sets the same in every directory. -/
theorem load_of_absolute (absolute : file.isAbsolute = true) (directory other : Location)
    (contents : Except Fault ByteArray) :
    load directory (some file) contents = load other (some file) contents := by
  have parentAbsolute : file.parent.isAbsolute = true := absolute
  have same : ofFile directory file = ofFile other file := by
    funext contents
    unfold ofFile ofContents
    rw [Path.resolve_of_absolute parentAbsolute directory other]
  simp only [load, Option.getD_some, same]
  cases contents with
  | ok contents => rfl
  | error fault => cases fault <;> rfl

/-- The paths of settings that are read from a file are absolute. -/
theorem absolute_of_ofContents {contents : Toml.Node} {settings : Settings}
    (made : ofContents directory file contents = .ok settings) :
    settings.model.isAbsolute = true ∧ settings.output.isAbsolute = true := by
  have below : ∀ location path, ((Path.ofLocation location).join path).isAbsolute = true :=
    fun _ _ => Path.isAbsolute_join rfl
  unfold ofContents at made
  simp only [bind, Except.bind, pure, Except.pure] at made
  split at made
  next => cases made
  next =>
    split at made
    next => cases made
    next =>
      split at made
      next =>
        split at made
        next => cases made
        next model _ =>
          split at made
          next => cases made
          next output _ =>
            cases made
            exact ⟨below _ model, below _ output⟩
      next => cases made

/-- Settings are those of the settings file, once that has been read. -/
theorem load_result (named? : Option Path) (bytes : ByteArray) :
    (load directory named? (.ok bytes)).result =
      ofFile directory (named?.getD defaultFile) bytes := by
  have logged : ∀ (made : Except Fault Settings) (record : Record),
      ((do
        let settings ← Trace.ofExcept made
        Trace.step record
        return settings) : Logged Settings).result = made := by
    intro made record
    cases made <;> rfl
  cases named? <;> exact logged _ _

theorem absolute_of_load {named : Path} {read : Except Fault ByteArray} {settings : Settings}
    (loaded : (load directory (some named) read).result = .ok settings) :
    settings.model.isAbsolute = true ∧ settings.output.isAbsolute = true := by
  cases read with
  | error fault => cases (Command.settings_of_error loaded).1
  | ok bytes =>
      rw [load_result, ofFile] at loaded
      cases decoded : Text.ofBytes? bytes with
      | none => simp [decoded] at loaded
      | some text =>
          cases parsed : Toml.read text with
          | error error => simp [decoded, parsed] at loaded
          | ok contents => exact absolute_of_ofContents (by simpa [decoded, parsed] using loaded)

end Settings

namespace Command

variable {line : CommandLine} {directory : Location} {tree : Tree} {file? : Option Path}
  {texts : List (String × String)}

/-- A text of the command line if it is not empty, or else of the project, or else a default. -/
def textFrom (given? : Option String) (texts : List (String × String)) (key default : String) :
    String :=
  (nonEmpty? given?).getD ((texts.lookup key).getD default)

/-- A path of the command line if it is not empty, or else of the project, or else a default. One
of the command line is taken as it is, and so is any other that is absolute or that there is no
settings file for; otherwise it is taken from the directory of the settings file. -/
def pathFrom (given? : Option String) (directory : Location) (file? : Option Path)
    (texts : List (String × String)) (key : String) (default : Path) : Path :=
  match nonEmpty? given? with
  | some text => Path.ofText text
  | none =>
    let path := ((texts.lookup key).map Path.ofText).getD default
    match file? with
    | none => path
    | some file =>
      if path.isAbsolute then path
      else (Path.ofLocation (file.parent.resolve directory)).join path

/-- What a command line compiles with the texts of a settings file, if there is one. -/
def taskFrom (line : CommandLine) (directory : Location) (file? : Option Path)
    (texts : List (String × String)) : Task where
  order := {
    runtime := .text (textFrom line.runtime? texts "runtime" Runtime.defaultName)
    service := .text (textFrom line.service? texts "service" defaultService)
    provider := .text ((texts.lookup "provider").getD defaultProvider) }
  model := pathFrom line.model? directory file? texts "model" Settings.defaultModel
  output := pathFrom line.output? directory file? texts "output_dir" Settings.defaultOutput

/-- The settings file of a command line in a tree, and the texts that it sets: a file that can be
read and whose project is a table of texts, or none, if none is named and none is there. -/
inductive Sources (line : CommandLine) (directory : Location) (tree : Tree) :
    Option Path → List (String × String) → Prop
  | defaults (unnamed : nonEmpty? line.settings? = none)
      (missing : tree.read directory Settings.defaultFile = .error .fileNotFound) :
      Sources line directory tree none []
  | file {bytes : ByteArray} {text : String} {contents : Toml.Node}
      {texts : List (String × String)}
      (read : tree.read directory (settingsPath line) = .ok bytes)
      (decoded : Text.ofBytes? bytes = some text) (parsed : Toml.read text = .ok contents)
      (sets : Settings.Sets contents texts) :
      Sources line directory tree (some (settingsPath line)) texts

/-- What loading the settings of a command line comes to, with its records. -/
def loaded (line : CommandLine) (directory : Location) (tree : Tree) : Logged Settings :=
  Settings.load directory ((nonEmpty? line.settings?).map Path.ofText)
    (tree.read directory (settingsPath line))

theorem settingsIn_eq : settingsIn line directory tree = (loaded line directory tree).result := rfl

theorem chosen_textNode (given? : Option String) (text : String) :
    chosen given? (Settings.textNode text) =
      Settings.textNode ((nonEmpty? given?).getD text) := by
  unfold chosen
  cases nonEmpty? given? <;> rfl

theorem pathFrom_unread (given? : Option String) (key : String) (default : Path) :
    pathFrom given? directory none [] key default =
      ((nonEmpty? given?).map Path.ofText).getD default := by
  unfold pathFrom
  cases nonEmpty? given? <;> rfl

theorem pathFrom_read (given? : Option String) (file : Path) (key : String) (default : Path) :
    pathFrom given? directory (some file) texts key default =
      ((nonEmpty? given?).map Path.ofText).getD
        ((Path.ofLocation (file.parent.resolve directory)).join
          (((texts.lookup key).map Path.ofText).getD default)) := by
  unfold pathFrom
  cases nonEmpty? given? with
  | some text => rfl
  | none =>
      -- Joining to a directory takes an absolute path as it is.
      refine ite_eq_right_iff.2 fun absolute => ?_
      rw [Path.join, if_pos absolute]

/-- A settings file that is read and decoded makes the settings of its contents. -/
theorem settingsIn_of_read {bytes : ByteArray} {text : String} {contents : Toml.Node}
    (read : tree.read directory (settingsPath line) = .ok bytes)
    (decoded : Text.ofBytes? bytes = some text) (parsed : Toml.read text = .ok contents) :
    settingsIn line directory tree =
      Settings.ofContents directory (settingsPath line) contents := by
  have ofFile : Settings.ofFile directory (settingsPath line) bytes =
      Settings.ofContents directory (settingsPath line) contents := by
    simp [Settings.ofFile, decoded, parsed]
  rw [settingsIn, read, Settings.load_result]
  exact ofFile

/-- Settings with known keys alone give the task of the texts. -/
theorem Sources.known (sources : Sources line directory tree file? texts)
    (known : ∀ key ∈ Entries.keys texts, key ∈ Settings.keys) :
    ∃ settings, settingsIn line directory tree = .ok settings ∧
      taskOf line settings = taskFrom line directory file? texts := by
  cases sources with
  | defaults unnamed missing =>
      refine ⟨Settings.default directory, ?_, ?_⟩
      · rw [settingsIn, settingsPath, unnamed, Option.map_none, Option.getD_none, missing]
        rfl
      · simp only [taskOf, taskFrom, orderOf, modelPath, outputPath, Settings.default,
          chosen_textNode, pathFrom_unread]
        rfl
  | file read decoded parsed sets =>
      refine ⟨_, (settingsIn_of_read read decoded parsed).trans
        (sets.ofContents_known (Settings.unknownIn_eq_nil_iff.2 known)), ?_⟩
      simp only [taskOf, taskFrom, orderOf, modelPath, outputPath, Settings.ofTexts,
        chosen_textNode, pathFrom_read]
      rfl

/-- With a key that is not known there are no settings. -/
theorem Sources.unknown (sources : Sources line directory tree file? texts)
    (unknown : ∃ key ∈ Entries.keys texts, key ∉ Settings.keys) :
    settingsIn line directory tree = .error (.problem (.unknownSettings (settingsPath line).text
      (Settings.unknownIn texts) Settings.keys)) := by
  cases sources with
  | defaults => simp at unknown
  | file read decoded parsed sets =>
      refine (settingsIn_of_read read decoded parsed).trans (sets.ofContents_unknown fun none => ?_)
      obtain ⟨key, member, isUnknown⟩ := unknown
      exact isUnknown (Settings.unknownIn_eq_nil_iff.1 none key member)

/-- A watched workspace after the settings of a command line have been loaded. -/
def opened (line : CommandLine) (watched : Watched) : Watched where
  workspace := { watched.workspace with
    records := watched.workspace.records ++
      ⟨.debug, .command, "CLI args: " ++ line.display⟩ ::
        (loaded line watched.workspace.directory watched.workspace.tree).steps }
  requests := watched.requests ++ [.contents (settingsPath line)]

theorem recordAll_run (records : List Record) (watched : Watched) :
    (Host.recordAll records : Watch Unit).run.run watched =
      (.ok (), { watched with workspace := { watched.workspace with
        records := watched.workspace.records ++ records } }) := by
  induction records generalizing watched with
  | nil =>
      rw [List.append_nil]
      rfl
  | cons record records ih =>
      rw [Host.recordAll, Session.run_bind]
      refine (ih _).trans ?_
      simp [Workspace.recording]

theorem logged_run {α : Type} (computation : Logged α) (watched : Watched) :
    (Host.logged computation : Watch α).run.run watched =
      (computation.result, { watched with workspace := { watched.workspace with
        records := watched.workspace.records ++ computation.steps } }) := by
  rw [Host.logged, Session.run_bind, recordAll_run]
  cases computation.result <;> rfl

/-- A compilation loads its settings first, and then carries out their task. -/
theorem run_eq (compiles : line.action = .compile) (watched : Watched) :
    (run line : Watch Unit).run.run watched =
      match settingsIn line watched.workspace.directory watched.workspace.tree with
      | .ok settings =>
        (carryOut line (taskOf line settings) : Watch Unit).run.run (opened line watched)
      | .error fault => (.error fault, opened line watched) := by
  have loading : (loadSettings line : Watch Settings).run.run { watched with
      workspace := Workspace.recording ⟨.debug, .command, "CLI args: " ++ line.display⟩
        watched.workspace } =
      (settingsIn line watched.workspace.directory watched.workspace.tree,
        opened line watched) := by
    refine (logged_run _ _).trans ?_
    simp [opened, Workspace.recording]
    rfl
  have compiling : (perform line : Watch Unit) =
      loadSettings line >>= fun settings => carryOut line (taskOf line settings) := by
    rw [perform, compiles]
    exact compile_eq line
  rw [run, Session.run_bind]
  refine (congrArg (fun command : Watch Unit => command.run.run _) compiling).trans ?_
  rw [Session.run_bind, loading]
  cases settingsIn line watched.workspace.directory watched.workspace.tree <;> rfl

/-- What a run in a workspace comes to, with all that it asks of the files. -/
def watch (line : CommandLine) (start : Workspace) : Except Fault Unit × Watched :=
  (run line : Watch Unit).run.run ⟨start, []⟩

/-- A run that is stopped by its settings: it has asked for the settings file and for nothing else,
and no file is changed. -/
structure StoppedBy (line : CommandLine) (start : Workspace) (problem : Problem) : Prop where
  configuration : problem.area = .configuration
  ended : (watch line start).1 = .error (.problem problem)
  requests : (watch line start).2.requests = [.contents (settingsPath line)]
  unchanged : (watch line start).2.workspace.tree = start.tree

theorem stoppedBy_of_settingsIn (compiles : line.action = .compile) {start : Workspace}
    {problem : Problem} (configuration : problem.area = .configuration)
    (stops : settingsIn line start.directory start.tree = .error (.problem problem)) :
    StoppedBy line start problem := by
  have ran : watch line start = (.error (.problem problem), opened line ⟨start, []⟩) := by
    rw [watch, run_eq compiles, stops]
  exact ⟨configuration, by rw [ran], by rw [ran]; rfl, by rw [ran]; rfl⟩

/-- A settings file that is named has to be there. -/
theorem settingsIn_missing {text : String} (named : nonEmpty? line.settings? = some text)
    (missing : tree.read directory (Path.ofText text) = .error .fileNotFound) :
    settingsIn line directory tree =
      .error (.problem (.settingsMissing (Path.ofText text).text)) := by
  rw [settingsIn, settingsPath, named, Option.map_some, Option.getD_some, missing]
  rfl

/-- A settings file with an absolute path gives the same settings in every directory. -/
theorem loaded_of_absolute {text : String} (named : nonEmpty? line.settings? = some text)
    (absolute : (Path.ofText text).isAbsolute = true) (directory other : Location) :
    loaded line directory tree = loaded line other tree := by
  have path : settingsPath line = Path.ofText text := by
    rw [settingsPath, named]
    rfl
  rw [loaded, loaded, path, named, Option.map_some,
    Settings.load_of_absolute absolute directory other,
    Tree.read_of_absolute absolute directory other]

/-- A run does the same in every directory when its settings file has an absolute path and names all
other paths. -/
theorem watch_moved (compiles : line.action = .compile) {text : String}
    (named : nonEmpty? line.settings? = some text)
    (absolute : (Path.ofText text).isAbsolute = true) (noModel : nonEmpty? line.model? = none)
    (noOutput : nonEmpty? line.output? = none) (start : Workspace) (directory : Location) :
    (watch line start).1 = (watch line { start with directory }).1 ∧
      Watch.IsMoved directory (watch line start).2 (watch line { start with directory }).2 := by
  have same : loaded line directory start.tree = loaded line start.directory start.tree :=
    loaded_of_absolute named absolute directory start.directory
  have moved : Watch.IsMoved directory (opened line ⟨start, []⟩)
      (opened line ⟨{ start with directory }, []⟩) := by
    refine ⟨?_, ?_⟩
    · simp only [opened, same]
      rfl
    · simpa [opened, settingsPath, named, Request.path] using absolute
  rw [watch, watch, run_eq compiles, run_eq compiles]
  simp only [settingsIn_eq, same]
  cases found : (loaded line start.directory start.tree).result with
  | error fault => exact ⟨rfl, moved⟩
  | ok settings =>
      have settingsFound : (Settings.load start.directory (some (Path.ofText text))
          (start.tree.read start.directory (settingsPath line))).result = .ok settings := by
        rwa [loaded, named] at found
      obtain ⟨model, output⟩ := Settings.absolute_of_load settingsFound
      have modelAbsolute : (modelPath line settings).isAbsolute = true := by
        rwa [modelPath, noModel]
      have outputAbsolute : (outputPath line settings).isAbsolute = true := by
        rwa [outputPath, noOutput]
      exact (Watch.moving directory).carryOut line (taskOf line settings) modelAbsolute
        outputAbsolute _ _ moved

/-- The settings file of a shop. -/
def shopFile : String := "[project]\nruntime = \"python3.7\"\nmodel = \"shop.json\"\n"

/-- What the settings file of the shop sets. -/
def shopTexts : List (String × String) := [("runtime", "python3.7"), ("model", "shop.json")]

/-- A directory beside that of the shop. -/
def besideShop : Workspace where
  tree := ⟨[(["work"], .directory), (["shop"], .directory),
    (["shop", "slsgraph.toml"], .file shopFile.toUTF8)]⟩
  directory := ["work"]

/-- A command line that names the settings file of the shop, and a service. -/
def shopLine : CommandLine :=
  { action := .compile, settings? := some "/shop/slsgraph.toml", service? := some "corner" }

theorem sources_shop : Sources shopLine besideShop.directory besideShop.tree
    (some (settingsPath shopLine)) shopTexts := by
  have path : settingsPath shopLine = ⟨1, ["shop", "slsgraph.toml"]⟩ := by decide +kernel
  have way : besideShop.tree.follow [] ["shop", "slsgraph.toml"] = .ok ["shop", "slsgraph.toml"] :=
    Tree.follow_cons_eq_ok.2 ⟨rfl, .inr (by decide),
      Tree.follow_cons_eq_ok.2 ⟨rfl, .inr (by decide), rfl⟩⟩
  have leads : besideShop.tree.locate besideShop.directory (settingsPath shopLine) =
      .ok ["shop", "slsgraph.toml"] := by
    rw [path]
    exact Tree.locate_eq_ok.2 ⟨by decide, by decide, way⟩
  have read : besideShop.tree.read besideShop.directory (settingsPath shopLine) =
      .ok shopFile.toUTF8 := read_of_locate leads rfl
  have decoded : Text.ofBytes? shopFile.toUTF8 = some shopFile := by decide +kernel
  have parsed : Toml.read shopFile =
      .ok (.table false [("project", .table false (Settings.textTable shopTexts))]) := by cbv
  exact .file read decoded parsed (.table rfl)

end Command

end CloudGraph
