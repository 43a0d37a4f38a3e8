import CloudGraph.Proofs.FileNames
import CloudGraph.Proofs.Sessions

/-!
# Runs

`Command.invoke` is a whole run in a workspace: what a command line comes to, and what it
leaves. A run that ends with an explained fault has changed no file, and a compilation that ends
well has left the text of every rendered file at its place: `Command.invoke_all_or_nothing`.

The text is there also when several names lead to one place, since the letter that a place ends
in decides its text (`Graph.text_unique`).
-/

namespace CloudGraph

namespace Command

open Session

variable {directory : Location} {tree before after : Tree} {line : CommandLine}

/-- The settings file that a command line works with. -/
def settingsPath (line : CommandLine) : Path :=
  ((nonEmpty? line.settings?).map Path.ofText).getD Settings.defaultFile

/-- The settings that a command line finds in a tree. -/
def settingsIn (line : CommandLine) (directory : Location) (tree : Tree) :
    Except Fault Settings :=
  (Settings.load directory ((nonEmpty? line.settings?).map Path.ofText)
    (tree.read directory (settingsPath line))).result

/-- The model that a path leads to in a tree. -/
def graphIn (path : Path) (directory : Location) (tree : Tree) : Except Fault Graph :=
  match tree.read directory path with
  | .ok contents => (Graph.ofFile path.text contents).result
  | .error .fileNotFound => .error (.problem (.modelMissing path.text))
  | .error fault => .error fault

/-- What a compilation has worked out when it begins to store files. -/
structure Job (line : CommandLine) (directory : Location) (tree : Tree) where
  settings : Settings
  graph : Graph
  files : Entries String String
  settingsFound : settingsIn line directory tree = .ok settings
  graphFound : graphIn (modelPath line settings) directory tree = .ok graph
  rendered : (graph.render (orderOf line settings)).result = .ok files

/-- No file has its place where the model or the settings file is. -/
def Spares (line : CommandLine) (directory : Location) (settings : Settings)
    (files : Entries String String) : Prop :=
  ∀ name ∈ Entries.keys files,
    let place := (placeOf (outputPath line settings) name).resolve directory
    place ≠ (settingsPath line).resolve directory ∧
      place ≠ (modelPath line settings).resolve directory

instance (line : CommandLine) (directory : Location) (settings : Settings)
    (files : Entries String String) : Decidable (Spares line directory settings files) :=
  inferInstanceAs (Decidable (∀ name ∈ Entries.keys files, _ ∧ _))

namespace Job

/-- The place of a file of the job. -/
def place (job : Job line directory tree) (name : String) : Path :=
  placeOf (outputPath line job.settings) name

/-- What a job leaves when all its files are stored. -/
structure Done (job : Job line directory tree) (after : Tree) : Prop where
  /-- At the place of every file is its text, also when several files have one place. -/
  stored : ∀ name text, (name, text) ∈ job.files →
    after.read directory (job.place name) = .ok text.toUTF8
  /-- Every location is as it was, or it is such a place, or a directory made for one. -/
  fates : ∀ location, Fate (outputPath line job.settings) directory job.files tree after location

/-- No file of the job has its place where the model or the settings file is. -/
def SparesInputs (job : Job line directory tree) : Prop :=
  Spares line directory job.settings job.files

end Job

/-- What a compilation can come to: it is stopped before anything is changed, or it has a job
and stores its files, unless they may be replaced only where nothing is. -/
inductive Compilation (line : CommandLine) (directory : Location) (before : Tree) :
    Except Fault Unit → Tree → Prop where
  | stopped (fault : Fault) : Compilation line directory before (.error fault) before
  | stored {result : Except Fault Unit} {after : Tree} (job : Job line directory before)
      (vacant : line.force = false → ∀ name ∈ Entries.keys job.files,
        before.holds directory (job.place name) = .ok false)
      (stores : Stores (outputPath line job.settings) directory before job.files result after) :
      Compilation line directory before result after

theorem finds_loadSettings (line : CommandLine) :
    Finds (loadSettings line) directory tree (settingsIn line directory tree) :=
  (Host.finds_contents _).andThen (Host.finds_directory.andThen (Host.finds_logged _))

theorem finds_loadGraph (path : Path) :
    Finds (loadGraph path) directory tree (graphIn path directory tree) := by
  refine (Host.finds_contents path).andThen ?_
  unfold graphIn
  cases tree.read directory path with
  | ok contents => exact Host.finds_logged _
  | error fault => cases fault <;> exact .throw

/-- A compilation is stopped, or it has a job and stores its files. -/
theorem compile_meets (line : CommandLine) (directory : Location) (before : Tree) :
    Meets (compile line) directory before (Compilation line directory before) := by
  refine (finds_loadSettings line).bind ?_ fun fault _ => .stopped fault
  intro settings settingsFound
  refine (finds_loadGraph _).bind ?_ fun fault _ => .stopped fault
  intro graph graphFound
  refine (Host.finds_logged _).bind ?_ fun fault _ => .stopped fault
  intro files rendered
  let job : Job line directory before :=
    ⟨settings, graph, files, settingsFound, graphFound, rendered⟩
  refine (store_meets line.force (outputPath line settings) files before).bind ?_ ?_
  · rintro _ after (⟨fault, ended, _⟩ | ⟨vacant, stores⟩)
    · cases ended
    · exact (finds_announce _ _ _).meets (.stored job vacant stores)
  · rintro fault after (⟨_, _, rfl⟩ | ⟨vacant, stores⟩)
    · exact .stopped fault
    · exact .stored job vacant stores

/-- A run that ends with an explained fault leaves the tree as it is. -/
def Careful (before : Tree) (result : Except Fault Unit) (after : Tree) : Prop :=
  ∀ fault, result = .error fault → fault.explained = true → after = before

theorem Compilation.careful {result : Except Fault Unit}
    (compilation : Compilation line directory before result after) :
    Careful before result after := by
  rintro fault rfl explained
  cases compilation with
  | stopped => rfl
  | stored job vacant stores =>
      rw [stores.fault_unexplained] at explained
      cases explained

theorem finds_listRuntimes (screen : Screen) (runtimes : List Runtime) :
    Finds (listRuntimes screen runtimes) directory tree (.ok ()) := by
  induction runtimes with
  | nil => exact .pure
  | cons runtime runtimes ih => exact (Host.finds_print _).andThen ih

theorem overview_careful (line : CommandLine) (directory : Location) (before : Tree) :
    Meets (overview line) directory before (Careful before) := by
  refine (finds_loadSettings line).bind (fun settings _ => ?_) fun _ _ _ _ _ => rfl
  refine (finds_loadGraph _).bind (fun graph _ => ?_) fun _ _ _ _ _ => rfl
  refine (Host.finds_ofExcept _).bind (fun rows _ => ?_) fun _ _ _ _ _ => rfl
  refine (Host.finds_ofExcept _).bind (fun table _ => ?_) fun _ _ _ _ _ => rfl
  exact (Host.finds_print _).meets fun _ _ _ => rfl

theorem initialise_careful (screen : Screen) (directory : Location) (before : Tree) :
    Meets (initialise screen) directory before (Careful before) := by
  refine (Host.finds_holds _).bind (fun isThere _ => ?_) fun _ _ _ _ _ => rfl
  cases isThere with
  | true => exact Finds.throw.bind (fun _ ended => by cases ended) fun _ _ _ _ _ => rfl
  | false =>
      refine (Host.write_meets _ _).bind (fun _ after _ => ?_) fun fault after put => ?_
      · exact (Host.finds_print _).meets fun _ ended => by cases ended
      · exact fun _ _ _ => (writing_error put).2.symm

theorem run_meets (line : CommandLine) (compiles : line.action = .compile)
    (directory : Location) (before : Tree) :
    Meets (run line) directory before (Compilation line directory before) := by
  refine (Host.finds_record _).bind (fun _ _ => ?_) fun _ ended => by cases ended
  rw [perform, compiles]
  exact compile_meets line directory before

theorem run_careful (line : CommandLine) (directory : Location) (before : Tree) :
    Meets (run line) directory before (Careful before) := by
  refine (Host.finds_record _).bind (fun _ _ => ?_) fun _ ended => by cases ended
  unfold perform
  cases line.action with
  | compile => exact (compile_meets line directory before).mono fun _ _ => Compilation.careful
  | overview => exact overview_careful line directory before
  | runtimes => exact (finds_listRuntimes _ _).meets fun _ _ _ => rfl
  | initialise => exact initialise_careful line.screen directory before

/-- A whole run in a workspace: how it ends, and the workspace that it leaves. -/
def invoke (elapsed : String) (details? : Option String) (arguments : List String)
    (workspace : Workspace) : Ending × Workspace :=
  match CommandLine.read arguments with
  | .error stop => (stopping stop, workspace)
  | .ok line =>
    let (result, left) := (run line : Session Unit).run.run workspace
    (ending line.screen elapsed details? result, left)

theorem ending_code (screen : Screen) (elapsed : String) (details? : Option String)
    (result : Except Fault Unit) :
    (ending screen elapsed details? result).code = 0 ∧ result = .ok () ∨
      (ending screen elapsed details? result).code = 1 ∧ ∃ fault, result = .error fault := by
  cases result with
  | ok => exact .inl ⟨rfl, rfl⟩
  | error fault => cases fault <;> exact .inr ⟨rfl, _, rfl⟩

/-- A run with a fault shows it, unless it is explained. -/
theorem ending_fault? (screen : Screen) (elapsed : String) (details? : Option String)
    (fault : Fault) :
    (ending screen elapsed details? (.error fault)).fault? = none ↔ fault.explained = true := by
  cases fault <;> simp [ending, Fault.explained]

variable {arguments : List String} {start left : Workspace} {elapsed : String}
  {details? : Option String} {shown : Ending}

theorem invoke_of_read (read : CommandLine.read arguments = .ok line) :
    invoke elapsed details? arguments start =
      (ending line.screen elapsed details? ((run line : Session Unit).run.run start).1,
        ((run line : Session Unit).run.run start).2) := by
  unfold invoke
  rw [read]
  rfl

/-- What a compilation comes to, and how its run ends. -/
theorem compilation_of_invoke (ran : invoke elapsed details? arguments start = (shown, left))
    (read : CommandLine.read arguments = .ok line) (compiles : line.action = .compile) :
    ∃ result, Compilation line start.directory start.tree result left.tree ∧
      left.directory = start.directory ∧
      (shown.code = 0 ∧ result = .ok () ∨ shown.code = 1 ∧ ∃ fault, result = .error fault) := by
  obtain ⟨compilation, stays⟩ := run_meets line compiles start.directory start.tree start rfl rfl
  rw [invoke_of_read read] at ran
  cases ran
  exact ⟨_, compilation, stays, ending_code _ _ _ _⟩

theorem read_of_locate {path : Path} {location : Location} {contents : ByteArray}
    (leads : tree.locate directory path = .ok location)
    (found : tree.find? location = some (.file contents)) :
    tree.read directory path = .ok contents := by
  simp [Tree.read, leads, found, bind, Except.bind, pure, Except.pure]

theorem read_eq_ok {path : Path} {contents : ByteArray} :
    tree.read directory path = .ok contents ↔
      ∃ location, tree.locate directory path = .ok location ∧
        tree.find? location = some (.file contents) := by
  refine ⟨fun read => ?_, fun ⟨_, leads, found⟩ => read_of_locate leads found⟩
  unfold Tree.read at read
  cases leads : tree.locate directory path with
  | error fault => simp [leads, bind, Except.bind] at read
  | ok location =>
      refine ⟨location, rfl, ?_⟩
      cases found : tree.find? location with
      | none => simp [leads, found, bind, Except.bind] at read
      | some item =>
          cases item with
          | directory => simp [leads, found, bind, Except.bind] at read
          | file held => simpa [leads, found, bind, Except.bind, pure, Except.pure] using read

theorem holds_of_locate {path : Path} {location : Location} {item : Item}
    (leads : tree.locate directory path = .ok location) (found : tree.find? location = some item) :
    tree.holds directory path = .ok true := by
  simp [Tree.holds, Tree.item?, leads, found, bind, Except.bind, pure, Except.pure]

theorem Job.done {job : Job line directory before}
    (stores : Stores (outputPath line job.settings) directory before job.files (.ok ()) after) :
    job.Done after where
  stored := by
    intro name text listed
    obtain ⟨location, other, contents, leads, otherListed, otherLeads, holds⟩ :=
      stores.complete listed
    have same := (Tree.locate_eq_resolve leads).symm.trans (Tree.locate_eq_resolve otherLeads)
    rw [Graph.text_unique job.rendered listed otherListed same]
    exact read_of_locate leads holds
  fates := stores.fate

/-- What was read before files were stored is read afterwards, unless a file has its place
there. -/
theorem Stores.read_kept {output path : Path} {files : Entries String String}
    {result : Except Fault Unit} {contents : ByteArray}
    (stores : Stores output directory before files result after)
    (apart : ∀ name ∈ Entries.keys files,
      (placeOf output name).resolve directory ≠ path.resolve directory)
    (read : before.read directory path = .ok contents) :
    after.read directory path = .ok contents := by
  obtain ⟨location, leads, found⟩ := read_eq_ok.1 read
  have here := Tree.locate_eq_resolve leads
  refine read_of_locate (stores.toExtends.locate leads) ?_
  cases stores.fate location with
  | kept same => exact same.trans found
  | written name text listed placed _ _ =>
      exact absurd ((Tree.locate_eq_resolve placed).symm.trans here)
        (apart name (List.mem_map_of_mem listed))
  | made _ _ _ free _ =>
      rw [found] at free
      cases free

/-- A settings file that cannot be read counts only when it is missing and not named. -/
theorem settings_of_error {named? : Option Path} {fault : Fault} {settings : Settings}
    (loaded : (Settings.load directory named? (.error fault)).result = .ok settings) :
    named? = none ∧ fault = .fileNotFound ∧ settings = Settings.default directory := by
  cases named? with
  | some named => cases fault <;> cases loaded
  | none =>
      cases fault with
      | fileNotFound =>
          cases loaded
          exact ⟨rfl, rfl, rfl⟩
      | _ => cases loaded

/-- Where the directory is there, so is the way to the settings file that none is named for. -/
theorem locate_defaultFile (there : tree.find? directory = some .directory) :
    tree.locate directory Settings.defaultFile =
      .ok (Settings.defaultFile.resolve directory) := by
  have parts : Settings.defaultFile.parts = ["slsgraph.toml"] := by decide
  have relative : Settings.defaultFile.isAbsolute = false := by decide
  refine Tree.locate_eq_ok.2 ⟨by decide, by decide, ?_⟩
  rw [Path.resolve_eq, Path.start, relative, parts]
  refine Tree.follow_cons_eq_ok.2 ⟨there, .inr (by decide), ?_⟩
  rw [Tree.follow]

namespace Stores

variable {output : Path} {files : Entries String String} {result : Except Fault Unit}

/-- The settings are found again, unless a file has its place where they were looked for. -/
theorem settings_kept (stores : Stores output directory before files result after)
    (there : before.find? directory = some .directory)
    (apart : ∀ name ∈ Entries.keys files,
      (placeOf output name).resolve directory ≠ (settingsPath line).resolve directory)
    {settings again : Settings} (found : settingsIn line directory before = .ok settings)
    (foundAgain : settingsIn line directory after = .ok again) : again = settings := by
  unfold settingsIn at found foundAgain
  cases read : before.read directory (settingsPath line) with
  | ok contents =>
      rw [stores.read_kept apart read, ← read, found] at foundAgain
      exact (Except.ok.inj foundAgain).symm
  | error fault =>
      rw [read] at found
      obtain ⟨unnamed, rfl, rfl⟩ := settings_of_error found
      have path : settingsPath line = Settings.defaultFile := by
        rw [settingsPath, unnamed, Option.getD_none]
      cases readAgain : after.read directory (settingsPath line) with
      | error fault =>
          rw [readAgain] at foundAgain
          exact (settings_of_error foundAgain).2.2
      | ok contents =>
          -- Nothing was there before, and what is stored there has another place.
          obtain ⟨location, leads, held⟩ := read_eq_ok.1 readAgain
          have here := Tree.locate_eq_resolve leads
          have way : before.locate directory (settingsPath line) = .ok location := by
            rw [here, path]
            exact locate_defaultFile there
          cases stores.fate location with
          | kept same =>
              rw [read_of_locate way (same.symm.trans held)] at read
              cases read
          | written name text listed placed _ _ =>
              exact absurd ((Tree.locate_eq_resolve placed).symm.trans here)
                (apart name (List.mem_map_of_mem listed))
          | made _ _ _ _ made =>
              rw [held] at made
              cases made

/-- The model is found again, unless a file has its place there. -/
theorem graph_kept (stores : Stores output directory before files result after) {path : Path}
    (apart : ∀ name ∈ Entries.keys files,
      (placeOf output name).resolve directory ≠ path.resolve directory)
    {graph again : Graph} (found : graphIn path directory before = .ok graph)
    (foundAgain : graphIn path directory after = .ok again) : again = graph := by
  unfold graphIn at found foundAgain
  cases read : before.read directory path with
  | ok contents =>
      rw [read] at found
      rw [stores.read_kept apart read, found] at foundAgain
      exact (Except.ok.inj foundAgain).symm
  | error fault =>
      rw [read] at found
      cases fault <;> cases found

end Stores

/-- After a job is done, no compilation that leaves its files alone has another job. -/
theorem Job.Done.again {job : Job line directory before} (done : job.Done after)
    (stores : Stores (outputPath line job.settings) directory before job.files (.ok ()) after)
    (there : before.find? directory = some .directory) (spared : job.SparesInputs)
    {result : Except Fault Unit} {later : Tree}
    (compilation : Compilation { line with force := false } directory after result later) :
    (∃ fault, result = .error fault) ∧ later = after := by
  cases compilation with
  | stopped fault => exact ⟨⟨fault, rfl⟩, rfl⟩
  | stored again vacant storesAgain =>
      -- The job would be the same one, and the place of the descriptor is taken by now.
      exfalso
      have settingsEq : again.settings = job.settings :=
        stores.settings_kept there (fun name key => (spared name key).1) job.settingsFound
          again.settingsFound
      have graphFound := again.graphFound
      rw [settingsEq] at graphFound
      have graphEq : again.graph = job.graph :=
        stores.graph_kept (fun name key => (spared name key).2) job.graphFound graphFound
      have rendered := again.rendered
      rw [graphEq, settingsEq] at rendered
      have filesEq : again.files = job.files :=
        Except.ok.inj (rendered.symm.trans job.rendered)
      obtain ⟨runtime, descriptor, _, listed⟩ := Graph.mem_render job.rendered
      have last := (listed descriptorFile descriptor).2 (.inr rfl)
      have free := vacant rfl descriptorFile
        (Entries.mem_keys_iff.2 ⟨descriptor, filesEq ▸ last⟩)
      obtain ⟨location, leads, held⟩ := read_eq_ok.1 (done.stored _ _ last)
      have taken := holds_of_locate leads held
      rw [Job.place, settingsEq] at free
      rw [Job.place] at taken
      exact absurd (taken.symm.trans free) (by simp)

/-- A run that ends with an explained fault, or that does nothing, leaves the tree as it is. A
compilation that ends well has stored its files and changed nothing else; the same compilation
once more is refused when it may not replace files, and changes nothing. -/
theorem invoke_all_or_nothing
    (ran : invoke elapsed details? arguments start = (shown, left)) :
    (shown.code ≠ 0 → shown.fault? = none → left.tree = start.tree) ∧
    ∀ line, CommandLine.read arguments = .ok line → line.action = .compile → shown.code = 0 →
      ∃ job : Job line start.directory start.tree, job.Done left.tree ∧
        (start.tree.find? start.directory = some .directory → job.SparesInputs →
          ∀ elapsedAgain detailsAgain? again shownAgain later,
            CommandLine.read again = .ok { line with force := false } →
            invoke elapsedAgain detailsAgain? again left = (shownAgain, later) →
            shownAgain.code = 1 ∧ later.tree = left.tree) := by
  constructor
  · intro failed explained
    cases read : CommandLine.read arguments with
    | error stop =>
        rw [invoke, read] at ran
        cases ran
        rfl
    | ok line =>
        obtain ⟨careful, _⟩ := run_careful line start.directory start.tree start rfl rfl
        rw [invoke_of_read read] at ran
        cases ran
        generalize ((run line : Session Unit).run.run start).1 = result at *
        cases result with
        | ok => exact absurd rfl failed
        | error fault => exact careful fault rfl ((ending_fault? _ _ _ _).1 explained)
  · intro line read compiles succeeded
    obtain ⟨result, compilation, stays, ends⟩ := compilation_of_invoke ran read compiles
    obtain ⟨_, rfl⟩ | ⟨failed, _⟩ := ends
    · cases compilation with
      | stored job vacant stores =>
          refine ⟨job, job.done stores, fun there spared => ?_⟩
          intro elapsedAgain detailsAgain? again shownAgain later readAgain ranAgain
          obtain ⟨resultAgain, compilationAgain, _, endsAgain⟩ :=
            compilation_of_invoke ranAgain readAgain compiles
          rw [stays] at compilationAgain
          obtain ⟨⟨fault, rfl⟩, same⟩ :=
            (job.done stores).again stores there spared compilationAgain
          obtain ⟨_, ended⟩ | ⟨refused, _⟩ := endsAgain
          · cases ended
          · exact ⟨refused, same⟩
    · rw [succeeded] at failed
      cases failed

/-- What a command line renders in a tree, and with which settings. -/
def renderingIn (line : CommandLine) (directory : Location) (tree : Tree) :
    Except Fault (Settings × Entries String String) := do
  let settings ← settingsIn line directory tree
  let graph ← graphIn (modelPath line settings) directory tree
  let files ← (graph.render (orderOf line settings)).result
  return (settings, files)

theorem Job.renderingIn_eq (job : Job line directory tree) :
    renderingIn line directory tree = .ok (job.settings, job.files) := by
  simp [renderingIn, job.settingsFound, job.graphFound, job.rendered, bind, Except.bind, pure,
    Except.pure]

/-- What is checked of all that a command line renders in a tree holds of its job. -/
theorem Job.of_checked (holds : Settings → Entries String String → Prop)
    [∀ settings files, Decidable (holds settings files)] (job : Job line directory tree)
    (checked : ((renderingIn line directory tree).toOption.all fun work =>
      holds work.1 work.2) = true) :
    holds job.settings job.files := by
  rw [job.renderingIn_eq] at checked
  exact of_decide_eq_true checked

/-- A directory that holds a model of one function. -/
def sketch : Workspace where
  tree := ⟨[(["work"], .directory), (["work", "model.json"], .file
    "\x7b\"nodes\": [\x7b\"id\": \"resize\", \"type\": \"fn\"\x7d]\x7d".toUTF8)]⟩
  directory := ["work"]

theorem sketch_all_or_nothing : ∃ shown left,
    invoke "0.00" none ["compile"] sketch = (shown, left) ∧ shown.code = 0 ∧
      ∃ job : Job { action := .compile } sketch.directory sketch.tree, job.Done left.tree ∧
        ∀ shownAgain later, invoke "0.00" none ["compile"] left = (shownAgain, later) →
          shownAgain.code = 1 ∧ later.tree = left.tree := by
  have read : CommandLine.read ["compile"] = .ok { action := .compile } := by cbv
  have succeeded : (invoke "0.00" none ["compile"] sketch).1.code = 0 := by decide +kernel
  refine ⟨_, _, rfl, succeeded, ?_⟩
  obtain ⟨job, done, again⟩ := (invoke_all_or_nothing rfl).2 _ read rfl succeeded
  have spared : job.SparesInputs :=
    job.of_checked (Spares { action := .compile } sketch.directory) (by decide +kernel)
  exact ⟨job, done, fun shownAgain later ran => again rfl spared _ _ _ _ _ read ran⟩

end Command

end CloudGraph
