import CloudGraph.Proofs.Runs

/-!
# What a run asks of the files

A `Watch` is a host that carries out everything in a workspace and notes what is asked of the
files, with the paths. Commands are written once for every host, so that what they do in a
workspace and what they ask of it are told by two runs of one definition. A `Correspondence` says
when two hosts cannot be told apart by a command that stays with some paths: `Watch.erasing` is the
one that forgets the requests, and `Watch.moving` the one that changes the directory, for absolute
paths.
-/

namespace CloudGraph

/-- What is asked of the files. -/
inductive Request where
  | contents (path : Path)
  | holds (path : Path)
  | makeDirectories (path : Path)
  | write (path : Path) (text : String)
  deriving DecidableEq

/-- The path of what is asked of the files. -/
def Request.path : Request → Path
  | .contents path | .holds path | .makeDirectories path | .write path _ => path

/-- A workspace, and what has been asked of its files. -/
structure Watched where
  workspace : Workspace
  requests : List Request := []

/-- The same in another directory. -/
def Watched.moved (watched : Watched) (directory : Location) : Watched :=
  { watched with workspace := { watched.workspace with directory } }

/-- A command that is watched while it is carried out. -/
abbrev Watch := ExceptT Fault (StateM Watched)

namespace Watch

variable {α : Type}

/-- Carries out what asks nothing of the files. -/
def carry (session : Session α) : Watch α := fun watched =>
  let (result, workspace) := session.run.run watched.workspace
  (result, { watched with workspace })

/-- Notes a request and carries it out. -/
def asking (request : Request) (session : Session α) : Watch α := fun watched =>
  let (result, workspace) := session.run.run watched.workspace
  (result, ⟨workspace, watched.requests ++ [request]⟩)

end Watch

instance : Host Watch where
  directory := Watch.carry Host.directory
  contents path := Watch.asking (.contents path) (Host.contents path)
  holds path := Watch.asking (.holds path) (Host.holds path)
  makeDirectories path := Watch.asking (.makeDirectories path) (Host.makeDirectories path)
  write path text := Watch.asking (.write path text) (Host.write path text)
  print text := Watch.carry (Host.print text)
  record record := Watch.carry (Host.record record)

/-- A relation between the computations of two hosts that everything respects which hosts do, as
long as the paths are among some. -/
structure Correspondence (m n : Type → Type) [Host m] [Host n] where
  agree : ∀ {α : Type}, m α → n α → Prop
  reaches : Path → Prop
  pure : ∀ {α : Type} (value : α), agree (Pure.pure value) (Pure.pure value)
  throw : ∀ {α : Type} (fault : Fault), agree (throw fault : m α) (throw fault : n α)
  bind : ∀ {α β : Type} {first : m α} {other : n α} {next : α → m β} {nextOther : α → n β},
    agree first other → (∀ value, agree (next value) (nextOther value)) →
      agree (first >>= next) (other >>= nextOther)
  contents : ∀ path, reaches path → agree (Host.contents path) (Host.contents path)
  holds : ∀ path, reaches path → agree (Host.holds path) (Host.holds path)
  makeDirectories : ∀ path, reaches path →
    agree (Host.makeDirectories path) (Host.makeDirectories path)
  write : ∀ path text, reaches path → agree (Host.write path text) (Host.write path text)
  print : ∀ text, agree (Host.print text) (Host.print text)
  record : ∀ record, agree (Host.record record) (Host.record record)
  /-- With a directory, all the files in it are among the paths, and the directories above them. -/
  below : ∀ output name, reaches output → reaches (Command.placeOf output name) ∧
    reaches (Command.placeOf output name).parent

namespace Tree

section Absolute

variable {path : Path} (absolute : path.isAbsolute = true) (directory other : Location)
  (tree : Tree)

include absolute

/-! An absolute path leads to the same place from every directory. -/

theorem locate_of_absolute : tree.locate directory path = tree.locate other path := by
  simp only [locate, absolute, if_true]

theorem read_of_absolute : tree.read directory path = tree.read other path := by
  simp only [Tree.read, locate_of_absolute absolute directory other]

theorem item?_of_absolute : tree.item? directory path = tree.item? other path := by
  simp only [item?, locate_of_absolute absolute directory other]

theorem holds_of_absolute : tree.holds directory path = tree.holds other path := by
  simp only [holds, item?_of_absolute absolute directory other]

theorem write_of_absolute (contents : ByteArray) :
    tree.write directory path contents = tree.write other path contents := by
  simp only [Tree.write, locate_of_absolute absolute directory other]

theorem ensureDirectory_of_absolute :
    tree.ensureDirectory directory path = tree.ensureDirectory other path := by
  simp only [ensureDirectory, makeDirectory, locate_of_absolute absolute directory other,
    item?_of_absolute absolute directory other]

end Absolute

theorem makeDirectories_of_absolute {path : Path} (absolute : path.isAbsolute = true)
    (directory other : Location) (tree : Tree) :
    tree.makeDirectories directory path = tree.makeDirectories other path := by
  have ensured := ensureDirectory_of_absolute absolute directory other
  rw [makeDirectories, makeDirectories.eq_def tree other path, ensured]
  cases tree.ensureDirectory other path with
  | ok made => rfl
  | error fault =>
      cases fault with
      | fileNotFound =>
          by_cases atRoot : path.parts = []
          · simp only [atRoot, dif_pos]
          · have shorter : path.parent.parts.length < path.parts.length := by
              have := List.length_pos_iff.2 atRoot
              simp only [Path.parent, List.length_dropLast]
              omega
            have parentAbsolute : path.parent.isAbsolute = true := absolute
            have above := makeDirectories_of_absolute parentAbsolute directory other tree
            simp only [dif_neg atRoot, above, ensured]
      | _ => rfl
termination_by path.parts.length

end Tree

namespace Command

/-- What a command line with its settings compiles. -/
structure Task where
  order : Order
  model : Path
  output : Path

/-- The task that a command line has with its settings. -/
def taskOf (line : CommandLine) (settings : Settings) : Task where
  order := orderOf line settings
  model := modelPath line settings
  output := outputPath line settings

/-- What a compilation does once its settings are known. -/
def carryOut {m : Type → Type} [Host m] (line : CommandLine) (task : Task) : m Unit := do
  let graph ← loadGraph task.model
  let files ← Host.logged (graph.render task.order)
  store line.force task.output files
  announce line.screen task.output (Entries.keys files)

theorem compile_eq {m : Type → Type} [Host m] (line : CommandLine) :
    compile line = (loadSettings line >>= fun settings => carryOut line (taskOf line settings) :
      m Unit) := rfl

end Command

namespace Correspondence

open Command

variable {m n : Type → Type} [Host m] [Host n] (agreed : Correspondence m n) {α : Type}
  {line : CommandLine} {path output : Path}

theorem recordAll (records : List Record) :
    agreed.agree (Host.recordAll records) (Host.recordAll records) := by
  induction records with
  | nil => exact agreed.pure ()
  | cons record records ih => exact agreed.bind (agreed.record record) fun _ => ih

theorem ofExcept (result : Except Fault α) :
    agreed.agree (Host.ofExcept result) (Host.ofExcept result) := by
  cases result with
  | ok value => exact agreed.pure value
  | error fault => exact agreed.throw fault

theorem logged (computation : Logged α) :
    agreed.agree (Host.logged computation) (Host.logged computation) :=
  agreed.bind (agreed.recordAll _) fun _ => agreed.ofExcept _

theorem loadGraph (reached : agreed.reaches path) :
    agreed.agree (loadGraph path) (loadGraph path) := by
  refine agreed.bind (agreed.contents path reached) fun read => ?_
  cases read with
  | ok contents => exact agreed.logged _
  | error fault => cases fault <;> exact agreed.throw _

theorem taken (reached : agreed.reaches output) (names : List String) :
    agreed.agree (taken output names) (taken output names) := by
  induction names with
  | nil => exact agreed.pure []
  | cons name names ih =>
      refine agreed.bind (agreed.holds _ (agreed.below output name reached).1) fun isTaken => ?_
      exact agreed.bind ih fun others => agreed.pure _

theorem writeAll (reached : agreed.reaches output) (files : Entries String String) :
    agreed.agree (writeAll output files) (writeAll output files) := by
  induction files with
  | nil => exact agreed.pure ()
  | cons file files ih =>
      obtain ⟨placed, parent⟩ := agreed.below output file.1 reached
      refine agreed.bind (agreed.makeDirectories _ parent) fun _ => ?_
      refine agreed.bind (agreed.write _ _ placed) fun _ => ?_
      exact agreed.bind (agreed.record _) fun _ => ih

theorem store (replace : Bool) (reached : agreed.reaches output) (files : Entries String String) :
    agreed.agree (store replace output files) (store replace output files) := by
  unfold Command.store
  cases replace with
  | true => exact agreed.writeAll reached files
  | false =>
      refine agreed.bind (agreed.taken reached _) fun names => ?_
      cases names with
      | nil => exact agreed.writeAll reached files
      | cons name names => exact agreed.bind (agreed.throw _) fun _ => agreed.writeAll reached files

theorem announce (screen : Screen) (output : Path) (names : List String) :
    agreed.agree (announce screen output names) (announce screen output names) := by
  induction names with
  | nil => exact agreed.pure ()
  | cons name names ih =>
      unfold Command.announce
      cases screen.quiet with
      | true => exact ih
      | false => exact agreed.bind (agreed.print _) fun _ => ih

theorem listRuntimes (screen : Screen) (runtimes : List Runtime) :
    agreed.agree (listRuntimes screen runtimes) (listRuntimes screen runtimes) := by
  induction runtimes with
  | nil => exact agreed.pure ()
  | cons runtime runtimes ih => exact agreed.bind (agreed.print _) fun _ => ih

/-- A compilation cannot tell two hosts apart whose settings name paths among those of the
correspondence. -/
theorem carryOut (line : CommandLine) (task : Task) (model : agreed.reaches task.model)
    (output : agreed.reaches task.output) :
    agreed.agree (carryOut line task) (carryOut line task) := by
  refine agreed.bind (agreed.loadGraph model) fun graph => ?_
  refine agreed.bind (agreed.logged _) fun files => ?_
  refine agreed.bind (agreed.store line.force output files) fun _ => ?_
  exact agreed.announce _ _ _

section Everywhere

variable (everywhere : ∀ path, agreed.reaches path)
  (directory : agreed.agree Host.directory Host.directory)

include everywhere

theorem initialise (screen : Screen) : agreed.agree (initialise screen) (initialise screen) := by
  refine agreed.bind (agreed.holds _ (everywhere _)) fun isThere => ?_
  have goesOn := agreed.bind (agreed.write Settings.defaultFile Settings.template (everywhere _))
    fun _ => agreed.print ("\n" ++ tick ++ " Created " ++ screen.styled .good
      Settings.defaultFile.text ++ "\n")
  cases isThere with
  | true => exact agreed.bind (agreed.throw _) fun _ => goesOn
  | false => exact goesOn

include directory

theorem loadSettings (line : CommandLine) :
    agreed.agree (loadSettings line) (loadSettings line) := by
  refine agreed.bind (agreed.contents _ (everywhere _)) fun contents => ?_
  exact agreed.bind directory fun _ => agreed.logged _

theorem compile (line : CommandLine) : agreed.agree (compile line) (compile line) := by
  rw [compile_eq, compile_eq]
  exact agreed.bind (agreed.loadSettings everywhere directory line) fun settings =>
    agreed.carryOut line _ (everywhere _) (everywhere _)

theorem overview (line : CommandLine) : agreed.agree (overview line) (overview line) := by
  refine agreed.bind (agreed.loadSettings everywhere directory line) fun settings => ?_
  refine agreed.bind (agreed.loadGraph (everywhere _)) fun graph => ?_
  refine agreed.bind (agreed.ofExcept _) fun rows => ?_
  exact agreed.bind (agreed.ofExcept _) fun table => agreed.print _

/-- No command can tell two hosts apart that correspond on every path and on the directory. -/
theorem run (line : CommandLine) : agreed.agree (run line) (run line) := by
  refine agreed.bind (agreed.record _) fun _ => ?_
  unfold perform
  cases line.action with
  | compile => exact agreed.compile everywhere directory line
  | overview => exact agreed.overview everywhere directory line
  | runtimes => exact agreed.listRuntimes line.screen Runtime.all
  | initialise => exact agreed.initialise everywhere line.screen

end Everywhere

end Correspondence

/-- From states that are related, two computations come to one result, and to states that are
related. -/
def Keeps {σ τ α : Type} (related : σ → τ → Prop) (first : ExceptT Fault (StateM σ) α)
    (other : ExceptT Fault (StateM τ) α) : Prop :=
  ∀ state otherState, related state otherState →
    (first.run.run state).1 = (other.run.run otherState).1 ∧
      related (first.run.run state).2 (other.run.run otherState).2

section Keeps

variable {σ τ α β : Type} {related : σ → τ → Prop}

theorem Keeps.pure (value : α) : Keeps related (Pure.pure value) (Pure.pure value) :=
  fun _ _ holds => ⟨rfl, holds⟩

theorem Keeps.throw (fault : Fault) :
    Keeps related (throw fault : ExceptT Fault (StateM σ) α) (throw fault) :=
  fun _ _ holds => ⟨rfl, holds⟩

theorem Keeps.bind {first : ExceptT Fault (StateM σ) α} {other : ExceptT Fault (StateM τ) α}
    {next : α → ExceptT Fault (StateM σ) β} {nextOther : α → ExceptT Fault (StateM τ) β}
    (keeps : Keeps related first other)
    (later : ∀ value, Keeps related (next value) (nextOther value)) :
    Keeps related (first >>= next) (other >>= nextOther) := by
  intro state otherState holds
  obtain ⟨same, left⟩ := keeps state otherState holds
  rw [Session.run_bind, Session.run_bind]
  generalize first.run.run state = ended at same left
  generalize other.run.run otherState = otherEnded at same left
  obtain ⟨result, after⟩ := ended
  obtain ⟨otherResult, otherAfter⟩ := otherEnded
  obtain rfl : result = otherResult := same
  cases result with
  | ok value => exact later value after otherAfter left
  | error fault => exact ⟨rfl, left⟩

end Keeps

namespace Watch

/-- A watched command does in its workspace what it does unwatched. -/
def erasing : Correspondence Watch Session where
  agree := Keeps fun watched workspace => watched.workspace = workspace
  reaches _ := True
  pure := Keeps.pure
  throw := Keeps.throw
  bind := Keeps.bind
  contents := by
    rintro path - watched _ rfl
    exact ⟨rfl, rfl⟩
  holds := by
    rintro path - watched _ rfl
    exact ⟨rfl, rfl⟩
  makeDirectories := by
    rintro path - watched _ rfl
    exact ⟨rfl, rfl⟩
  write := by
    rintro path text - watched _ rfl
    exact ⟨rfl, rfl⟩
  print := by
    rintro text watched _ rfl
    exact ⟨rfl, rfl⟩
  record := by
    rintro record watched _ rfl
    exact ⟨rfl, rfl⟩
  below _ _ _ := ⟨trivial, trivial⟩

/-- Watching a run changes nothing about it. -/
theorem run_erased (line : CommandLine) (watched : Watched) :
    (Command.run line : Session Unit).run.run watched.workspace =
      (((Command.run line : Watch Unit).run.run watched).1,
        ((Command.run line : Watch Unit).run.run watched).2.workspace) := by
  have directory : erasing.agree Host.directory Host.directory := by
    rintro watched _ rfl
    exact ⟨rfl, rfl⟩
  obtain ⟨result, workspace⟩ := erasing.run (fun _ => trivial) directory line watched _ rfl
  exact Prod.ext result.symm workspace.symm

/-- A watched workspace of which only absolute paths were asked, and the same in another
directory. -/
def IsMoved (directory : Location) (watched moved : Watched) : Prop :=
  moved = watched.moved directory ∧ ∀ request ∈ watched.requests, request.path.isAbsolute = true

/-- A session that does the same in another directory. -/
def Steady (directory : Location) (session : Session α) : Prop :=
  ∀ workspace : Workspace, session.run.run { workspace with directory } =
    ((session.run.run workspace).1, { (session.run.run workspace).2 with directory })

variable {directory : Location}

theorem steady_ask {look : Workspace → Except Fault α}
    (same : ∀ workspace : Workspace, look { workspace with directory } = look workspace) :
    Steady directory (Workspace.ask look) :=
  fun workspace => congrArg (fun result => (result, ({ workspace with directory } : Workspace)))
    (same workspace)

theorem steady_alter {change : Tree → Location → Tree × Except Fault Unit}
    (same : ∀ tree here, change tree directory = change tree here) :
    Steady directory (Workspace.alter change) := by
  intro workspace
  have changed := same workspace.tree workspace.directory
  exact congrArg (fun made => (made.2, { workspace with tree := made.1, directory })) changed

theorem Steady.asking {request : Request} {session : Session α} (steady : Steady directory session)
    (absolute : request.path.isAbsolute = true) :
    Keeps (IsMoved directory) (asking request session) (asking request session) := by
  rintro watched _ ⟨rfl, asked⟩
  have moved := steady watched.workspace
  refine ⟨(congrArg (·.1) moved).symm, ?_, ?_⟩
  · exact congrArg (fun ended => Watched.mk ended.2 (watched.requests ++ [request])) moved
  · exact List.forall_mem_append.2 ⟨asked, by simpa using absolute⟩

theorem Steady.carry {session : Session α} (steady : Steady directory session) :
    Keeps (IsMoved directory) (carry session) (carry session) := by
  rintro watched _ ⟨rfl, asked⟩
  have moved := steady watched.workspace
  refine ⟨(congrArg (·.1) moved).symm, ?_, asked⟩
  exact congrArg (fun ended => Watched.mk ended.2 watched.requests) moved

/-- With absolute paths nothing depends on the directory. -/
def moving (directory : Location) : Correspondence Watch Watch where
  agree := Keeps (IsMoved directory)
  reaches path := path.isAbsolute = true
  pure := Keeps.pure
  throw := Keeps.throw
  bind := Keeps.bind
  contents path absolute := by
    refine (steady_ask fun workspace => ?_).asking absolute
    rw [Tree.read_of_absolute absolute directory workspace.directory]
  holds path absolute := (steady_ask fun workspace =>
    Tree.holds_of_absolute absolute _ _ workspace.tree).asking absolute
  makeDirectories path absolute := (steady_alter fun tree here =>
    Tree.makeDirectories_of_absolute absolute _ here tree).asking absolute
  write path text absolute := by
    refine (steady_alter fun tree here => ?_).asking absolute
    rw [Workspace.writing, Workspace.writing, Tree.write_of_absolute absolute directory here]
  print _ := Steady.carry fun _ => rfl
  record _ := Steady.carry fun _ => rfl
  below output name absolute := by
    have placed : (Command.placeOf output name).isAbsolute = true := by
      unfold Command.placeOf Path.join
      split
      next isAbsolute => exact isAbsolute
      next => exact absolute
    exact ⟨placed, placed⟩

end Watch

end CloudGraph
