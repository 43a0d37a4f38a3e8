import CloudGraph.Command.Workspace
import CloudGraph.Proofs.Storing

/-!
# Sessions

What a command does to a workspace, read off the way it is put together.
`Session.Meets` says of which results and trees something holds when a session has ended, no
matter what has been printed and logged before, and `Session.Finds` is the case of a session
that changes no file. Their rules follow the operations of a host.

The session of a compilation is taken apart once (`Command.compile_meets`): it is stopped
before it changes anything, or it has a `Job` and stores the files of that job. All that is
said of runs is said from there.
-/

namespace CloudGraph

namespace Session

variable {α β : Type} {directory : Location} {before : Tree}

/-- Begun in a tree, a session ends with a result and a tree of which something holds, and it
goes on in the same directory. -/
def Meets (session : Session α) (directory : Location) (before : Tree)
    (post : Except Fault α → Tree → Prop) : Prop :=
  ∀ workspace : Workspace, workspace.tree = before → workspace.directory = directory →
    post (session.run.run workspace).1 (session.run.run workspace).2.tree ∧
      (session.run.run workspace).2.directory = directory

/-- Begun in a tree, a session ends with the result and leaves the tree as it is. -/
def Finds (session : Session α) (directory : Location) (tree : Tree) (result : Except Fault α) :
    Prop :=
  session.Meets directory tree fun ended after => ended = result ∧ after = tree

theorem Meets.mono {session : Session α} {post wider : Except Fault α → Tree → Prop}
    (meets : session.Meets directory before post)
    (weaker : ∀ result after, post result after → wider result after) :
    session.Meets directory before wider := by
  intro workspace tree place
  obtain ⟨holds, stays⟩ := meets workspace tree place
  exact ⟨weaker _ _ holds, stays⟩

/-- Of two computations, the second goes on in the state that the first leaves, unless the first
ends with a fault. -/
theorem run_bind {σ : Type} (first : ExceptT Fault (StateM σ) α)
    (next : α → ExceptT Fault (StateM σ) β) (state : σ) :
    (first >>= next).run.run state =
      match first.run.run state with
      | (.ok value, left) => (next value).run.run left
      | (.error fault, left) => (.error fault, left) := by
  rw [ExceptT.run_bind, StateT.run_bind]
  obtain ⟨result, left⟩ := first.run.run state
  cases result <;> rfl

theorem Meets.bind {first : Session α} {next : α → Session β}
    {middle : Except Fault α → Tree → Prop} {post : Except Fault β → Tree → Prop}
    (meets : first.Meets directory before middle)
    (goesOn : ∀ value tree, middle (.ok value) tree → (next value).Meets directory tree post)
    (stops : ∀ fault tree, middle (.error fault) tree → post (.error fault) tree) :
    Meets (first >>= next) directory before post := by
  intro workspace tree place
  obtain ⟨holds, stays⟩ := meets workspace tree place
  rw [run_bind]
  generalize first.run.run workspace = ended at holds stays
  obtain ⟨result, left⟩ := ended
  cases result with
  | ok value => exact goesOn value left.tree holds left rfl stays
  | error fault => exact ⟨stops fault left.tree holds, stays⟩

namespace Finds

theorem pure {value : α} : Finds (Pure.pure value) directory before (.ok value) :=
  fun _ tree place => ⟨⟨rfl, tree⟩, place⟩

theorem throw {fault : Fault} :
    Finds (throw fault : Session α) directory before (.error fault) :=
  fun _ tree place => ⟨⟨rfl, tree⟩, place⟩

/-- After a session that changes no file, the next one begins in the same tree. -/
theorem bind {first : Session α} {next : α → Session β} {result : Except Fault α}
    {post : Except Fault β → Tree → Prop} (finds : first.Finds directory before result)
    (goesOn : ∀ value, result = .ok value → (next value).Meets directory before post)
    (stops : ∀ fault, result = .error fault → post (.error fault) before) :
    Meets (first >>= next) directory before post := by
  refine Meets.bind finds ?_ ?_
  · rintro value tree ⟨found, rfl⟩
    exact goesOn value found.symm
  · rintro fault tree ⟨found, rfl⟩
    exact stops fault found.symm

/-- What holds of the result and the tree of a session that changes no file. -/
theorem meets {session : Session α} {result : Except Fault α}
    {post : Except Fault α → Tree → Prop} (finds : session.Finds directory before result)
    (holds : post result before) : session.Meets directory before post :=
  Meets.mono finds fun _ _ ended => by
    rw [ended.1, ended.2]
    exact holds

/-- Two sessions in a row that change no file. -/
theorem andThen {first : Session α} {next : α → Session β} {value : α} {result : Except Fault β}
    (finds : first.Finds directory before (.ok value))
    (later : (next value).Finds directory before result) :
    Finds (first >>= next) directory before result := by
  refine bind finds ?_ ?_
  · rintro other ⟨⟩
    exact later
  · rintro fault ⟨⟩

end Finds

end Session

namespace Host

variable {α : Type} {directory : Location} {tree : Tree}

open Session

theorem finds_directory :
    Finds (Host.directory : Session Location) directory tree (.ok directory) :=
  fun _ held place => ⟨⟨congrArg Except.ok place, held⟩, place⟩

theorem finds_contents (path : Path) :
    Finds (Host.contents path) directory tree (.ok (tree.read directory path)) := by
  rintro workspace rfl rfl
  exact ⟨⟨rfl, rfl⟩, rfl⟩

theorem finds_holds (path : Path) :
    Finds (Host.holds path) directory tree (tree.holds directory path) := by
  rintro workspace rfl rfl
  exact ⟨⟨rfl, rfl⟩, rfl⟩

theorem finds_record (record : Record) :
    Finds (Host.record record) directory tree (.ok ()) :=
  fun _ held place => ⟨⟨rfl, held⟩, place⟩

theorem finds_print (text : String) : Finds (Host.print text) directory tree (.ok ()) :=
  fun _ held place => ⟨⟨rfl, held⟩, place⟩

theorem finds_recordAll (records : List Record) :
    Finds (recordAll records) directory tree (.ok ()) := by
  induction records with
  | nil => exact .pure
  | cons record records ih => exact (finds_record record).andThen ih

theorem finds_ofExcept (result : Except Fault α) :
    Finds (ofExcept result) directory tree result := by
  cases result with
  | ok value => exact .pure
  | error fault => exact .throw

theorem finds_logged (computation : Logged α) :
    Finds (logged computation) directory tree computation.result :=
  (finds_recordAll computation.steps).andThen (finds_ofExcept computation.result)

theorem makeDirectories_meets (path : Path) :
    Meets (Host.makeDirectories path) directory tree fun result after =>
      tree.makeDirectories directory path = (after, result) := by
  rintro workspace rfl rfl
  exact ⟨rfl, rfl⟩

theorem write_meets (path : Path) (text : String) :
    Meets (Host.write path text) directory tree fun result after =>
      Workspace.writing path text tree directory = (after, result) := by
  rintro workspace rfl rfl
  exact ⟨rfl, rfl⟩

end Host

namespace Command

open Session

variable {directory : Location} {tree before after : Tree} {line : CommandLine} {path output : Path}
  {files : Entries String String}

theorem writing_ok {text : String}
    (put : Workspace.writing path text tree directory = (after, .ok ())) :
    tree.write directory path text.toUTF8 = .ok after := by
  unfold Workspace.writing at put
  cases wrote : tree.write directory path text.toUTF8 <;> simp_all

theorem writing_error {text : String} {fault : Fault}
    (put : Workspace.writing path text tree directory = (after, .error fault)) :
    tree.write directory path text.toUTF8 = .error fault ∧ tree = after := by
  unfold Workspace.writing at put
  cases wrote : tree.write directory path text.toUTF8 <;> simp_all

theorem writeAll_meets (output : Path) (files : Entries String String) (before : Tree) :
    Meets (writeAll output files) directory before (Stores output directory before files) := by
  induction files generalizing before with
  | nil => exact Finds.pure.meets .done
  | cons entry files ih =>
      obtain ⟨name, text⟩ := entry
      refine (Host.makeDirectories_meets _).bind ?_ fun fault middle cut => .blocked cut
      intro _ middle furnished
      refine (Host.write_meets _ _).bind ?_ ?_
      · intro _ next put
        refine (Host.finds_record _).bind (fun _ _ => ?_) (fun _ ended => by cases ended)
        exact (ih next).mono fun _ _ rest => .written furnished (writing_ok put) rest
      · intro fault same put
        obtain ⟨fails, rfl⟩ := writing_error put
        exact .refused furnished fails

/-- When no name is found to be taken, nothing is held at any place. -/
theorem taken_meets (output : Path) (names : List String) :
    Meets (taken output names) directory tree fun result after => after = tree ∧
      (result = .ok [] →
        ∀ name ∈ names, tree.holds directory (placeOf output name) = .ok false) := by
  induction names with
  | nil => exact Finds.pure.meets (by simp)
  | cons name names ih =>
      refine (Host.finds_holds _).bind ?_ (by simp)
      intro isTaken found
      refine ih.bind ?_ (by simp)
      rintro others same ⟨rfl, free⟩
      refine Finds.pure.meets ⟨rfl, fun none => ?_⟩
      cases isTaken with
      | true => simp at none
      | false =>
          rintro other (_ | ⟨_, listed⟩)
          · exact found
          · exact free (by simpa using none) other listed

/-- Files are left alone or stored; unless they may be replaced, they are stored where nothing
is. -/
theorem store_meets (replace : Bool) (output : Path) (files : Entries String String)
    (before : Tree) :
    Meets (store replace output files) directory before fun result after =>
      (∃ fault, result = .error fault ∧ after = before) ∨
        (replace = false → ∀ name ∈ Entries.keys files,
          before.holds directory (placeOf output name) = .ok false) ∧
        Stores output directory before files result after := by
  unfold store
  cases replace with
  | true =>
      exact (writeAll_meets output files before).mono fun _ _ stores => .inr ⟨by simp, stores⟩
  | false =>
      refine (taken_meets output (Entries.keys files)).bind ?_ ?_
      · rintro names same ⟨rfl, free⟩
        cases names with
        | nil =>
            exact (writeAll_meets output files same).mono fun _ _ stores =>
              .inr ⟨fun _ => free rfl, stores⟩
        | cons name names =>
            exact Finds.throw.bind (fun _ ended => by cases ended)
              fun fault _ => .inl ⟨fault, rfl, rfl⟩
      · rintro fault same ⟨rfl, _⟩
        exact .inl ⟨fault, rfl, rfl⟩

theorem finds_announce (screen : Screen) (output : Path) (names : List String) :
    Finds (announce screen output names) directory tree (.ok ()) := by
  induction names with
  | nil => exact .pure
  | cons name names ih =>
      unfold announce
      cases screen.quiet with
      | true => exact Finds.pure.andThen ih
      | false => exact (Host.finds_print _).andThen ih

end Command

end CloudGraph
