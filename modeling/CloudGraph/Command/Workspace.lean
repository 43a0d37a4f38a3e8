import CloudGraph.Command.Host
import CloudGraph.Files.Tree

/-!
# Workspaces

A host that is held in memory: a file tree, the directory that relative paths are taken
from, and what has been printed and logged. What a command does is known from what it
does to a workspace, which stays as it is when a fault is met.
-/

namespace CloudGraph

/-- The files that a command works on, and what it has told so far. -/
structure Workspace where
  tree : Tree
  directory : Location
  printed : String := ""
  records : List Record := []

/-- A command that is carried out in a workspace. -/
abbrev Session := ExceptT Fault (StateM Workspace)

namespace Workspace

/-- Looks something up without changing anything. -/
def ask {α : Type} (look : Workspace → Except Fault α) : Session α :=
  fun workspace => (look workspace, workspace)

/-- Changes the files. -/
def alter (change : Tree → Location → Tree × Except Fault Unit) : Session Unit :=
  fun workspace =>
    let (tree, result) := change workspace.tree workspace.directory
    (result, { workspace with tree })

/-- Writes a file, or leaves the files as they are when it cannot be written. -/
def writing (path : Path) (text : String) (tree : Tree) (directory : Location) :
    Tree × Except Fault Unit :=
  match tree.write directory path text.toUTF8 with
  | .ok written => (written, .ok ())
  | .error fault => (tree, .error fault)

/-- Prints a text. -/
def printing (text : String) (workspace : Workspace) : Workspace :=
  { workspace with printed := workspace.printed ++ text }

/-- Leaves a record in the log. -/
def recording (record : Record) (workspace : Workspace) : Workspace :=
  { workspace with records := workspace.records ++ [record] }

end Workspace

instance : Host Session where
  directory := Workspace.ask fun workspace => .ok workspace.directory
  contents path := Workspace.ask fun workspace =>
    .ok (workspace.tree.read workspace.directory path)
  holds path := Workspace.ask fun workspace => workspace.tree.holds workspace.directory path
  makeDirectories path := Workspace.alter fun tree directory =>
    tree.makeDirectories directory path
  write path text := Workspace.alter (Workspace.writing path text)
  print text := modify (Workspace.printing text)
  record record := modify (Workspace.recording record)

end CloudGraph
