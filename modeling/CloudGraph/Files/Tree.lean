import CloudGraph.Fault
import CloudGraph.Files.Path

/-!
# File trees

The files and directories at their locations. A path is followed part by part, and
every part but the last has to lead to a directory that is there. `Tree.write` changes
one file, and `Tree.makeDirectories` adds directories and changes nothing that is there.
-/

namespace CloudGraph

/-- What is at a location. -/
inductive Item where
  | file (contents : ByteArray)
  | directory

/-- Files and directories at their locations. The root is always a directory. -/
structure Tree where
  items : Entries Location Item

namespace Tree

/-- Whether two locations are the same. -/
def sameLocation (a b : Location) : Bool := a == b

/-- What is at a location. -/
def find? (tree : Tree) (location : Location) : Option Item :=
  if location = [] then some .directory else Entries.find? sameLocation tree.items location

/-- The tree with something put at a location. -/
def put (tree : Tree) (location : Location) (item : Item) : Tree :=
  ⟨Entries.put sameLocation tree.items location item⟩

/-- The longest name of a file, in bytes. -/
def maxName : Nat := 255

/-- The longest path, in bytes. -/
def maxPath : Nat := 4095

/-- Follows the parts of a path from a location. What the last part leads to need not be
there. -/
def follow (tree : Tree) : Location → List String → Except Fault Location
  | here, [] => .ok here
  | here, part :: parts =>
    match tree.find? here with
    | none => .error .fileNotFound
    | some (.file _) => .error .notDirectory
    | some .directory =>
      if part = Path.up then tree.follow here.dropLast parts
      else if maxName < part.utf8ByteSize then .error .badPath
      else tree.follow (here ++ [part]) parts

/-- The location that a path leads to from a directory. -/
def locate (tree : Tree) (directory : Location) (path : Path) : Except Fault Location :=
  if path.parts.any fun part => part.toList.contains '\x00' then .error .badValue
  else if maxPath < path.text.utf8ByteSize then .error .badPath
  else tree.follow (if path.isAbsolute then [] else directory) path.parts

/-- What a path leads to, if anything. Only a path that the file system does not take is
a fault. -/
def item? (tree : Tree) (directory : Location) (path : Path) : Except Fault (Option Item) :=
  match tree.locate directory path with
  | .ok location => .ok (tree.find? location)
  | .error .badPath => .error .badPath
  | .error _ => .ok none

/-- Whether a path leads to anything. -/
def holds (tree : Tree) (directory : Location) (path : Path) : Except Fault Bool := do
  return (← tree.item? directory path).isSome

/-- The contents of the file that a path leads to. -/
def read (tree : Tree) (directory : Location) (path : Path) : Except Fault ByteArray := do
  match tree.find? (← tree.locate directory path) with
  | some (.file contents) => return contents
  | some .directory => throw .isDirectory
  | none => throw .fileNotFound

/-- The tree with the file that a path leads to replaced or added. -/
def write (tree : Tree) (directory : Location) (path : Path) (contents : ByteArray) :
    Except Fault Tree := do
  let location ← tree.locate directory path
  match tree.find? location with
  | some .directory => throw .isDirectory
  | _ => return tree.put location (.file contents)

/-- The tree with a directory added where nothing is. -/
def makeDirectory (tree : Tree) (directory : Location) (path : Path) : Except Fault Tree := do
  let location ← tree.locate directory path
  match tree.find? location with
  | some _ => throw .fileExists
  | none => return tree.put location .directory

/-- Makes a directory, and is content with one that is there already. -/
def ensureDirectory (tree : Tree) (directory : Location) (path : Path) : Except Fault Tree :=
  match tree.makeDirectory directory path with
  | .ok made => .ok made
  | .error .badValue => .error .badValue
  | .error fault =>
    match tree.item? directory path with
    | .ok (some .directory) => .ok tree
    | .ok _ => .error fault
    | .error other => .error other

/-- Makes a directory and those above it that are not there. The directories that were
made before a fault stay. -/
def makeDirectories (tree : Tree) (directory : Location) (path : Path) :
    Tree × Except Fault Unit :=
  match tree.ensureDirectory directory path with
  | .ok made => (made, .ok ())
  | .error .fileNotFound =>
    if _h : path.parts = [] then (tree, .error .fileNotFound)
    else
      let (made, result) := tree.makeDirectories directory path.parent
      match result with
      | .error fault => (made, .error fault)
      | .ok () =>
        match made.ensureDirectory directory path with
        | .ok made => (made, .ok ())
        | .error fault => (made, .error fault)
  | .error fault => (tree, .error fault)
termination_by path.parts.length
decreasing_by
  have := List.length_pos_iff.mpr _h
  simp [Path.parent]
  omega

end Tree

end CloudGraph
