import CloudGraph.Text.Lines

/-!
# Paths

A path is its parts between slashes. Empty parts and parts that are a single dot do not
count; a part of two dots is kept, since what it leads to depends on the part before it.
-/

namespace CloudGraph

/-- The names of the directories and the file on the way from the root. -/
abbrev Location := List String

/-- A path, which is relative when it starts with no slash. Two slashes at the start are
kept apart from one. -/
structure Path where
  slashes : Nat
  parts : List String
  deriving DecidableEq, Inhabited

namespace Path

/-- The part that leads to the directory above. -/
def up : String := ".."

/-- Whether a part between slashes counts. -/
def counts (part : List Char) : Bool :=
  !part.isEmpty && part != ['.']

/-- The path of a text. -/
def ofText (text : String) : Path :=
  let leading := (text.toList.takeWhile (· = '/')).length
  let parts := (Text.splitOn '/' text.toList).filter counts
  ⟨if leading ≤ 2 then leading else 1, parts.map String.ofList⟩

/-- The text of a path. -/
def text (path : Path) : String :=
  if path.slashes = 0 ∧ path.parts = [] then "."
  else String.ofList (List.replicate path.slashes '/') ++ "/".intercalate path.parts

/-- Whether a path starts at the root. -/
def isAbsolute (path : Path) : Bool :=
  path.slashes ≠ 0

/-- A path below a directory; an absolute path stays as it is. -/
def join (directory path : Path) : Path :=
  if path.isAbsolute then path else ⟨directory.slashes, directory.parts ++ path.parts⟩

/-- The path without its last part. -/
def parent (path : Path) : Path :=
  ⟨path.slashes, path.parts.dropLast⟩

/-- The absolute path of a location. -/
def ofLocation (location : Location) : Path :=
  ⟨1, location⟩

/-- Goes on from a location by parts, where two dots lead back. -/
def walk (location : Location) (parts : List String) : Location :=
  parts.foldl (fun here part => if part = up then here.dropLast else here ++ [part]) location

/-- The location that a path leads to from a directory. -/
def resolve (path : Path) (directory : Location) : Location :=
  walk (if path.isAbsolute then [] else directory) path.parts

end Path

end CloudGraph
