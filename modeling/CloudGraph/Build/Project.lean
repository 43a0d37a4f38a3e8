import CloudGraph.Graph.Basic
import CloudGraph.Log
import CloudGraph.Value.Path

/-!
# Projects and plans

A project under construction is the descriptor document and the scaffold files. A
`Plan` lists the edits that make one from another, and does not look at the project:
what it does depends on the graph alone. `Plan.carryOut` makes the edits in order up to
the first that fails, and keeps what was made before.
-/

namespace CloudGraph

/-- A project under construction. -/
structure Project where
  document : Value
  files : Entries String String
  deriving Inhabited

/-- One edit of a project, or a log record. -/
inductive Edit where
  | note (record : Record)
  /-- Sets a key of the collection at a path of the document. -/
  | assign (path : List Atom) (key : Atom) (value : Value)
  /-- Sets a key of the mapping at a path of the document if it is not there. -/
  | default (path : List Atom) (key : Atom) (value : Value)
  /-- Puts an item at the end of the list at a path of the document. -/
  | append (path : List Atom) (item : Value)
  /-- Puts a text at the end of the list at a path unless it is in it. -/
  | include (path : List Atom) (item : String)
  /-- Writes a file. -/
  | write (name contents : String)
  /-- Writes a file if there is none of its name. -/
  | provide (name contents : String)

namespace Project

/-- An empty project. -/
def create (service runtime provider : Value) : Project where
  document := .record [
    ("service", service),
    ("provider", .record [("name", provider), ("runtime", runtime)]),
    ("functions", .map []),
    ("resources", .record [("Resources", .map []), ("Outputs", .map [])])]
  files := []

/-- Whether two file names are the same. -/
def sameName (a b : String) : Bool := a == b

/-- The project with a changed document. -/
def changing (project : Project) (path : List Atom) (change : Value → Except Fault Value) :
    Except Fault Project := do
  return { project with document := ← Value.modifyAt change project.document path }

/-- The project after one edit. -/
def edit (project : Project) : Edit → Except Fault Project
  | .note _ => .ok project
  | .assign path key value => project.changing path (·.withItem key value)
  | .default path key value => project.changing path (·.withDefault key value)
  | .append path item => project.changing path (·.appended item)
  | .include path item => project.changing path (·.including item)
  | .write name contents =>
    .ok { project with files := Entries.put sameName project.files name contents }
  | .provide name contents =>
    match Entries.find? sameName project.files name with
    | some _ => .ok project
    | none => .ok { project with files := Entries.put sameName project.files name contents }

/-- The place of the functions in the document. -/
def functionsPath : List Atom := [.text "functions"]

/-- The place of the resources in the document. -/
def resourcesPath : List Atom := [.text "resources", .text "Resources"]

/-- The functions of a project. -/
def functions (project : Project) : Except Fault Value :=
  project.document.itemAt functionsPath

/-- The resources of a project. -/
def resources (project : Project) : Except Fault Value :=
  project.document.itemAt resourcesPath

end Project

/-- Edits that end in a result or in a fault. -/
abbrev Plan (α : Type) := Trace Edit α

/-- What carrying out a plan leaves behind. -/
structure Outcome (α : Type) where
  project : Project
  records : List Record
  result : Except Fault α

/-- The record that an edit leaves. -/
def Edit.record? : Edit → Option Record
  | .note record => some record
  | _ => none

/-- Makes edits in order, up to the first that fails. -/
def Project.editAll (project : Project) : List Edit → Outcome Unit
  | [] => ⟨project, [], .ok ()⟩
  | edit :: edits =>
    match project.edit edit with
    | .error fault => ⟨project, [], .error fault⟩
    | .ok edited =>
      let rest := edited.editAll edits
      { rest with records := edit.record?.toList ++ rest.records }

namespace Plan

variable {α : Type}

/-- Makes the edits of a plan; its own end counts when none of them fails. -/
def carryOut (plan : Plan α) (project : Project) : Outcome α :=
  let made := project.editAll plan.steps
  match made.result with
  | .error fault => ⟨made.project, made.records, .error fault⟩
  | .ok () => ⟨made.project, made.records, plan.result⟩

/-- Leaves a record. -/
def note (level : Level) (source : Source) (message : String) : Plan Unit :=
  Trace.step (.note ⟨level, source, message⟩)

/-- Stores the definition of a function. -/
def putFunction (id : Atom) (definition : Value) : Plan Unit :=
  Trace.step (.assign Project.functionsPath id definition)

/-- Sets a field of the definition of a function. -/
def setFunctionField (id : Atom) (name : String) (value : Value) : Plan Unit :=
  Trace.step (.assign (Project.functionsPath ++ [id]) (.text name) value)

/-- Stores a resource. -/
def putResource (id : Atom) (resource : Value) : Plan Unit :=
  Trace.step (.assign Project.resourcesPath id resource)

end Plan

end CloudGraph
