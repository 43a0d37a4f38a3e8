import CloudGraph.Build.Compile
import CloudGraph.Files.Path
import CloudGraph.Toml.Reader

/-!
# Settings

What a project sets in its settings file, with a default for everything that it leaves
out. A relative path in the file is taken from the directory of the file.
-/

namespace CloudGraph

/-- The settings of a project. -/
structure Settings where
  root : Path
  /-- The settings file, if there is one. -/
  file? : Option Path
  service : Toml.Node
  runtime : Toml.Node
  provider : Toml.Node
  model : Path
  output : Path

namespace Settings

/-- The settings file that is read when none is named. -/
def defaultFile : Path := Path.ofText "slsgraph.toml"

/-- The model of a project that names none. -/
def defaultModel : Path := Path.ofText "model.json"

/-- The output directory of a project that names none. -/
def defaultOutput : Path := Path.ofText "build"

/-- The contents of a new settings file. -/
def template : String := "\n".intercalate [
  "# slsgraph project configuration",
  "",
  "[project]",
  "# Name of the generated service",
  "service = \"serverless\"",
  "",
  "# One of: nodejs8.10, python3.7",
  "runtime = \"nodejs8.10\"",
  "",
  "provider = \"aws\"",
  "",
  "# Architecture model (JSON), relative to this file",
  "model = \"model.json\"",
  "",
  "# Where the generated project is written",
  "output_dir = \"build\"",
  ""]

/-- The keys of a project, in alphabetical order. -/
def keys : List String := ["model", "output_dir", "provider", "runtime", "service"]

/-- The setting of a text. -/
def textNode (text : String) : Toml.Node := .scalar (.text text)

/-- The settings without a settings file. -/
def default (directory : Location) : Settings where
  root := .ofLocation directory
  file? := none
  service := textNode defaultService
  runtime := textNode Runtime.defaultName
  provider := textNode defaultProvider
  model := defaultModel
  output := defaultOutput

/-- Whether one text comes before another or is the same. -/
def inOrder (a b : String) : Bool := !(b < a)

/-- The elements of a project that are no keys of it, in alphabetical order and each
once. Elements that are no texts cannot be named, and a moment without a text cannot be
looked up. -/
def unknownKeys (project : Value) : Except Fault (List String) := do
  let some elements := project.elements? | throw .wrongKind
  let names ← elements.mapM fun element =>
    match element with
    | .atom (.text name) => Except.ok (some name)
    | .atom (.moment moment) => if moment.hasText then .ok none else .error .badValue
    | _ => .error .wrongKind
  let some names := names.mapM id | throw .wrongKind
  return ((names.filter (!keys.contains ·)).eraseDups).mergeSort inOrder

/-- A path of a project. -/
def pathAt (project : Toml.Node) (key : String) (default : Path) : Except Fault Path :=
  match project.field? key with
  | none => .ok default
  | some (.scalar (.text text)) => .ok (Path.ofText text)
  | some _ => .error .wrongKind

/-- The settings that the contents of a settings file make. -/
def ofContents (directory : Location) (file : Path) (contents : Toml.Node) :
    Except Fault Settings := do
  let project := (contents.field? "project").getD Toml.emptyTable
  let unknown ← unknownKeys project.toValue
  if !unknown.isEmpty then
    throw (.problem (.unknownSettings file.text unknown keys))
  match project with
  | .table _ _ =>
    let root := Path.ofLocation (file.parent.resolve directory)
    let model ← pathAt project "model" defaultModel
    let output ← pathAt project "output_dir" defaultOutput
    return {
      root
      file? := some file
      service := (project.field? "service").getD (textNode defaultService)
      runtime := (project.field? "runtime").getD (textNode Runtime.defaultName)
      provider := (project.field? "provider").getD (textNode defaultProvider)
      model := root.join model
      output := root.join output }
  | _ => throw .wrongKind

/-- The fault of a settings file that cannot be read. -/
def readFault (file : Path) : Toml.ReadError → Fault
  | .malformed => .problem (.settingsMalformed file.text)
  | .notList => .noSuchOperation
  | .notTable => .wrongKind
  | .nothingThere => .outOfRange
  | .tooLarge => .overflow
  | .unnamed => .unnamed

/-- Reads the contents of a settings file. -/
def ofFile (directory : Location) (file : Path) (contents : ByteArray) :
    Except Fault Settings := do
  let some text := Text.ofBytes? contents | throw .notUtf8
  match Toml.read text with
  | .ok contents => ofContents directory file contents
  | .error error => throw (readFault file error)

/-- The settings of a project, given what reading its settings file has come to. A file
that is not named need not be there. -/
def load (directory : Location) (named? : Option Path) (contents : Except Fault ByteArray) :
    Logged Settings := do
  let file := named?.getD defaultFile
  match named?, contents with
  | none, .error .fileNotFound =>
    Trace.step ⟨.info, .settings, "No " ++ file.text ++ ", using defaults"⟩
    return default directory
  | some _, .error .fileNotFound => Trace.fail (.problem (.settingsMissing file.text))
  | _, .error fault => Trace.fail fault
  | _, .ok contents =>
    let settings ← ofFile directory file contents
    Trace.step ⟨.info, .settings, "Loaded configuration from " ++ file.text⟩
    return settings

end Settings

end CloudGraph
