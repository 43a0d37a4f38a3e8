import CloudGraph.Command.Host
import CloudGraph.Command.Screen
import CloudGraph.Graph.Reader
import CloudGraph.Settings
import CloudGraph.Terminal.Table

/-!
# Running commands

What each action does with its host. An action reads all that it needs and works out all
that it writes before it writes anything; files that are there are left alone unless
they may be replaced.
-/

namespace CloudGraph.Command

variable {m : Type → Type} [Host m]

/-- The sign in front of what has been done. -/
def tick : String := "✔"

/-- A text that counts when it is not empty. -/
def nonEmpty? (text? : Option String) : Option String :=
  text?.filter (!·.isEmpty)

/-- The settings that a command line works with. -/
def loadSettings (line : CommandLine) : m Settings := do
  let named? := (nonEmpty? line.settings?).map Path.ofText
  let contents ← Host.contents (named?.getD Settings.defaultFile)
  Host.logged (Settings.load (← Host.directory) named? contents)

/-- The model at a path. -/
def loadGraph (path : Path) : m Graph := do
  match ← Host.contents path with
  | .ok contents => Host.logged (Graph.ofFile path.text contents)
  | .error .fileNotFound => throw (.problem (.modelMissing path.text))
  | .error fault => throw fault

/-- The model that a command line names, or that of the settings. -/
def modelPath (line : CommandLine) (settings : Settings) : Path :=
  ((nonEmpty? line.model?).map Path.ofText).getD settings.model

/-- A text of the command line, or else a setting. -/
def chosen (text? : Option String) (setting : Toml.Node) : Toml.Node :=
  ((nonEmpty? text?).map fun text => .scalar (.text text)).getD setting

/-- What a command line with its settings compiles for. -/
def orderOf (line : CommandLine) (settings : Settings) : Order :=
  let service := chosen line.service? settings.service
  { runtime := (chosen line.runtime? settings.runtime).toValue
    service := service.toValue
    provider := settings.provider.toValue
    obstacle? := service.obstacle?.or settings.provider.obstacle? }

/-- The directory that a command line names for the output, or that of the settings. -/
def outputPath (line : CommandLine) (settings : Settings) : Path :=
  ((nonEmpty? line.output?).map Path.ofText).getD settings.output

/-- The place of a file in the output directory. -/
def placeOf (output : Path) (name : String) : Path :=
  output.join (Path.ofText name)

/-- The names whose places in the output directory are taken. -/
def taken (output : Path) : List String → m (List String)
  | [] => return []
  | name :: names => do
    let isTaken ← Host.holds (placeOf output name)
    let others ← taken output names
    return if isTaken then name :: others else others

/-- Writes files into the output directory, in order. -/
def writeAll (output : Path) : Entries String String → m Unit
  | [] => return ()
  | (name, text) :: files => do
    let place := placeOf output name
    Host.makeDirectories place.parent
    Host.write place text
    Host.record ⟨.info, .command, "Wrote " ++ place.text⟩
    writeAll output files

/-- Writes files into the output directory. Unless they may be replaced, nothing is
written when one of them is there. -/
def store (replace : Bool) (output : Path) (files : Entries String String) : m Unit := do
  if !replace then
    let names ← taken output (Entries.keys files)
    if !names.isEmpty then throw (.problem (.filesExist output.text names))
  writeAll output files

/-- Prints the places of files, unless the run is to be quiet. -/
def announce (screen : Screen) (output : Path) : List String → m Unit
  | [] => return ()
  | name :: names => do
    if !screen.quiet then
      Host.printLine (tick ++ " " ++ screen.styled .good (placeOf output name).text)
    announce screen output names

/-- Compiles a model into files. -/
def compile (line : CommandLine) : m Unit := do
  let settings ← loadSettings line
  let graph ← loadGraph (modelPath line settings)
  let files ← Host.logged (graph.render (orderOf line settings))
  let output := outputPath line settings
  store line.force output files
  announce line.screen output (Entries.keys files)

/-- The texts of some ids, separated by commas. -/
def idsText (ids : List Value) : Except Fault Value := do
  let texts ← ids.mapM fun id =>
    match id with
    | .atom (.text text) => Except.ok text
    | _ => .error .wrongKind
  return .text (", ".intercalate texts)

/-- The row of a node. -/
def nodeRow (node : Node) : Except Fault Value := do
  return .list [.atom node.id, node.type, ← idsText node.sources, ← idsText node.targets]

/-- The header of the rows of nodes. -/
def nodeTitles : Value := .texts ["Node", "Type", "From", "To"]

/-- Prints the nodes and edges of a model. -/
def overview (line : CommandLine) : m Unit := do
  let settings ← loadSettings line
  let graph ← loadGraph (modelPath line settings)
  let rows ← Host.ofExcept (graph.nodeList.mapM nodeRow)
  let table ← Host.ofExcept (Table.draw nodeTitles rows)
  Host.printLine (table.getD "")

/-- The line of a runtime. -/
def runtimeLine (screen : Screen) (runtime : Runtime) : String :=
  screen.styled .neutral runtime.name ++ " (*." ++ runtime.ending ++ ")"

/-- Prints the runtimes. -/
def listRuntimes (screen : Screen) : List Runtime → m Unit
  | [] => return ()
  | runtime :: runtimes => do
    Host.printLine (runtimeLine screen runtime)
    listRuntimes screen runtimes

/-- Makes a settings file, unless there is one. -/
def initialise (screen : Screen) : m Unit := do
  let file := Settings.defaultFile
  if ← Host.holds file then throw (.problem (.settingsExist file.text))
  Host.write file Settings.template
  Host.printLine ("\n" ++ tick ++ " Created " ++ screen.styled .good file.text)

/-- Does what a command line asks for. -/
def perform (line : CommandLine) : m Unit :=
  match line.action with
  | .compile => compile line
  | .overview => overview line
  | .runtimes => listRuntimes line.screen Runtime.all
  | .initialise => initialise line.screen

/-- A whole run, which starts with a record of what it is asked for. -/
def run (line : CommandLine) : m Unit := do
  Host.record ⟨.debug, .command, "CLI args: " ++ line.display⟩
  perform line

/-- What a run shows at its end, and how it ends. -/
structure Ending where
  out : String
  err : String
  code : Nat
  /-- The fault that is not explained to the user. -/
  fault? : Option Fault := none

/-- The end of a run. Problems and defects are explained. -/
def ending (screen : Screen) (elapsed : String) (details? : Option String) :
    Except Fault Unit → Ending
  | .ok () => ⟨"", screen.footer elapsed, 0, none⟩
  | .error (.problem problem) => ⟨screen.problem problem.statement problem.remedy, "", 1, none⟩
  | .error (.defect defect) => ⟨screen.defect defect.statement details?, "", 1, none⟩
  | .error fault => ⟨"", "", 1, some fault⟩

/-- The end of a run that a command line asks for nothing to be done in. -/
def stopping : Stop → Ending
  | .help => ⟨Usage.help ++ "\n", "", 0, none⟩
  | .version => ⟨Usage.version ++ "\n", "", 0, none⟩
  | .misuse message? =>
    ⟨"", ((message?.map (· ++ "\n")).getD "") ++ Usage.summary ++ "\n", 1, none⟩

/-- The end of a run that no action was chosen for. -/
def unclear (screen : Screen) : Ending :=
  ⟨screen.problem "Invalid command line." (Usage.help ++ "\n"), "", 1, none⟩

end CloudGraph.Command
