import CloudGraph.Value.Display

/-!
# Problems and defects

What can go wrong in a way that is explained to the user. A `Problem` is a cause that
the user can mend; a `Defect` is one that only a change of the program mends.
`Problem.statement` and `Problem.remedy` hold all their wording.
-/

namespace CloudGraph

/-- The area that a problem belongs to, which decides its heading. -/
inductive Area where
  | general
  | architecture
  | runtime
  | connection
  | configuration
  deriving DecidableEq

/-- The heading of an area. -/
def Area.heading? : Area → Option String
  | .general => none
  | .architecture => some "Invalid architecture model"
  | .runtime => some "Unsupported runtime"
  | .connection => some "Connection type not supported"
  | .configuration => some "Error loading configuration"

/-- A problem's report: the heading, if there is one, the statement and the remedy. -/
def problemReport (heading? : Option String) (statement remedy : String) : String :=
  ((heading?.map (· ++ ": ")).getD "") ++ statement ++ "\n\n" ++ remedy

/-- A defect's report. -/
def defectReport (heading? : Option String) (statement : String) : String :=
  ((heading?.map (· ++ ":\n")).getD "") ++ statement

/-- A cause that the user can mend. -/
inductive Problem where
  | nodeNotObject (node : Value)
  | nodeWithout (node : Value) (field : String)
  | noNodes
  | modelMissing (path : String)
  | modelMalformed (path detail : String)
  | unknownRuntime (runtime : Value) (supported : List String)
  | unsupportedTarget (source target kind : Value)
  | settingsMissing (path : String)
  | settingsMalformed (path : String)
  | unknownSettings (path : String) (unknown known : List String)
  | settingsExist (path : String)
  | filesExist (directory : String) (names : List String)

namespace Problem

/-- The area of a problem. -/
def area : Problem → Area
  | .nodeNotObject .. | .nodeWithout .. | .noNodes | .modelMissing .. | .modelMalformed .. =>
    .architecture
  | .unknownRuntime .. => .runtime
  | .unsupportedTarget .. => .connection
  | .settingsMissing .. | .settingsMalformed .. | .unknownSettings .. => .configuration
  | .settingsExist .. | .filesExist .. => .general

/-- What is wrong. -/
def statement : Problem → String
  | .nodeNotObject node => "Node " ++ node.display ++ " is not an object"
  | .nodeWithout node field => "Node " ++ node.display ++ " has no `" ++ field ++ "'"
  | .noNodes => "No `nodes' in the model"
  | .modelMissing path => path ++ " not found"
  | .modelMalformed path detail => path ++ " is not valid JSON (" ++ detail ++ ")"
  | .unknownRuntime runtime _ => "Runtime `" ++ runtime.plain ++ "' is not supported"
  | .unsupportedTarget source target kind =>
    source.plain ++ " -> " ++ target.plain ++ ": IoT rules can't target `" ++ kind.plain ++
      "' nodes (connection type not supported)"
  | .settingsMissing path => path ++ " not found"
  | .settingsMalformed path => "Can't parse " ++ path ++ ": ..."
  | .unknownSettings path unknown _ =>
    "Unknown keys in [project] section of " ++ path ++ ": " ++ ", ".intercalate unknown
  | .settingsExist path => path ++ " already exists"
  | .filesExist directory names =>
    "Files already exist in " ++ directory ++ ": " ++ ", ".intercalate names

/-- How to mend it. -/
def remedy : Problem → String
  | .nodeNotObject _ =>
    "Nodes look like: \x7b\"id\": \"myFn\", \"type\": \"fn\", \"from\": [], \"to\": []\x7d"
  | .nodeWithout .. => "Every node needs at least an `id' and a `type'."
  | .noNodes =>
    "Models look like: \x7b\"nodes\": \x7b\"myFn\": " ++
      "\x7b\"id\": \"myFn\", \"type\": \"fn\"\x7d\x7d\x7d"
  | .modelMissing _ => "Check the model path."
  | .modelMalformed .. => "Fix the syntax."
  | .unknownRuntime _ supported => "Supported runtimes: " ++ ", ".intercalate supported
  | .unsupportedTarget .. => "IoT rules can only connect to `fn' or `iotRule' nodes."
  | .settingsMissing _ => "Check the path, or use `slsgraph init' to generate a new one."
  | .settingsMalformed _ => "Fix the syntax."
  | .unknownSettings _ _ known => "Valid keys: " ++ ", ".intercalate known
  | .settingsExist _ => "Cowardly refusing to clobber it..."
  | .filesExist .. => "Use --force to overwrite them."

/-- The full report of a problem. -/
def report (problem : Problem) : String :=
  problemReport problem.area.heading? problem.statement problem.remedy

end Problem

/-- A cause that only a change of the program mends. -/
inductive Defect where
  | noRule (kind : Value)
  | ruleRegisteredTwice (kind : Value)

/-- What is wrong. -/
def Defect.statement : Defect → String
  | .noRule kind => "No rule for node type `" ++ kind.plain ++ "'"
  | .ruleRegisteredTwice kind => "Rule for `" ++ kind.plain ++ "' registered twice"

end CloudGraph
