import CloudGraph.Fault

/-!
# Function runtimes and their scaffold

The runtimes that a function can be generated for, each with the starting code of a
function and the ignore file of the project.
-/

namespace CloudGraph

/-- The name of the ignore file, which all functions of a project share. -/
def ignoreFile : String := ".gitignore"

/-- A runtime of functions. -/
structure Runtime where
  name : String
  /-- The ending of a source file's name. -/
  ending : String
  /-- The name under which a source file exports its function. -/
  handler : String
  /-- The contents of the ignore file. -/
  ignored : String
  /-- The contents of a new source file. -/
  startingCode : String

namespace Runtime

/-- Lines, each with its end. -/
def ofLines (lines : List String) : String :=
  String.join (lines.map (· ++ "\n"))

/-- The ignore file of a project in JavaScript. -/
def nodeIgnored : String := ofLines [
  "# package directories",
  "node_modules",
  "jspm_packages",
  "",
  "# Serverless directories",
  ".serverless"]

/-- A new function in JavaScript. -/
def nodeCode : String := ofLines [
  "'use strict';",
  "",
  "module.exports.handler = (event, context, callback) => \x7b",
  "  const response = \x7b",
  "    statusCode: 200,",
  "    body: JSON.stringify(\x7b",
  "      message: 'Go Serverless v1.0! Your function executed successfully!',",
  "      input: event,",
  "    \x7d),",
  "  \x7d;",
  "",
  "  callback(null, response);",
  "",
  "  // Use this code if you don't use the http event with the LAMBDA-PROXY integration",
  "  // callback(null, \x7b message: 'Go Serverless v1.0! Your function executed successfully!', event \x7d);",
  "\x7d;"]

/-- The ignore file of a project in Python. -/
def pythonIgnored : String := ofLines [
  "# Distribution / packaging",
  ".Python",
  "env/",
  "build/",
  "develop-eggs/",
  "dist/",
  "downloads/",
  "eggs/",
  ".eggs/",
  "lib/",
  "lib64/",
  "parts/",
  "sdist/",
  "var/",
  "*.egg-info/",
  ".installed.cfg",
  "*.egg",
  "",
  "# Serverless directories",
  ".serverless"]

/-- A new function in Python. -/
def pythonCode : String := ofLines [
  "import json",
  "",
  "def handler(event, context):",
  "    body = \x7b",
  "        \"message\": \"Go Serverless v1.0! Your function executed successfully!\",",
  "        \"input\": event",
  "    \x7d",
  "",
  "    response = \x7b",
  "        \"statusCode\": 200,",
  "        \"body\": json.dumps(body)",
  "    \x7d",
  "",
  "    return response",
  "",
  "    # Use this code if you don't use the http event with the LAMBDA-PROXY integration",
  "    \"\"\"",
  "    return \x7b",
  "        \"message\": \"Go Serverless v1.0! Your function executed successfully!\",",
  "        \"event\": event",
  "    \x7d",
  "    \"\"\""]

/-- The supported runtimes. -/
def all : List Runtime := [
  ⟨"nodejs8.10", "js", "handler", nodeIgnored, nodeCode⟩,
  ⟨"python3.7", "py", "handler", pythonIgnored, pythonCode⟩]

/-- The runtime that is used when none is chosen. -/
def defaultName : String := "nodejs8.10"

/-- Whether a scalar can be looked up; a moment without a text cannot. -/
def canBeId : Atom → Bool
  | .moment moment => moment.hasText
  | _ => true

/-- The runtime of an id. -/
def ofId (id : Value) : Except Fault Runtime :=
  match id with
  | .atom scalar =>
    if !canBeId scalar then .error .badValue
    else match all.find? fun runtime => Atom.same (.text runtime.name) scalar with
    | some runtime => .ok runtime
    | none => .error (.problem (.unknownRuntime id (all.map (·.name))))
  | _ => .error .wrongKind

/-- The name of the source file of a function. -/
def sourceFile (runtime : Runtime) (function : Value) : String :=
  function.plain ++ "." ++ runtime.ending

/-- The reference to a function inside its source file. -/
def handlerRef (runtime : Runtime) (function : Value) : String :=
  function.plain ++ "." ++ runtime.handler

end Runtime

end CloudGraph
