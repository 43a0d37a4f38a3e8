import CloudGraph.Trace

/-!
# Log records

What a run tells about its progress, apart from its results.
-/

namespace CloudGraph

/-- How much a record matters. -/
inductive Level where
  | debug
  | info
  | warning
  | error
  deriving DecidableEq

namespace Level

/-- The rank of a level; a higher one matters more. -/
def rank : Level → Nat
  | .debug => 10
  | .info => 20
  | .warning => 30
  | .error => 40

/-- The name of a level. -/
def name : Level → String
  | .debug => "DEBUG"
  | .info => "INFO"
  | .warning => "WARNING"
  | .error => "ERROR"

end Level

/-- The part of the program that a record comes from. -/
inductive Source where
  | model
  | compiler
  | wiring
  | functions
  | streams
  | topicRules
  | settings
  | command
  deriving DecidableEq

/-- The name of a source in the lines of the log. -/
def Source.name : Source → String
  | .model => "slsgraph.model"
  | .compiler => "slsgraph.compiler"
  | .wiring => "slsgraph.rules.base"
  | .functions => "slsgraph.rules.functions"
  | .streams => "slsgraph.rules.streams"
  | .topicRules => "slsgraph.rules.iot"
  | .settings => "slsgraph.config"
  | .command => "slsgraph.cli.main"

/-- One record. -/
structure Record where
  level : Level
  source : Source
  message : String
  deriving DecidableEq

/-- A computation that leaves log records. -/
abbrev Logged (α : Type) := Trace Record α

end CloudGraph
