import CloudGraph.Files.Path
import CloudGraph.Log

/-!
# Hosts

What the commands need of their surroundings: files, a place to print, and a log. The
commands are written once for every host.
-/

namespace CloudGraph

/-- The surroundings of a command. A fault ends the command. -/
class Host (m : Type → Type) extends Monad m, MonadExceptOf Fault m where
  /-- The directory that relative paths are taken from. -/
  directory : m Location
  /-- The contents of a file, or why they cannot be read. -/
  contents (path : Path) : m (Except Fault ByteArray)
  /-- Whether anything is at a path. -/
  holds (path : Path) : m Bool
  /-- Makes a directory and those above it, unless they are there. -/
  makeDirectories (path : Path) : m Unit
  /-- Writes a file. -/
  write (path : Path) (text : String) : m Unit
  /-- Prints a text. -/
  print (text : String) : m Unit
  /-- Leaves a record in the log. -/
  record (record : Record) : m Unit

namespace Host

variable {m : Type → Type} [Host m] {α : Type}

/-- Prints a line. -/
def printLine (text : String) : m Unit :=
  Host.print (text ++ "\n")

/-- Leaves records in the log, in order. -/
def recordAll : List Record → m Unit
  | [] => pure ()
  | record :: records => do
    Host.record record
    recordAll records

/-- Goes on with a result, or ends with a fault. -/
def ofExcept : Except Fault α → m α
  | .ok value => pure value
  | .error fault => throw fault

/-- Leaves the records of a computation and goes on with its result. -/
def logged (computation : Logged α) : m α := do
  recordAll computation.steps
  ofExcept computation.result

end Host

end CloudGraph
