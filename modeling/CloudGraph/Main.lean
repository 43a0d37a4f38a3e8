import CloudGraph.Command.Run

/-!
# The program

The command line of the program: the commands on the files of the machine.
-/

namespace CloudGraph

/-- The surroundings of a run on the machine: what it shows and when it started. -/
structure Surroundings where
  screen : Screen
  started : Nat

/-- A command that is carried out on the machine. -/
abbrev Live := ReaderT Surroundings (ExceptT Fault IO)

namespace Live

/-- The fault that an error of the machine is. -/
def faultOf : IO.Error → Fault
  | .noFileOrDirectory .. => .fileNotFound
  | .alreadyExists .. => .fileExists
  | .inappropriateType .. => .isDirectory
  | .illegalOperation .. => .isDirectory
  | _ => .badPath

/-- An action on the machine, an error of which is a fault. -/
def attempt {α : Type} (action : IO α) : Live α := fun _ =>
  ExceptT.mk (action.toBaseIO.map fun result =>
    match result with
    | .ok value => Except.ok value
    | .error error => .error (faultOf error))

/-- The time since a start, in hours, minutes, seconds and milliseconds. -/
def stamp (elapsed : Nat) : String :=
  let seconds := elapsed / 1000
  paddedNumber 2 (seconds / 3600) ++ ":" ++ paddedNumber 2 (seconds / 60 % 60) ++ ":" ++
    paddedNumber 2 (seconds % 60) ++ "." ++ paddedNumber 3 (elapsed % 1000)

/-- A time in seconds, with two decimal places. -/
def seconds (elapsed : Nat) : String :=
  toString (elapsed / 1000) ++ "." ++ paddedNumber 2 (elapsed % 1000 / 10)

end Live

instance : Host Live where
  directory := Live.attempt do
    return (Path.ofText (← IO.currentDir).toString).parts
  contents path := Live.attempt do
    match ← (IO.FS.readBinFile path.text).toBaseIO with
    | .ok contents => return .ok contents
    | .error error => return .error (Live.faultOf error)
  holds path := Live.attempt do
    ((← IO.currentDir) / path.text).pathExists
  makeDirectories path := Live.attempt (IO.FS.createDirAll path.text)
  write path text := Live.attempt (IO.FS.writeFile path.text text)
  print text := Live.attempt (IO.print text)
  record record := do
    let surroundings ← read
    Live.attempt do
      let elapsed := (← IO.monoMsNow) - surroundings.started
      (← IO.getStderr).putStr (surroundings.screen.shown (Live.stamp elapsed) record)

/-- A fault that is not explained to the user, in words. -/
def Fault.words : Fault → String
  | .problem cause => cause.report
  | .defect cause => cause.statement
  | .missingKey name => "there is no " ++ name.display
  | .wrongKind => "a value is not of a kind that can be used here"
  | .noSuchOperation => "a value has no such operation"
  | .outOfRange => "a list has no such item"
  | .badValue => "a value cannot be used here"
  | .overflow => "a number is too large"
  | .unevenRow => "a row of a table has not as many cells as the others"
  | .unwritable => "a value has no form in the descriptor"
  | .unnamed => "a value over several lines has a key without a name"
  | .notUtf8 => "a file does not hold UTF-8 text"
  | .fileNotFound => "a file is not there"
  | .isDirectory => "a directory is in the place of a file"
  | .notDirectory => "a file is in the place of a directory"
  | .fileExists => "a file is there already"
  | .badPath => "a file cannot be used"

/-- Shows the end of a run. -/
def finish (ending : Command.Ending) : IO UInt32 := do
  IO.print ending.out
  let stderr ← IO.getStderr
  stderr.putStr ending.err
  if let some fault := ending.fault? then
    stderr.putStr ("Error: " ++ fault.words ++ "\n")
  return UInt32.ofNat ending.code

/-- Carries out what the words of a command line ask for. -/
def start (arguments : List String) : IO UInt32 := do
  match CommandLine.read arguments with
  | .error stop => finish (Command.stopping stop)
  | .ok line =>
    let started ← IO.monoMsNow
    let result ← ((Command.run line : Live Unit).run ⟨line.screen, started⟩).run
    let elapsed := (← IO.monoMsNow) - started
    finish (Command.ending line.screen (Live.seconds elapsed) none result)

end CloudGraph

def main (arguments : List String) : IO UInt32 :=
  CloudGraph.start arguments
