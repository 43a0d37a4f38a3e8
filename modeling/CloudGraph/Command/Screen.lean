import CloudGraph.Command.Usage
import CloudGraph.Log
import CloudGraph.Terminal.Style

/-!
# Screens

How a run shows its results, its end and its log. Colours and silence are chosen on the
command line, and so is how much of the log is shown.
-/

namespace CloudGraph

/-- What a run shows. -/
structure Screen where
  colours : Bool
  quiet : Bool
  /-- The level from which on records are shown, if one is chosen. -/
  threshold? : Option Level

/-- The screen that a command line chooses. -/
def CommandLine.screen (line : CommandLine) : Screen where
  colours := !line.plain
  quiet := line.quiet
  threshold? := if line.debug then some .debug else if line.verbose then some .info else none

namespace Screen

/-- A text in a style. -/
def styled (screen : Screen) (style : Style) (text : String) : String :=
  style.apply screen.colours text

/-- What is shown last of a problem: what is wrong, and how to mend it. -/
def problem (screen : Screen) (statement remedy : String) : String :=
  "\n" ++ screen.styled .bad statement ++ "\n" ++
    (if remedy.isEmpty then "" else remedy ++ "\n") ++
    (if remedy.toList.getLast? = some '\n' then "" else "\n")

/-- What is shown last of a defect: what is wrong, and where it came up. -/
def defect (screen : Screen) (statement : String) (details? : Option String) : String :=
  screen.styled .bad ("\nUnexpected error.\n" ++ statement) ++ "\n" ++
    ((details?.map ("\n" ++ ·)).getD "")

/-- The time that a run took, unless it is to be quiet. -/
def footer (screen : Screen) (elapsed : String) : String :=
  if screen.quiet then "" else screen.styled .dim ("\n-- " ++ elapsed ++ "s\n")

/-- The width of a source in a line of the log. -/
def sourceWidth : Nat := 25

/-- A record with its time and its source. -/
def logLine (time : String) (record : Record) : String :=
  let source := record.source.name
  let filled := String.ofList (List.replicate (sourceWidth - source.length) ' ')
  "[" ++ time ++ "] " ++ source ++ filled ++ " " ++ record.message ++ "\n"

/-- A record as it is shown, if it is. Without a chosen level only warnings and errors
are, and with colours they are shown as their message alone. -/
def shown (screen : Screen) (time : String) (record : Record) : String :=
  let least := screen.threshold?.getD .warning
  if record.level.rank < least.rank then ""
  else if screen.colours && screen.threshold?.isNone then record.message ++ "\n"
  else logLine time record

end Screen

end CloudGraph
