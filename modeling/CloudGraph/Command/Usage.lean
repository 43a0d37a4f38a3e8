import CloudGraph.Text.Quoted

/-!
# Command lines

What the program can be asked to do. `CommandLine.read` reads the words of a command
line: options may stand anywhere before a word `--`, a long option may be cut short as
long as it is clear, and short options may be put together. Every option counts once.
-/

namespace CloudGraph

/-- What the program does. -/
inductive Action where
  | compile
  | overview
  | runtimes
  | initialise
  deriving DecidableEq

/-- The word that asks for an action. -/
def Action.word : Action → String
  | .compile => "compile"
  | .overview => "show"
  | .runtimes => "runtimes"
  | .initialise => "init"

/-- What a command line asks for. -/
structure CommandLine where
  action : Action
  model? : Option String := none
  settings? : Option String := none
  runtime? : Option String := none
  output? : Option String := none
  service? : Option String := none
  force : Bool := false
  quiet : Bool := false
  verbose : Bool := false
  debug : Bool := false
  plain : Bool := false

/-- Why a command line asks for nothing to be done. -/
inductive Stop where
  | help
  | version
  | misuse (message? : Option String)

namespace Usage

/-- The version of the program. -/
def version : String := "0.3.0"

/-- The forms of a command line. -/
def forms : List String := [
  "Usage:",
  "  slsgraph [options] compile [MODEL] [-r RUNTIME] [-o DIR] [--service=NAME] [--force]",
  "  slsgraph [options] show [MODEL]",
  "  slsgraph [options] runtimes",
  "  slsgraph [options] init",
  "  slsgraph --version",
  "  slsgraph -h | --help"]

/-- What comes before the forms in the help. -/
def heading : List String := ["slsgraph.", ""]

/-- What comes after the forms in the help. -/
def details : List String := [
  "",
  "Commands:",
  "  compile   Compile a model into a Serverless Framework project.",
  "  show      List the nodes and edges in a model.",
  "  runtimes  List the supported runtimes.",
  "  init      Create a skeleton slsgraph.toml.",
  "",
  "Arguments:",
  "  MODEL  Architecture model (JSON). Defaults to the configured model.",
  "",
  "Options:",
  "  --version       Show version.",
  "  -h, --help      Show this screen.",
  "  -q, --quiet     Be quiet.",
  "  -v, --verbose   Be verbose.",
  "  -V, --vverbose  Be very verbose.",
  "  --no-colours    Disable colours in CLI output.",
  "",
  "  --config=CONFIG  Config file to use (default: slsgraph.toml, if it exists)",
  "",
  "  -r RUNTIME, --runtime=RUNTIME  Function runtime (e.g. python3.7)",
  "  -o DIR, --output=DIR           Output directory",
  "  --service=NAME                 Service name",
  "  --force                        Overwrite existing files"]

/-- The help without its last line end. -/
def help : String :=
  "\n".intercalate (heading ++ forms ++ details)

/-- The forms of a command line as a text. -/
def summary : String :=
  "\n".intercalate forms

/-- An option, by its names. -/
structure Opt where
  long? : Option String
  short? : Option Char
  takesValue : Bool
  deriving DecidableEq

/-- The options, in the order of the help. -/
def options : List Opt := [
  ⟨"--version", none, false⟩,
  ⟨"--help", 'h', false⟩,
  ⟨"--quiet", 'q', false⟩,
  ⟨"--verbose", 'v', false⟩,
  ⟨"--vverbose", 'V', false⟩,
  ⟨"--no-colours", none, false⟩,
  ⟨"--config", none, true⟩,
  ⟨"--runtime", 'r', true⟩,
  ⟨"--output", 'o', true⟩,
  ⟨"--service", none, true⟩,
  ⟨"--force", none, false⟩]

/-- A word of a command line that has been understood. -/
inductive Word where
  | option (option : Opt) (value? : Option String)
  | operand (text : String)

/-- What one word comes to: options, the last of which may want the next word as its
value, and the options that are known from then on. -/
structure Step where
  read : List Word
  pending? : Option (Opt × String)
  known : List Opt

/-- Reads a long option. One that is not known is learnt. -/
def readLong (known : List Opt) (word : String) : Except String Step :=
  let name := String.ofList (word.toList.takeWhile (· != '='))
  let value? := match word.toList.dropWhile (· != '=') with
    | '=' :: value => some (String.ofList value)
    | _ => none
  let exact := known.filter fun option => option.long? = some name
  let matching :=
    if exact.isEmpty then
      known.filter fun option =>
        (option.long?.map fun long => name.toList.isPrefixOf long.toList).getD false
    else exact
  match matching with
  | [] =>
    let option : Opt := ⟨some name, none, value?.isSome⟩
    .ok ⟨[.option option value?], none, known ++ [option]⟩
  | [option] =>
    let long := option.long?.getD ""
    match option.takesValue, value? with
    | false, none => .ok ⟨[.option option none], none, known⟩
    | false, some _ => .error (long ++ " must not have an argument")
    | true, none => .ok ⟨[], some (option, long), known⟩
    | true, some value => .ok ⟨[.option option (some value)], none, known⟩
  | several =>
    .error (name ++ " is not a unique prefix: " ++
      ", ".intercalate (several.filterMap Opt.long?) ++ "?")

/-- Reads short options that are put together. The rest after one that takes a value is
its value. -/
def readShorts (known : List Opt) : List Char → Step
  | [] => ⟨[], none, known⟩
  | letter :: rest =>
    match known.find? fun option => option.short? = some letter with
    | some option =>
      if option.takesValue then
        if rest.isEmpty then ⟨[], some (option, String.ofList ['-', letter]), known⟩
        else ⟨[.option option (some (String.ofList rest))], none, known⟩
      else
        let step := readShorts known rest
        { step with read := .option option none :: step.read }
    | none =>
      let option : Opt := ⟨none, some letter, false⟩
      let step := readShorts (known ++ [option]) rest
      { step with read := .option option none :: step.read }

/-- Reads one word other than `--`. -/
def readWord (known : List Opt) (word : String) : Except String Step :=
  match word.toList with
  | '-' :: '-' :: _ => readLong known word
  | '-' :: letter :: letters => .ok (readShorts known (letter :: letters))
  | _ => .ok ⟨[.operand word], none, known⟩

/-- Reads the words of a command line. -/
def readWords (known : List Opt) : List String → Except String (List Word)
  | [] => .ok []
  | word :: words =>
    if word = "--" then .ok ((word :: words).map .operand)
    else do
      let step ← readWord known word
      match step.pending? with
      | none => return step.read ++ (← readWords step.known words)
      | some (option, name) =>
        match words with
        | [] => throw (name ++ " requires argument")
        | value :: words =>
          return step.read ++ .option option (some value) :: (← readWords step.known words)

/-- The texts of the operands, in order. -/
def operands (words : List Word) : List String :=
  words.filterMap fun word =>
    match word with
    | .operand text => some text
    | .option .. => none

/-- The long names of the options that are given. An option without one has none. -/
def given (words : List Word) : List (Option String) :=
  words.filterMap fun word =>
    match word with
    | .option option _ => some option.long?
    | .operand _ => none

/-- Whether an option is given. -/
def has (words : List Word) (long : String) : Bool :=
  (given words).contains (some long)

/-- The value that is given for an option. -/
def valueOf? (words : List Word) (long : String) : Option String :=
  words.findSome? fun word =>
    match word with
    | .option option value? => if option.long? = some long then value? else none
    | .operand _ => none

/-- The options that go with every action. -/
def common : List String := ["--quiet", "--verbose", "--vverbose", "--no-colours", "--config"]

/-- The further options of an action. -/
def own : Action → List String
  | .compile => ["--runtime", "--output", "--service", "--force"]
  | .overview | .runtimes | .initialise => []

/-- The action of some operands, and the model if one is named. -/
def actionOf? : List String → Option (Action × Option String)
  | ["compile"] => some (.compile, none)
  | ["compile", model] => some (.compile, some model)
  | ["show"] => some (.overview, none)
  | ["show", model] => some (.overview, some model)
  | ["runtimes"] => some (.runtimes, none)
  | ["init"] => some (.initialise, none)
  | _ => none

/-- Whether the options that are given go with an action, each at most once. -/
def allowed (action : Action) (words : List Word) : Bool :=
  let names := given words
  let known := (common ++ own action).map some
  names.all known.contains && names.eraseDups.length = names.length

end Usage

namespace CommandLine

open Usage

/-- Reads a command line. Help comes before the version, and both come before what else
is asked for. -/
def read (arguments : List String) : Except Stop CommandLine :=
  match readWords options arguments with
  | .error message => .error (.misuse (some message))
  | .ok words =>
    if has words "--help" then .error .help
    else if has words "--version" then .error .version
    else
      match actionOf? (operands words) with
      | none => .error (.misuse none)
      | some (action, model?) =>
        if allowed action words then
          .ok {
            action
            model?
            settings? := valueOf? words "--config"
            runtime? := valueOf? words "--runtime"
            output? := valueOf? words "--output"
            service? := valueOf? words "--service"
            force := has words "--force"
            quiet := has words "--quiet"
            verbose := has words "--verbose"
            debug := has words "--vverbose"
            plain := has words "--no-colours" }
        else .error (.misuse none)

/-- An option's value inside a message. -/
def displayText : Option String → String
  | none => "None"
  | some text => Text.quoted text

/-- A truth value inside a message. -/
def displayBool (value : Bool) : String := if value then "True" else "False"

/-- All that a command line asks for, in the order of the names. -/
def display (line : CommandLine) : String :=
  let asked (action : Action) := displayBool (line.action = action)
  let fields : List (String × String) := [
    ("--config", displayText line.settings?),
    ("--force", displayBool line.force),
    ("--help", displayBool false),
    ("--no-colours", displayBool line.plain),
    ("--output", displayText line.output?),
    ("--quiet", displayBool line.quiet),
    ("--runtime", displayText line.runtime?),
    ("--service", displayText line.service?),
    ("--verbose", displayBool line.verbose),
    ("--version", displayBool false),
    ("--vverbose", displayBool line.debug),
    ("MODEL", displayText line.model?),
    ("compile", asked .compile),
    ("init", asked .initialise),
    ("runtimes", asked .runtimes),
    ("show", asked .overview)]
  "\x7b" ++ ",\n ".intercalate (fields.map fun field =>
    Text.quoted field.1 ++ ": " ++ field.2) ++ "\x7d"

end CommandLine

end CloudGraph
