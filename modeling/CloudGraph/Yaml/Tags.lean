import CloudGraph.Text.Lines
import CloudGraph.Yaml.Layout

/-!
# Intrinsic function tags

The short form of an intrinsic function, such as `!GetAtt queue.Arn`, only works
without quotes. `unquoteTags` goes through a text line by line and takes the quotes off
a tag that fills the rest of a line after a key or after dashes. `Tags.unquoteLine`
is the rule for one line: the line reads `lead ' tag '` and neither part holds a quote.
-/

namespace CloudGraph.Yaml

/-- The names of the intrinsic functions that have a short form. -/
def intrinsicNames : List String :=
  ["Ref", "GetAtt", "Sub", "Join", "Select", "Split", "If", "Equals", "Not", "And", "Or",
    "FindInMap", "ImportValue", "Base64", "Cidr", "GetAZs"]

namespace Tags

/-- Whether a text is a short form: an exclamation mark and a name, alone or before a
blank and further text. -/
def isShortForm : List Char → Bool
  | '!' :: rest =>
    let name := rest.takeWhile fun c => !spaceOrTab c
    intrinsicNames.contains (String.ofList name)
  | _ => false

/-- Drops dashes that are followed by a space. -/
def dropDashes : List Char → List Char
  | '-' :: ' ' :: rest => dropDashes rest
  | rest => rest

/-- Whether a text ends in a colon and a space, with something before them. -/
def endsKey (lead : List Char) : Bool :=
  match lead.reverse with
  | ' ' :: ':' :: _ :: _ => true
  | _ => false

/-- Whether a text may stand before a tag: blanks and dashes, or a key. -/
def isLead (lead : List Char) : Bool :=
  (dropDashes (lead.dropWhile spaceOrTab)).isEmpty || endsKey lead

/-- The two parts of a line that is closed by a quote and holds exactly one other. -/
def quotedEnd? (line : List Char) : Option (List Char × List Char) :=
  let lead := line.takeWhile (· ≠ '\'')
  match line.drop lead.length with
  | _ :: rest =>
    let tag := rest.takeWhile (· ≠ '\'')
    if rest.drop tag.length = ['\''] then some (lead, tag) else none
  | [] => none

/-- A line without the quotes of its tag. -/
def unquoteLine (line : List Char) : List Char :=
  match quotedEnd? line with
  | some (lead, tag) => if isLead lead && isShortForm tag then lead ++ tag else line
  | none => line

end Tags

/-- Takes the quotes off the tags of a text, line by line. -/
def unquoteTags (text : List Char) : List Char :=
  Text.joinWith ['\n'] ((Text.splitOn '\n' text).map Tags.unquoteLine)

end CloudGraph.Yaml
