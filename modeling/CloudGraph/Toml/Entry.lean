import CloudGraph.Toml.Key
import CloudGraph.Toml.Parts
import CloudGraph.Toml.Scalar

/-!
# Entries of a settings file

An entry is a key with its value. `addEntry` puts one into a table; the reader of its
value is a parameter, because values hold entries in turn. A value can be a text that the
next lines go on with: then the entry is left open.
-/

namespace CloudGraph.Toml

/-- The two sides of an entry. -/
structure Sides where
  key : List Char
  value : List Char
  /-- Whether the value is orderly as a number. -/
  orderly : Bool

/-- Whether a value may follow its equals sign without more ado. -/
def startsPlainly (value : List Char) : Bool :=
  match value with
  | [] => true
  | c :: _ =>
    [' ', '\t', '\'', '"', '[', '\x7b'].contains c
      || Text.trim value = "true".toList || Text.trim value = "false".toList

/-- Whether a value may stay as it is: it starts plainly or needs no blank before it. -/
def isSettled (value : List Char) : Except ReadError Bool :=
  if startsPlainly value then .ok true else standsAlone value

/-- Moves the equals sign of an entry to the right until its value may stay, given the
parts of the value between equals signs. -/
def settleParts (key : List Char) (orderly : Bool) (part : List Char) :
    List (List Char) → Except ReadError Sides
  | [] => do
    if ← isSettled part then return ⟨key, part, orderly && isOrderly part⟩
    else throw .malformed
  | next :: parts => do
    let value := Text.joinWith ['='] (part :: next :: parts)
    let orderly := orderly && isOrderly value
    if ← isSettled value then return ⟨key, value, orderly⟩
    else settleParts (key ++ '=' :: part) orderly next parts

/-- The sides of an entry around an equals sign, or around the next one that leaves a
value that may stay. The underscores of a value that starts with a digit do not count
at first. -/
def settle (key value : List Char) : Except ReadError Sides := do
  let compact :=
    if value.head?.any Char.isDigit then value.filter (· != '_') else value
  if ← isSettled compact then return ⟨key, compact, isOrderly value⟩
  match Text.splitOn '=' value with
  | part :: next :: parts => settleParts (key ++ '=' :: part) (isOrderly value) next parts
  | _ =>
    if compact = value then throw .malformed else settleParts key (isOrderly value) value []

/-- The sides of an entry. Its equals sign is the first one outside quotes, or else the
last one. -/
def sides (text : List Char) : Except ReadError Sides :=
  let rank := rankOutside ['='] false (pieces text)
  match (cutAt? ['='] rank text).or (cutAt? ['='] (rank - 1) text) with
  | some (key, value) => settle key value
  | none => .error .malformed

/-- The text that starts with the last of some parts between commas that starts with a
quote. -/
def lastQuoted : List (List Char) → Except ReadError (List Char)
  | [] => .ok []
  | [part] => .ok part
  | part :: next :: parts =>
    match part with
    | [] => .error .nothingThere
    | c :: _ => if isQuote c then .ok part else lastQuoted ((next ++ ',' :: part) :: parts)
termination_by parts => parts.length

/-- The text that a value goes on to its end with: the last text of a list that is not
closed, or the value itself. -/
def openText (value : List Char) : Except ReadError (List Char) :=
  let first := (Text.trim (inner value)).head?
  if value.head? = some '[' && (Text.trim value).getLast? != some ']' && first.any isQuote then
    lastQuoted (Text.splitOn ',' (Text.trim (value.drop 1))).reverse
  else .ok value

/-- Whether a value is a text over several lines that does not end in it. -/
def isOpen (value : List Char) : Except ReadError Bool := do
  if value.length < 3 then return false
  match ← openText value with
  | [] => throw .nothingThere
  | quote :: rest =>
    if !isQuote quote then return false
    match rest with
    | [] => throw .nothingThere
    | second :: rest =>
      if second != quote then return false
      match rest with
      | [] => throw .nothingThere
      | third :: rest =>
        if third != quote then return false
        let last := rest.reverse.take 3
        return !(last.length = 3 && last.all (· = quote))

/-- An entry that the next lines go on with. -/
structure Pending where
  name : String
  /-- The value so far. -/
  text : List Char
  /-- Whether a backslash joins the next line to it. -/
  joins : Bool

namespace Pending

/-- A pending entry after some lines of its value. A backslash that is not escaped joins
the next line; otherwise the line end is part of the value. -/
def ofText (name : String) (text : List Char) : Pending :=
  if endsOpen text then ⟨name, text.dropLast, true⟩ else ⟨name, text ++ ['\n'], false⟩

end Pending

/-- Adds an entry that is not there yet to a table, or leaves it open. -/
def addContent (name : String) (content : Node ⊕ Pending) :
    Node → Except ReadError (Node × Option Pending)
  | .table oneLine entries =>
    if (Node.find? entries name).isSome then .error .malformed
    else
      match content with
      | .inl node => .ok (.table oneLine (Node.put entries name node), none)
      | .inr pending =>
        if name.isEmpty then .error .unnamed
        else .ok (.table oneLine entries, some pending)
  | _ => .error .malformed

/-- Adds the entry of a text to a table. The tables of its key are looked for before its
value is read, and its name after that. -/
def addEntry (readValue : Bool → List Char → Except ReadError Node) (text : List Char)
    (table : Node) : Except ReadError (Node × Option Pending) := do
  let sides ← sides text
  let key ← Key.ofText (Text.trim sides.key)
  let value := Text.trim sides.value
  let add (table : Node) : Except ReadError (Node × Option Pending) := do
    if ← isOpen value then addContent key.name (.inr (.ofText key.name value)) table
    else addContent key.name (.inl (← readValue sides.orderly value)) table
  table.alterAt add (key.tables.map .entry)

end CloudGraph.Toml
