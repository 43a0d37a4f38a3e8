import CloudGraph.Toml.Entry

/-!
# Values of a settings file

`readValue` reads the value of an entry or an item: a truth value, a text, a list, a table
on one line or a scalar. The items of a list are of one kind.
-/

namespace CloudGraph.Toml

/-- Reads the items of a list, all of the kind of the first one. A missing item is passed
over. -/
def readItems (readValue : Bool → List Char → Except ReadError Node) (first? : Option Node) :
    List (List Char) → Except ReadError (List Node)
  | [] => .ok []
  | text :: texts => do
    let text := Text.trim text
    if text.isEmpty then readItems readValue first? texts
    else
      let item ← readValue true text
      let first := first?.getD item
      if first.sameKind item then
        return item :: (← readItems readValue (some first) texts)
      else throw .malformed

/-- Adds entries to a table in turn. One that is left open ends the table. -/
def addEntries (readValue : Bool → List Char → Except ReadError Node) :
    List (List Char) → Node → Except ReadError Node
  | [], table => .ok table
  | text :: texts, table => do
    let (table, pending?) ← addEntry readValue text table
    if pending?.isSome then return table else addEntries readValue texts table

/-- Adds the entries between braces to a table. -/
def addFields (readValue : Bool → List Char → Except ReadError Node) (text : List Char)
    (table : Node) : Except ReadError Node := do
  addEntries readValue (← fieldTexts text) table

/-- Reads a value. Each value inside it spends one unit of fuel. -/
def readWithin (fuel : Nat) (orderly : Bool) (text : List Char) : Except ReadError Node :=
  match fuel with
  | 0 => .error .malformed
  | fuel + 1 =>
    match text with
    | [] => .error .malformed
    | c :: _ =>
      if text = "true".toList then .ok (.scalar (.bool true))
      else if text = "false".toList then .ok (.scalar (.bool false))
      else if isQuote c then do return .scalar (.text (← readQuoted c text))
      else if c = '[' then do
        return .list (← readItems (readWithin fuel) none (← itemTexts text))
      else if c = '\x7b' then addFields (readWithin fuel) text (.table true [])
      else do return .scalar (← scalar orderly text)

/-- Reads a value. The values inside it are shorter than it, so that its length is always
enough fuel. -/
def readValue (orderly : Bool) (text : List Char) : Except ReadError Node :=
  readWithin (text.length + 1) orderly text

end CloudGraph.Toml
