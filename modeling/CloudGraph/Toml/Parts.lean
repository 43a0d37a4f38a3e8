import CloudGraph.Toml.Quoted

/-!
# Parts of lists and of tables on one line

`itemTexts` divides the text of a list into those of its items, `fieldTexts` that of a
table on one line into those of its entries.
-/

namespace CloudGraph.Toml

/-- Whether a text ends with the quote that it starts with. -/
def isBounded (text : List Char) : Bool :=
  match text with
  | [] => true
  | first :: rest =>
    text.getLast? = some first && !oddBackslashes (rest.reverse.drop 1)

/-- Whether a text starts with three quotes and does not end with them. -/
def isUnfinished (text : List Char) : Bool :=
  match text, text.reverse with
  | a :: b :: c :: _, _ :: y :: z :: _ => a = b && b = c && y != a && z != a
  | _, _ => false

/-- Whether the text of an item is a complete text. -/
def isComplete (item : List Char) : Bool :=
  let text := Text.trim item
  isBounded text && !isUnfinished text

/-- Joins the parts between commas into texts, from the given part on. The last text is
taken as it comes. -/
def joinTexts (part : List Char) :
    List (List Char) → Except ReadError (List (List Char))
  | [] => .ok [part]
  | next :: parts => do
    if isComplete part then return part :: (← joinTexts next parts)
    else
      let part := part ++ ',' :: next
      match parts with
      | [] => if isComplete part then return [part] else throw .nothingThere
      | parts => joinTexts part parts

/-- The texts between the commas of a list that stand outside its inner lists. -/
def splitNested (depth : Int) : List Char → List (List Char)
  | [] => [[]]
  | c :: rest =>
    if c = ',' && depth = 0 then [] :: splitNested depth rest
    else
      let depth := if c = '[' then depth + 1 else if c = ']' then depth - 1 else depth
      match splitNested depth rest with
      | part :: parts => (c :: part) :: parts
      | [] => [[c]]

/-- What is known inside a list of tables. -/
structure TableScan where
  /-- The characters of the present table, the last one first. -/
  past : List Char
  /-- The braces that are open. -/
  depth : Nat
  /-- Whether a text is open. -/
  inText : Bool := false

/-- The texts of the tables of a list. What stands between two tables is passed over; at
least one character does. -/
def splitTables : Option TableScan → List Char → List (List Char)
  | _, [] => []
  | none, c :: rest =>
    splitTables (if c = '\x7b' then some ⟨[c], 1, false⟩ else none) rest
  | some scan, c :: rest =>
    let past := c :: scan.past
    let escaped := scan.inText && oddBackslashes scan.past
    let inText := if isQuote c && !escaped then !scan.inText else scan.inText
    let depth := if c = '\x7b' && !inText then scan.depth + 1 else scan.depth
    if c != '\x7d' || inText then splitTables (some ⟨past, depth, inText⟩) rest
    else if 1 < depth then splitTables (some ⟨past, depth - 1, inText⟩) rest
    else past.reverse :: splitTables none (rest.drop 1)
termination_by _ text => text.length
decreasing_by
  all_goals
    simp only [List.length_cons, List.length_drop]
    omega

/-- The texts of the items of a list. Its first item says how they are divided. -/
def itemTexts (text : List Char) : Except ReadError (List (List Char)) :=
  let content := inner (Text.trim text)
  match (Text.trim content).head?, content with
  | some '[', _ => .ok (splitNested 0 content)
  | some '\x7b', first :: rest =>
    .ok (splitTables (some ⟨[first], if first = '\x7b' then 1 else 0, false⟩) rest)
  | some c, _ =>
    match Text.splitOn ',' content with
    | [] => .ok []
    | part :: parts => if isQuote c then joinTexts part parts else .ok (part :: parts)
  | none, _ => .ok []

/-- Whether the value of an entry is complete as it stands. -/
def isWhole (value : List Char) : Bool :=
  match value, value.getLast? with
  | first :: _, some last =>
    (isQuote first && first = last) || first = '-' || first.isDigit
      || value = "true".toList || value = "false".toList
      || (first = '[' && last = ']') || (first = '\x7b' && last = '\x7d')
  | _, _ => false

/-- Whether the text of an entry has a complete value. -/
def isEntry (text : List Char) : Except ReadError Bool :=
  match text.dropWhile (· != '=') with
  | [] => .error .malformed
  | _ :: rest =>
    let value := Text.trim rest
    if value.isEmpty then .error .nothingThere else .ok (isWhole value)

/-- Joins the parts between commas into entries, from the given part on. -/
def joinEntries (part : List Char) :
    List (List Char) → Except ReadError (List (List Char))
  | [] => do if ← isEntry part then return [part] else throw .malformed
  | next :: parts => do
    if ← isEntry part then return part :: (← joinEntries next parts)
    else joinEntries (part ++ ',' :: next) parts

/-- The texts of the entries of a table on one line. -/
def fieldTexts (text : List Char) : Except ReadError (List (List Char)) :=
  match Text.splitOn ',' (inner text) with
  | [] => .ok []
  | [part] => if (Text.trim part).isEmpty then .ok [] else joinEntries part []
  | part :: parts => joinEntries part parts

end CloudGraph.Toml
