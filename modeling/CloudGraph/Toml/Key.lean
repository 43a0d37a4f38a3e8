import CloudGraph.Toml.Quoted

/-!
# Keys of a settings file

A key names an entry of the present table, or of a table inside it that the parts before
its last point name.
-/

namespace CloudGraph.Toml

/-- The place of an entry. -/
structure Key where
  /-- The names of the tables that the entry stands in, from outside in. -/
  tables : List String
  name : String

namespace Key

/-- The parts of a key between its points, given its pieces outside and between quotes by
turns. -/
def partsOf (between : Bool) : List (List Char) → List (List Char)
  | [] => []
  | piece :: pieces =>
    if between then piece :: partsOf false pieces
    else (Text.splitOn '.' piece).map Text.trim ++ partsOf true pieces

/-- The key of its parts. Parts without a character do not count. -/
def ofParts (parts : List (List Char)) : Except ReadError Key :=
  match parts.reverse.dropWhile List.isEmpty with
  | [] => .error .nothingThere
  | name :: tables =>
    let tables := (tables.reverse.filter (!·.isEmpty)).map String.ofList
    .ok ⟨tables, String.ofList (Text.trim name)⟩

/-- The key of a text. A key in quotes without a point stands for its text. -/
def ofText (text : List Char) : Except ReadError Key :=
  if text.contains '.' then
    ofParts (if text.any isQuote then partsOf false (pieces text) else Text.splitOn '.' text)
  else
    match text with
    | [] => .error .nothingThere
    | first :: _ => do
      let quoted := isQuote first && text.getLast? = some first
      let name ← if quoted then unescape (inner text) else pure text
      return ⟨[], String.ofList name⟩

end Key

end CloudGraph.Toml
