import CloudGraph.Proofs.Lines
import CloudGraph.Yaml.Layout

/-!
# The blocks of a descriptor text

The text of a node is a sequence of blocks, one below the other. A block is a line that holds no
scalar of its own, such as a key above a mapping, or it is one scalar with what its line holds
before it. `Node.blocks` lists them with the data that decide how each is written, and
`layoutNode_eq` says that they make up the layout. What is shown of a text therefore only needs
to look at one scalar and the line that it starts on.
-/

namespace CloudGraph.Yaml

/-- What a line holds before an entry or an item: blanks, the colon below a long key, dashes. -/
structure Start where
  blanks : Nat
  colon : Bool
  dashes : Nat
  deriving DecidableEq

namespace Start

variable (start : Start)

/-- The characters of a start. -/
def text : List Char :=
  List.replicate start.blanks ' ' ++ (if start.colon then [':', ' '] else []) ++
    (List.replicate start.dashes ['-', ' ']).flatten

/-- The column behind a start. -/
def width : Nat :=
  start.blanks + (if start.colon then 2 else 0) + 2 * start.dashes

theorem length_dashes (dashes : Nat) :
    (List.replicate dashes ['-', ' ']).flatten.length = 2 * dashes := by
  induction dashes with
  | zero => rfl
  | succ dashes ih =>
      rw [List.replicate_succ, List.flatten_cons, List.length_append, ih, Nat.mul_succ]
      exact Nat.add_comm 2 (2 * dashes)

@[simp]
theorem length_text : start.text.length = start.width := by
  simp only [text, width, List.length_append, List.length_replicate, length_dashes]
  cases start.colon <;> rfl

/-- The start of a line that is indented only. -/
def margin (width : Nat) : Start :=
  ⟨width, false, 0⟩

@[simp]
theorem text_margin (width : Nat) : (margin width).text = List.replicate width ' ' := by
  simp [margin, text]

@[simp]
theorem width_margin (width : Nat) : (margin width).width = width := by
  simp [margin, Start.width]

/-- The start of the first part of an item. -/
def dashed : Start :=
  { start with dashes := start.dashes + 1 }

@[simp]
theorem text_dashed : start.dashed.text = start.text ++ ['-', ' '] := by
  cases colon : start.colon <;> simp [dashed, text, colon, List.replicate_succ']

@[simp]
theorem width_dashed : start.dashed.width = start.width + 2 := by
  cases colon : start.colon <;> simp [dashed, width, colon, Nat.mul_add, Nat.add_assoc]

/-- The start of the first part of the value of a long key. -/
def belowKey : Start :=
  ⟨start.width, true, 0⟩

@[simp]
theorem text_belowKey :
    start.belowKey.text = List.replicate start.width ' ' ++ [':', ' '] := by
  simp [belowKey, text]

@[simp]
theorem width_belowKey : start.belowKey.width = start.width + 2 := by
  simp [belowKey, width]

theorem mem_text {c : Char} (member : c ∈ start.text) : c = ' ' ∨ c = ':' ∨ c = '-' := by
  simp only [text, List.mem_append, List.mem_replicate, List.mem_flatten] at member
  rcases member with (⟨-, rfl⟩ | inColon) | ⟨dash, ⟨-, rfl⟩, inDash⟩
  · exact .inl rfl
  · split at inColon
    · rcases List.mem_pair.1 inColon with rfl | rfl <;> simp
    · cases inColon
  · rcases List.mem_pair.1 inDash with rfl | rfl <;> simp

end Start

/-- The two forms of a collection. -/
inductive Form where
  | list
  | map
  deriving DecidableEq

/-- A collection without parts. -/
def Form.brackets : Form → List Char
  | .list => ['[', ']']
  | .map => ['{', '}']

/-- How far the parts of a collection on lines of its own are indented. -/
def Form.step : Form → Nat
  | .list => 0
  | .map => 2

/-- What a node is to the collection that it is a part of. -/
inductive Role where
  /-- The document as a whole. -/
  | whole
  /-- The value of a key that fits before its colon. -/
  | entry (key : Atom) (short : isSimpleKey key = true)
  /-- The value of a key that stands on lines of its own, after a question mark. -/
  | belowKey (key : Atom)
  /-- An item of a list. -/
  | item
  deriving DecidableEq

namespace Role

/-- The role of the value of a key. -/
def ofKey (key : Atom) : Role :=
  if short : isSimpleKey key = true then .entry key short else .belowKey key

variable (role : Role) (start : Start)

/-- The place of a node of this role. -/
def place : Role → Place
  | whole => .root
  | entry .. => .afterKey
  | belowKey _ => .afterColon
  | item => .afterDash

/-- What the line of a node holds before the place of the node. -/
def head : Role → List Char
  | whole => []
  | entry key _ => start.text ++ writeScalar false (start.width + 2) start.width key ++ [':']
  | belowKey _ => List.replicate start.width ' ' ++ [':']
  | item => start.text ++ ['-']

/-- The start of the first part of a collection of this role. -/
def inner (form : Form) (anchored : Bool) : Start :=
  match role with
  | whole => .margin 0
  | entry .. => .margin (start.width + form.step)
  | belowKey _ => if anchored then .margin (start.width + form.step) else start.belowKey
  | item => if anchored then .margin (start.width + 2) else start.dashed

/-- Whether a collection of this role starts on a line of its own. -/
def breaks (anchored : Bool) : Bool :=
  anchored ||
    match role with
    | entry .. => true
    | _ => false

theorem width_inner_list (anchored : Bool) :
    (role.inner start .list anchored).width = role.place.listIndent start.width anchored := by
  cases role <;> cases anchored <;> simp [inner, place, Place.listIndent, Form.step]

theorem width_inner_map (anchored : Bool) :
    (role.inner start .map anchored).width = role.place.mapIndent start.width := by
  cases role <;> cases anchored <;> simp [inner, place, Place.mapIndent, Form.step]

/-- The first part of a collection starts below its line or right behind it. -/
theorem head_opening (form : Form) (anchored : Bool) :
    let inner := role.inner start form anchored
    if role.breaks anchored then
      role.place.opening inner.width anchored = '\n' :: inner.text
    else role.head start ++ role.place.opening inner.width anchored = inner.text := by
  cases role <;> cases anchored <;>
    simp [inner, place, breaks, Place.opening, lineEnd, head]

end Role

/-- A part of a text on lines of its own. -/
inductive Block where
  /-- The line above the parts of a collection. -/
  | above (role : Role) (start : Start) (anchor : Option Nat)
  /-- A collection without parts. -/
  | brackets (role : Role) (start : Start) (anchor : Option Nat) (form : Form)
  /-- A further occurrence of a shared part. -/
  | again (role : Role) (start : Start) (anchor : Nat)
  /-- A key after a question mark. -/
  | key (start : Start) (key : Atom)
  /-- A scalar that is a value, an item or the whole document. -/
  | leaf (role : Role) (start : Start) (scalar : Atom)
  deriving DecidableEq

namespace Block

/-- The line of a block up to its scalar, if it has one. -/
def lead : Block → List Char
  | .above role start anchor => role.head start ++ role.place.anchorText anchor
  | .brackets role start anchor form =>
    role.head start ++ role.place.anchorText anchor ++
      (if anchor.isSome then [' '] else role.place.space) ++ form.brackets
  | .again role start anchor => role.head start ++ role.place.space ++ '*' :: anchorName anchor
  | .key start _ => start.text ++ ['?', ' ']
  | .leaf role start _ => role.head start ++ role.place.space

/-- The scalar of a block. -/
def scalar? : Block → Option Atom
  | .key _ longKey => some longKey
  | .leaf _ _ scalar => some scalar
  | _ => none

/-- The indentation of the further lines of the scalar of a block. -/
def indent : Block → Nat
  | .leaf role start _ => role.place.scalarIndent start.width
  | .key start _ => start.width + 2
  | _ => 0

/-- The scalar of a block as it is written. -/
def written (block : Block) : List Char :=
  match block.scalar? with
  | some scalar => writeScalar true block.indent block.lead.length scalar
  | none => []

/-- The text of a block. -/
def text (block : Block) : List Char :=
  block.lead ++ block.written

end Block

/-- The block of a key that does not fit before its colon. -/
def Role.keyBlocks (start : Start) : Role → List Block
  | belowKey key => [.key start key]
  | _ => []

/-- The blocks of a collection with the given blocks for its parts. -/
def Role.collection (role : Role) (start : Start) (anchor : Option Nat) (form : Form)
    (parts : List Block) : List Block :=
  if parts.isEmpty then [.brackets role start anchor form]
  else if role.breaks anchor.isSome then .above role start anchor :: parts
  else parts

namespace Node

mutual

/-- The blocks of a node of a role. -/
def blocks (role : Role) (start : Start) : Node → List Block
  | .scalar value => [.leaf role start value]
  | .alias anchor => [.again role start anchor]
  | .list anchor items =>
    role.collection start anchor .list (itemBlocks (role.inner start .list anchor.isSome) items)
  | .map anchor entries =>
    role.collection start anchor .map (entryBlocks (role.inner start .map anchor.isSome) entries)

/-- The blocks of the items of a list. -/
def itemBlocks (start : Start) : List Node → List Block
  | [] => []
  | item :: items => blocks .item start item ++ itemBlocks (.margin start.width) items

/-- The blocks of the entries of a mapping. -/
def entryBlocks (start : Start) : List (Atom × Node) → List Block
  | [] => []
  | (key, value) :: entries =>
    (Role.ofKey key).keyBlocks start ++ blocks (Role.ofKey key) start value ++
      entryBlocks (.margin start.width) entries

end

variable {role : Role} {start : Start}

theorem collection_ne_nil {anchor : Option Nat} {form : Form} {parts : List Block} :
    role.collection start anchor form parts ≠ [] := by
  unfold Role.collection
  split
  · simp
  · split
    · simp
    · simpa [List.isEmpty_iff] using ‹¬ parts.isEmpty = true›

theorem blocks_ne_nil {node : Node} : node.blocks role start ≠ [] := by
  cases node <;> simp [blocks, collection_ne_nil]

theorem itemBlocks_ne_nil {item : Node} {items : List Node} :
    itemBlocks start (item :: items) ≠ [] := by
  simp [itemBlocks, blocks_ne_nil]

theorem entryBlocks_ne_nil {entry : Atom × Node} {entries : List (Atom × Node)} :
    entryBlocks start (entry :: entries) ≠ [] := by
  simp [entryBlocks, blocks_ne_nil]

end Node

/-- The text of blocks below each other. -/
def blocksText (blocks : List Block) : List Char :=
  Text.joinWith ['\n'] (blocks.map Block.text)

theorem blocksText_append {first second : List Block} (someFirst : first ≠ [])
    (someSecond : second ≠ []) :
    blocksText (first ++ second) = blocksText first ++ '\n' :: blocksText second := by
  rw [blocksText, List.map_append,
    Text.joinWith_append (by simpa using someFirst) (by simpa using someSecond)]
  simp [blocksText]

section Layout

variable {role : Role} {start : Start}

/-- A collection is laid out as its blocks when its parts are. -/
theorem collectionText_eq {anchor : Option Nat} {form : Form} {parts : List (List Char)}
    {blocks : List Block} (noParts : blocks = [] ↔ parts = [])
    (laidOut : parts ≠ [] →
      let inner := role.inner start form anchor.isSome
      inner.text ++ Text.joinWith (lineEnd inner.width) parts = blocksText blocks) :
    role.head start ++
        collectionText role.place anchor (role.inner start form anchor.isSome).width
          form.brackets parts =
      blocksText (role.collection start anchor form blocks) := by
  by_cases empty : parts = []
  · have noBlocks := noParts.2 empty
    simp [collectionText, Role.collection, empty, noBlocks, blocksText, Text.joinWith,
      Block.text, Block.lead, Block.written, Block.scalar?]
  · have someBlocks : blocks ≠ [] := fun noBlocks => empty (noParts.1 noBlocks)
    have opening := role.head_opening start form anchor.isSome
    have body := laidOut empty
    simp only at opening body
    cases breaks : role.breaks anchor.isSome with
    | true =>
        rw [if_pos breaks] at opening
        have joined : blocksText (.above role start anchor :: blocks) =
            role.head start ++ role.place.anchorText anchor ++ '\n' :: blocksText blocks := by
          rw [← List.singleton_append, blocksText_append (by simp) someBlocks]
          simp [blocksText, Text.joinWith, Block.text, Block.lead, Block.written, Block.scalar?]
        simp [collectionText, Role.collection, empty, someBlocks, opening, joined, breaks, ← body]
    | false =>
        rw [if_neg (by simp [breaks])] at opening
        have unanchored : anchor = none := by
          cases anchor with
          | none => rfl
          | some anchor => simp [Role.breaks] at breaks
        subst unanchored
        simp only [Option.isSome_none] at opening body breaks ⊢
        simp [collectionText, Role.collection, empty, someBlocks, breaks, Place.anchorText,
          ← body, ← opening]

/-- An entry is laid out as its key, if that stands by itself, and its value. -/
theorem entryText_eq {key : Atom} (value : Place → Nat → List Char) {blocks : List Block}
    (someBlock : blocks ≠ [])
    (laidOut : let role := Role.ofKey key
      role.head start ++ value role.place (role.head start).length = blocksText blocks) :
    start.text ++ entryText start.width key value =
      blocksText ((Role.ofKey key).keyBlocks start ++ blocks) := by
  simp only at laidOut
  by_cases short : isSimpleKey key = true
  · have role_eq : Role.ofKey key = .entry key short := by simp [Role.ofKey, short]
    rw [role_eq] at laidOut ⊢
    simp only [Role.keyBlocks, List.nil_append, ← laidOut]
    simp [entryText, short, Role.head, Role.place, Nat.add_assoc]
  · have role_eq : Role.ofKey key = .belowKey key := by simp [Role.ofKey, short]
    rw [role_eq] at laidOut ⊢
    rw [Role.keyBlocks, blocksText_append (by simp) someBlock, ← laidOut]
    simp [entryText, short, Role.head, Role.place, blocksText, Text.joinWith, Block.text,
      Block.lead, Block.written, Block.scalar?, Block.indent, lineEnd]

-- The induction is on the node. A part that is not the first starts at the margin of its
-- collection, whatever the line of the first part begins with.
mutual

/-- A node is laid out as its blocks. -/
theorem layoutNode_eq (node : Node) (role : Role) (start : Start) :
    role.head start ++ layoutNode role.place start.width (role.head start).length node =
      blocksText (node.blocks role start) := by
  cases node with
  | scalar scalar =>
      simp [layoutNode, Node.blocks, blocksText, Text.joinWith, Block.text, Block.lead,
        Block.written, Block.scalar?, Block.indent]
  | «alias» anchor =>
      simp [layoutNode, Node.blocks, blocksText, Text.joinWith, Block.text, Block.lead,
        Block.written, Block.scalar?]
  | list anchor items =>
      rw [layoutNode, Node.blocks, ← Role.width_inner_list]
      refine collectionText_eq ?_ fun someParts => layoutItems_eq items _ ?_
      · cases items <;> simp [Node.itemBlocks, layoutItems, Node.blocks_ne_nil]
      · rintro rfl
        exact someParts rfl
  | map anchor entries =>
      rw [layoutNode, Node.blocks, ← Role.width_inner_map role start anchor.isSome]
      refine collectionText_eq ?_ fun someParts => layoutEntries_eq entries _ ?_
      · cases entries <;> simp [Node.entryBlocks, layoutEntries, Node.blocks_ne_nil]
      · rintro rfl
        exact someParts rfl

theorem layoutItems_eq (items : List Node) (start : Start) (someItem : items ≠ []) :
    start.text ++ Text.joinWith (lineEnd start.width) (layoutItems start.width items) =
      blocksText (Node.itemBlocks start items) := by
  cases items with
  | nil => exact absurd rfl someItem
  | cons item items =>
      have first := layoutNode_eq item .item start
      simp only [Role.head, Role.place, List.length_append, Start.length_text,
        List.length_singleton, List.append_assoc, List.singleton_append] at first
      cases items with
      | nil => simpa [layoutItems, Text.joinWith, Node.itemBlocks] using first
      | cons next items =>
          have rest := layoutItems_eq (next :: items) (.margin start.width) (by simp)
          rw [Start.width_margin, Start.text_margin] at rest
          rw [layoutItems, Text.joinWith_cons (by simp [layoutItems]), Node.itemBlocks,
            blocksText_append Node.blocks_ne_nil Node.itemBlocks_ne_nil, ← first, ← rest]
          simp [lineEnd]

theorem layoutEntries_eq (entries : List (Atom × Node)) (start : Start) (someEntry : entries ≠ []) :
    start.text ++ Text.joinWith (lineEnd start.width) (layoutEntries start.width entries) =
      blocksText (Node.entryBlocks start entries) := by
  cases entries with
  | nil => exact absurd rfl someEntry
  | cons entry entries =>
      obtain ⟨key, value⟩ := entry
      have first := entryText_eq (fun place column => layoutNode place start.width column value)
        Node.blocks_ne_nil (layoutNode_eq value (Role.ofKey key) start)
      cases entries with
      | nil => simpa [layoutEntries, Text.joinWith, Node.entryBlocks] using first
      | cons next entries =>
          have rest := layoutEntries_eq (next :: entries) (.margin start.width) (by simp)
          rw [Start.width_margin, Start.text_margin] at rest
          rw [layoutEntries, Text.joinWith_cons (by simp [layoutEntries]), Node.entryBlocks,
            blocksText_append (by simp [Node.blocks_ne_nil]) Node.entryBlocks_ne_nil,
            ← first, ← rest]
          simp [lineEnd]

end

end Layout

end CloudGraph.Yaml

namespace CloudGraph

open Yaml

/-- The blocks of the text of a value. -/
def Value.blocks (value : Value) : List Block :=
  (Yaml.Node.ofValue value).blocks .whole (.margin 0)

theorem Value.blocks_ne_nil (value : Value) : value.blocks ≠ [] :=
  Yaml.Node.blocks_ne_nil

/-- What closes the text of a value. -/
def Value.ending (value : Value) : List Char :=
  if isPlainScalar (Yaml.Node.ofValue value) then ['.', '.', '.', '\n'] else []

/-- The text of a value consists of its blocks. -/
theorem textOf_eq (value : Value) :
    textOf value = blocksText value.blocks ++ '\n' :: value.ending := by
  have laidOut := layoutNode_eq (Yaml.Node.ofValue value) .whole (.margin 0)
  simp only [Role.head, Role.place, List.nil_append, Start.width_margin, List.length_nil]
    at laidOut
  rw [textOf, Value.blocks, ← laidOut, Value.ending]

end CloudGraph
