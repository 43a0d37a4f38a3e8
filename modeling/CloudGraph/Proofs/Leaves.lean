import CloudGraph.Proofs.Blocks

/-!
# The leaves of a value in its text

A leaf is a scalar that is a value, an item or the whole document, with its role. Every leaf of
a value has a block in the text of the value, and there is no block of a leaf besides:
`Value.mem_leaves_iff`. A shared part is written once, so its leaves have their blocks where it
occurs first, and the aliases that stand for it later have none.
-/

namespace CloudGraph

open Yaml

/-- A scalar that is no key, with what it is to the collection that it is a part of. -/
abbrev Leaf := Role × Atom

namespace Value

mutual

/-- The leaves of a value of a role, the contents of shared parts left out. -/
def leavesAs (role : Role) : Value → List Leaf
  | .atom scalar => [(role, scalar)]
  | .list items => itemLeaves items
  | .map entries => entryLeaves entries
  | .shared _ => []

/-- The leaves of the items of a list. -/
def itemLeaves : List Value → List Leaf
  | [] => []
  | item :: items => leavesAs .item item ++ itemLeaves items

/-- The leaves of the entries of a mapping. -/
def entryLeaves : List (Atom × Value) → List Leaf
  | [] => []
  | (key, value) :: entries => leavesAs (.ofKey key) value ++ entryLeaves entries

end

/-- The leaves of a value. -/
def leaves (value : Value) : List Leaf :=
  value.expand.leavesAs .whole

end Value

namespace Yaml

namespace Node

mutual

/-- The leaves that are written in the text of a node. -/
def leaves (role : Role) : Node → List Leaf
  | .scalar value => [(role, value)]
  | .list _ items => itemLeaves items
  | .map _ entries => entryLeaves entries
  | .alias _ => []

/-- The leaves that are written in the text of the items of a list. -/
def itemLeaves : List Node → List Leaf
  | [] => []
  | item :: items => leaves .item item ++ itemLeaves items

/-- The leaves that are written in the text of the entries of a mapping. -/
def entryLeaves : List (Atom × Node) → List Leaf
  | [] => []
  | (key, value) :: entries => leaves (.ofKey key) value ++ entryLeaves entries

end

@[simp]
theorem leaves_anchored (role : Role) (anchor : Nat) (node : Node) :
    (anchored anchor node).leaves role = node.leaves role := by
  cases node <;> simp [anchored, leaves]

end Node

/-- The leaf that a block is about. -/
def Block.leaf? : Block → Option Leaf
  | .leaf role _ scalar => some (role, scalar)
  | _ => none

section Blocks

variable {role : Role} {start : Start}

theorem filterMap_keyBlocks : (role.keyBlocks start).filterMap Block.leaf? = [] := by
  cases role <;> simp [Role.keyBlocks, Block.leaf?]

theorem filterMap_collection {anchor : Option Nat} {form : Form} {parts : List Block} :
    (role.collection start anchor form parts).filterMap Block.leaf? =
      parts.filterMap Block.leaf? := by
  unfold Role.collection
  split
  next empty => simp [List.isEmpty_iff.1 empty, Block.leaf?]
  next =>
    split
    · rfl
    · rfl

mutual

/-- The leaves that a node writes have a block each, in order. -/
theorem filterMap_blocks (role : Role) (start : Start) (node : Node) :
    (node.blocks role start).filterMap Block.leaf? = node.leaves role := by
  cases node with
  | scalar value => rfl
  | «alias» anchor => rfl
  | list anchor items =>
      rw [Node.blocks, Node.leaves, filterMap_collection]
      exact filterMap_itemBlocks _ items
  | map anchor entries =>
      rw [Node.blocks, Node.leaves, filterMap_collection]
      exact filterMap_entryBlocks _ entries

theorem filterMap_itemBlocks (start : Start) (items : List Node) :
    (Node.itemBlocks start items).filterMap Block.leaf? = Node.itemLeaves items := by
  cases items with
  | nil => rfl
  | cons item items =>
      rw [Node.itemBlocks, Node.itemLeaves, List.filterMap_append,
        filterMap_blocks .item start item, filterMap_itemBlocks (.margin start.width) items]

theorem filterMap_entryBlocks (start : Start) (entries : List (Atom × Node)) :
    (Node.entryBlocks start entries).filterMap Block.leaf? = Node.entryLeaves entries := by
  cases entries with
  | nil => rfl
  | cons entry entries =>
      obtain ⟨key, value⟩ := entry
      rw [Node.entryBlocks, Node.entryLeaves, List.filterMap_append, List.filterMap_append,
        filterMap_keyBlocks, filterMap_blocks (.ofKey key) start value,
        filterMap_entryBlocks (.margin start.width) entries, List.nil_append]

end

end Blocks

/-- The leaves of parts that were written before. -/
def Held (met : List Shared) (leaf : Leaf) : Prop :=
  ∃ part ∈ met, leaf ∈ part.value.leavesAs .whole

/-- A step of the construction of a node writes the wanted leaves, but for those of parts that
were written before; afterwards the parts that it wrote count as written. -/
structure Renders (before after : List Shared) (written wanted : List Leaf) : Prop where
  written_or_held : ∀ leaf, leaf ∈ written ∨ Held before leaf ↔ leaf ∈ wanted ∨ Held before leaf
  held_after : ∀ leaf, Held before leaf → Held after leaf
  held_before : ∀ leaf, Held after leaf → Held before leaf ∨ leaf ∈ written

namespace Renders

variable {before between after met : List Shared}
  {written written₁ written₂ wanted wanted₁ wanted₂ : List Leaf}

theorem refl : Renders met met written written where
  written_or_held _ := Iff.rfl
  held_after _ := id
  held_before _ := .inl

theorem append (first : Renders before between written₁ wanted₁)
    (second : Renders between after written₂ wanted₂) :
    Renders before after (written₁ ++ written₂) (wanted₁ ++ wanted₂) where
  written_or_held leaf := by
    have firstOr := first.written_or_held leaf
    have secondOr := second.written_or_held leaf
    have heldBetween := first.held_before leaf
    have heldAfter := first.held_after leaf
    simp only [List.mem_append]
    tauto
  held_after leaf held := second.held_after leaf (first.held_after leaf held)
  held_before leaf held := by
    have heldBetween := first.held_before leaf
    have heldAfter := second.held_before leaf held
    simp only [List.mem_append]
    tauto

end Renders

/-- A shared part is a collection, so the roles in it do not depend on its own role. -/
theorem leavesAs_content (role : Role) (part : Shared) :
    part.value.leavesAs role = part.value.leavesAs .whole := by
  cases part <;> rfl

theorem leaves_ofContent (role : Role) (part : Shared) :
    (Node.ofContent part).leaves role = part.value.leavesAs .whole := by
  cases part <;> rfl

/-- What the construction of a node does at a shared part. -/
theorem ofShared_eq (anchors met : List Shared) (part : Shared) :
    Node.ofShared anchors part met =
      match anchors.idxOf? part with
      | none => (Node.ofContent part, met)
      | some index =>
        if part ∈ met then (.alias (index + 1), met)
        else (Node.anchored (index + 1) (Node.ofContent part), part :: met) := by
  unfold Node.ofShared
  cases anchors.idxOf? part with
  | none => rfl
  | some index =>
      by_cases again : part ∈ met
      · have contains : met.contains part = true := by simpa using again
        simp only [again, if_true]
        change (if met.contains part then _ else _ : StateM (List Shared) Node) met = _
        rw [if_pos contains]
        rfl
      · have contains : met.contains part = false := by simpa using again
        simp only [again, if_false]
        change (if met.contains part then _ else _ : StateM (List Shared) Node) met = _
        rw [if_neg (by simp [again])]
        rfl

/-- An occurrence of a shared part is written out or stands for what was written. -/
theorem renders_ofShared (anchors met : List Shared) (role : Role) (part : Shared) :
    let result := Node.ofShared anchors part met
    Renders met result.2 (result.1.leaves role) (part.value.leavesAs role) := by
  have content := leaves_ofContent role part
  have partLeaves := leavesAs_content role part
  rw [ofShared_eq]
  cases anchors.idxOf? part with
  | none =>
      simp only [content, partLeaves]
      exact .refl
  | some index =>
      by_cases again : part ∈ met
      · simp only [again, if_true, Node.leaves, partLeaves]
        refine ⟨fun leaf => ?_, fun _ => id, fun _ => .inl⟩
        have held : leaf ∈ part.value.leavesAs .whole → Held met leaf := fun member =>
          ⟨part, again, member⟩
        simp only [List.not_mem_nil, false_or]
        tauto
      · simp only [again, if_false, Node.leaves_anchored, content, partLeaves]
        refine ⟨fun _ => Iff.rfl, fun leaf held => ?_, fun leaf held => ?_⟩
        · obtain ⟨other, member, inOther⟩ := held
          exact ⟨other, List.mem_cons_of_mem part member, inOther⟩
        · obtain ⟨other, member, inOther⟩ := held
          rcases List.mem_cons.1 member with rfl | member
          · exact .inr inOther
          · exact .inl ⟨other, member, inOther⟩

mutual

/-- The node of a value writes the leaves of the value. -/
theorem renders_build (anchors met : List Shared) (role : Role) (value : Value) :
    let result := Node.build (Node.ofShared anchors) value met
    Renders met result.2 (result.1.leaves role) (value.expand.leavesAs role) := by
  cases value with
  | atom scalar => exact .refl
  | list items => exact renders_buildItems anchors met items
  | map entries => exact renders_buildEntries anchors met entries
  | shared part => exact renders_ofShared anchors met role part

theorem renders_buildItems (anchors met : List Shared) (items : List Value) :
    let result := Node.buildItems (Node.ofShared anchors) items met
    Renders met result.2 (Node.itemLeaves result.1)
      (Value.itemLeaves (Value.expandItems items)) := by
  cases items with
  | nil => exact .refl
  | cons item items =>
      exact (renders_build anchors met .item item).append (renders_buildItems anchors _ items)

theorem renders_buildEntries (anchors met : List Shared) (entries : List (Atom × Value)) :
    let result := Node.buildEntries (Node.ofShared anchors) entries met
    Renders met result.2 (Node.entryLeaves result.1)
      (Value.entryLeaves (Value.expandEntries entries)) := by
  cases entries with
  | nil => exact .refl
  | cons entry entries =>
      obtain ⟨key, value⟩ := entry
      exact (renders_build anchors met (.ofKey key) value).append
        (renders_buildEntries anchors _ entries)

end

end Yaml

namespace Value

/-- The leaves of a value are those with a block in its text. -/
theorem mem_leaves_iff {value : Value} {role : Role} {scalar : Atom} :
    (role, scalar) ∈ value.leaves ↔ ∃ start, Block.leaf role start scalar ∈ value.blocks := by
  have rendered := (renders_build (anchors value) [] .whole value).written_or_held (role, scalar)
  have noneHeld : ¬ Held [] (role, scalar) := by
    rintro ⟨part, member, -⟩
    cases member
  simp only [noneHeld, or_false] at rendered
  rw [leaves, ← rendered, ← filterMap_blocks .whole (.margin 0), List.mem_filterMap]
  constructor
  · rintro ⟨block, member, isLeaf⟩
    cases block with
    | leaf _ start _ =>
        simp only [Block.leaf?, Option.some.injEq, Prod.mk.injEq] at isLeaf
        obtain ⟨rfl, rfl⟩ := isLeaf
        exact ⟨start, member⟩
    | above | brackets | again | key => cases isLeaf
  · rintro ⟨start, member⟩
    exact ⟨.leaf role start scalar, member, rfl⟩

end Value

end CloudGraph
