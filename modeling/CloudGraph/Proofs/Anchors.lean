import CloudGraph.Proofs.BlockLines
import CloudGraph.Proofs.Leaves
import CloudGraph.Yaml.Descriptor
import Mathlib.Data.List.Induction
import Mathlib.Data.List.Nodup

/-!
# Anchors and aliases

The anchors and aliases of a text are its marks, in order. `Node.marks_ofValue` says what they are
for the node of a value: among the occurrences of the anchored parts, the first of each is an anchor
and the others are aliases. The numbers are those of `anchors`, which counts the parts that occur
again in the order of their second occurrences: `anchors_eq`. `Node.value?_ofValue` reads a node back.
-/

namespace CloudGraph

/-- An occurrence: the first of its name, or a further one. -/
inductive Mark (α : Type) where
  | anchor (name : α)
  | alias (name : α)
  deriving DecidableEq

namespace Mark

variable {α : Type}

/-- The name of a first occurrence. -/
def anchor? : Mark α → Option α
  | .anchor name => some name
  | .alias _ => none

/-- The name of a further occurrence. -/
def alias? : Mark α → Option α
  | .anchor _ => none
  | .alias name => some name

end Mark

section Marks

variable {α : Type} [DecidableEq α]

/-- Names as occurrences, when some have occurred before. -/
def marksOf (met : List α) : List α → List (Mark α)
  | [] => []
  | name :: rest => (if name ∈ met then .alias name else .anchor name) :: marksOf (name :: met) rest

/-- The names that have occurred before, as often as they do. -/
def repeats (met names : List α) : List α :=
  (marksOf met names).filterMap Mark.alias?

variable {met other names : List α} {name : α}

@[simp]
theorem repeats_nil (met : List α) : repeats met [] = [] := rfl

@[simp]
theorem repeats_cons (met : List α) (name : α) (names : List α) :
    repeats met (name :: names) =
      (if name ∈ met then [name] else []) ++ repeats (name :: met) names := by
  rw [repeats, marksOf]
  split <;> rfl

theorem marksOf_congr (same : ∀ name, name ∈ met ↔ name ∈ other) (names : List α) :
    marksOf met names = marksOf other names := by
  induction names generalizing met other with
  | nil => rfl
  | cons name names ih =>
      simp only [marksOf, same name]
      exact congrArg _ (ih fun other => by simp [same other])

theorem marksOf_append (met first second : List α) :
    marksOf met (first ++ second) = marksOf met first ++ marksOf (first ++ met) second := by
  induction first generalizing met with
  | nil => rfl
  | cons name first ih =>
      rw [List.cons_append, marksOf, ih, marksOf, List.cons_append]
      exact congrArg (_ :: _ ++ ·) (marksOf_congr (fun other => List.perm_middle.mem_iff) second)

theorem repeats_congr (same : ∀ name, name ∈ met ↔ name ∈ other) (names : List α) :
    repeats met names = repeats other names := by
  rw [repeats, marksOf_congr same, repeats]

theorem repeats_append (met first second : List α) :
    repeats met (first ++ second) = repeats met first ++ repeats (first ++ met) second := by
  rw [repeats, marksOf_append, List.filterMap_append, repeats, repeats]

theorem mem_of_mem_repeats (again : name ∈ repeats met names) : name ∈ names := by
  induction names generalizing met with
  | nil => cases again
  | cons first names ih =>
      rw [repeats_cons] at again
      rcases List.mem_append.1 again with here | later
      · split at here
        next => exact List.mem_singleton.1 here ▸ List.mem_cons_self
        next => cases here
      · exact List.mem_cons_of_mem _ (ih later)

theorem count_filterMap_anchor? (marks : List (Mark α)) (name : α) :
    (marks.filterMap Mark.anchor?).count name = marks.count (.anchor name) := by
  induction marks with
  | nil => rfl
  | cons mark marks ih =>
      cases mark <;> simp only [List.filterMap_cons, Mark.anchor?] <;> simp [List.count_cons, ih]

/-- A name has one first occurrence, unless it has occurred before. -/
theorem count_anchor (met names : List α) (name : α) :
    (marksOf met names).count (.anchor name) = if name ∈ names ∧ name ∉ met then 1 else 0 := by
  induction names generalizing met with
  | nil => rfl
  | cons first names ih =>
      rw [marksOf, List.count_cons, ih]
      by_cases same : name = first
      · subst same
        by_cases held : name ∈ met <;> simp [held]
      · have different : first ≠ name := fun equal => same equal.symm
        by_cases held : first ∈ met <;> simp [held, same, different]

/-- A further occurrence comes after the first. -/
theorem anchor_before_alias {before after : List (Mark α)}
    (cut : marksOf met names = before ++ .alias name :: after) :
    name ∈ met ∨ .anchor name ∈ before := by
  induction names generalizing met before with
  | nil => simp [marksOf] at cut
  | cons first names ih =>
      rw [marksOf] at cut
      cases before with
      | nil =>
          have head := (List.cons.inj cut).1
          split at head
          next held =>
            obtain rfl := Mark.alias.inj head
            exact .inl held
          next => cases head
      | cons mark before =>
          obtain ⟨head, rest⟩ := List.cons.inj cut
          rcases ih rest with held | inBefore
          · rcases List.mem_cons.1 held with rfl | held
            · split at head
              next held => exact .inl held
              next => exact .inr (head ▸ List.mem_cons_self)
            · exact .inl held
          · exact .inr (List.mem_cons_of_mem _ inBefore)

theorem eraseDups_concat (items : List α) (item : α) : (items ++ [item]).eraseDups =
    if item ∈ items then items.eraseDups else items.eraseDups ++ [item] := by
  rw [List.eraseDups_append, List.removeAll]
  by_cases member : item ∈ items
  · simp [member]
  · simp [member, List.eraseDups_cons]

theorem nodup_eraseDups (items : List α) : items.eraseDups.Nodup := by
  induction items using List.reverseRecOn with
  | nil => exact List.nodup_nil
  | append_singleton items item ih =>
      rw [eraseDups_concat]
      split
      next => exact ih
      next absent =>
        refine List.nodup_append.2 ⟨ih, List.nodup_singleton item, ?_⟩
        rintro name member _ isItem rfl
        obtain rfl := List.mem_singleton.1 isItem
        exact absent (List.mem_eraseDups.1 member)

/-- Names that are different for different items keep the order of the first occurrences. -/
theorem eraseDups_map {β : Type} [DecidableEq β] {items : List α} {name : α → β}
    (injective : ∀ first ∈ items, ∀ second ∈ items, name first = name second → first = second) :
    (items.map name).eraseDups = items.eraseDups.map name := by
  induction items using List.reverseRecOn with
  | nil => rfl
  | append_singleton items item ih =>
      have earlier := ih fun first inFirst second inSecond =>
        injective first (List.mem_append_left _ inFirst) second (List.mem_append_left _ inSecond)
      have same : name item ∈ items.map name ↔ item ∈ items := by
        refine ⟨fun member => ?_, List.mem_map_of_mem⟩
        obtain ⟨held, inItems, equal⟩ := List.mem_map.1 member
        obtain rfl := injective held (List.mem_append_left _ inItems) item (by simp) equal
        exact inItems
      rw [List.map_append, List.map_singleton, eraseDups_concat, eraseDups_concat, earlier]
      simp only [same]
      split <;> simp

end Marks

namespace Yaml

theorem secondUses_eq (met found occurrences : List Shared) :
    secondUses met found occurrences =
      found ++ ((repeats met occurrences).filter (· ∉ found)).eraseDups := by
  induction occurrences generalizing met found with
  | nil => simp [secondUses]
  | cons part rest ih =>
      rw [secondUses, repeats_cons]
      by_cases again : part ∈ met
      · have same : repeats (part :: met) rest = repeats met rest :=
          repeats_congr (fun name => by by_cases equal : name = part <;> simp [equal, again]) rest
        by_cases listed : part ∈ found
        · simp [again, listed, ih]
        · simp [again, listed, ih, same, List.eraseDups_cons, List.filter_filter,
            Bool.beq_eq_decide_eq, Bool.and_comm]
      · simp [again, ih]

/-- The anchored parts are those that occur again, in the order in which they first do. -/
theorem anchors_eq (value : Value) : anchors value = (repeats [] (uses value)).eraseDups := by
  simp [anchors, secondUses_eq]

theorem nodup_anchors (value : Value) : (anchors value).Nodup :=
  anchors_eq value ▸ nodup_eraseDups _

theorem mem_anchors_iff {value : Value} {part : Shared} :
    part ∈ anchors value ↔ part ∈ repeats [] (uses value) := by
  rw [anchors_eq, List.mem_eraseDups]

/-- The numbers of the occurrences of anchored parts. -/
def numbered (anchors : List Shared) (occurrences : List Shared) : List Nat :=
  occurrences.filterMap fun part => (anchors.idxOf? part).map (· + 1)

theorem numbered_append (anchors first second : List Shared) :
    numbered anchors (first ++ second) = numbered anchors first ++ numbered anchors second :=
  List.filterMap_append

section

variable {anchors : List Shared} {part : Shared} {index : Nat}

theorem numbered_cons_of_none (unnumbered : anchors.idxOf? part = none) (rest : List Shared) :
    numbered anchors (part :: rest) = numbered anchors rest := by
  simp [numbered, unnumbered]

theorem numbered_cons_of_some (anchored : anchors.idxOf? part = some index) (rest : List Shared) :
    numbered anchors (part :: rest) = (index + 1) :: numbered anchors rest := by
  simp [numbered, anchored]

end

/-- A part has its number to itself. -/
theorem mem_numbered_iff {anchors occurrences : List Shared} {part : Shared} {index : Nat}
    (anchored : anchors.idxOf? part = some index) :
    index + 1 ∈ numbered anchors occurrences ↔ part ∈ occurrences := by
  rw [numbered, List.mem_filterMap]
  constructor
  · rintro ⟨other, member, numberEq⟩
    obtain ⟨_, isOther, same⟩ := Option.map_eq_some_iff.1 numberEq
    obtain rfl := Nat.succ.inj same
    obtain ⟨_, atOther, -⟩ := List.idxOf?_eq_some_iff.1 isOther
    obtain ⟨_, atPart, -⟩ := List.idxOf?_eq_some_iff.1 anchored
    exact (atPart.symm.trans atOther) ▸ member
  · exact fun member => ⟨part, member, by simp [anchored]⟩

namespace Node

mutual

/-- The anchors and aliases of a node, in the order of its text. -/
def marks : Node → List (Mark Nat)
  | .scalar _ => []
  | .alias anchor => [.alias anchor]
  | .list anchor items => (anchor.map Mark.anchor).toList ++ itemMarks items
  | .map anchor entries => (anchor.map Mark.anchor).toList ++ entryMarks entries

/-- The anchors and aliases of the items of a list. -/
def itemMarks : List Node → List (Mark Nat)
  | [] => []
  | item :: items => marks item ++ itemMarks items

/-- The anchors and aliases of the entries of a mapping. -/
def entryMarks : List (Atom × Node) → List (Mark Nat)
  | [] => []
  | (_, value) :: entries => marks value ++ entryMarks entries

end

theorem marks_ofContent (part : Shared) : (ofContent part).marks = [] := by
  cases part <;> rfl

theorem marks_anchored (anchor : Nat) (part : Shared) :
    (anchored anchor (ofContent part)).marks = [.anchor anchor] := by
  cases part <;> rfl

end Node

/-- The anchor or alias on the line of a block. -/
def Block.mark? : Block → Option (Mark Nat)
  | .above _ _ anchor | .brackets _ _ anchor _ => anchor.map Mark.anchor
  | .again _ _ anchor => some (.alias anchor)
  | .key .. | .leaf .. => none

/-- An anchor or an alias as it is written. -/
def markText : Mark Nat → List Char
  | .anchor number => '&' :: anchorName number
  | .alias number => '*' :: anchorName number

/-- The line of an anchor or an alias shows it. -/
theorem Block.unquoteTags_of_mark {block : Block} {mark : Mark Nat}
    (marked : block.mark? = some mark) :
    ∃ before after, unquoteTags block.text = before ++ markText mark ++ after := by
  have bare : block.scalar? = none := by
    cases block with
    | above | brackets | again => rfl
    | key | leaf => cases marked
  rw [unquoteTags_eq_self_iff.2 (Block.settled_of_scalar?_eq_none bare), Block.text, Block.written,
    bare, List.append_nil]
  cases block with
  | key | leaf => cases marked
  | again role start number =>
      cases marked
      exact ⟨role.head start ++ role.place.space, [], by simp [Block.lead, markText]⟩
  | above role start anchor =>
      obtain ⟨number, rfl, rfl⟩ := Option.map_eq_some_iff.1 marked
      exact ⟨role.head start ++ role.place.space, [], by
        simp [Block.lead, markText, Place.anchorText]⟩
  | brackets role start anchor form =>
      obtain ⟨number, rfl, rfl⟩ := Option.map_eq_some_iff.1 marked
      exact ⟨role.head start ++ role.place.space, ' ' :: form.brackets, by
        simp [Block.lead, markText, Place.anchorText]⟩

section Blocks

theorem filterMap_mark?_collection {role : Role} {start : Start} {anchor : Option Nat} {form : Form}
    {parts : List Block} :
    (role.collection start anchor form parts).filterMap Block.mark? =
      (anchor.map Mark.anchor).toList ++ parts.filterMap Block.mark? := by
  unfold Role.collection
  split
  next empty => cases anchor <;> simp [List.isEmpty_iff.1 empty, Block.mark?]
  next =>
    split
    next =>
      cases anchor with
      | none => exact List.filterMap_cons_none rfl
      | some anchor => exact List.filterMap_cons_some rfl
    next flat =>
      cases anchor with
      | none => rfl
      | some anchor => simp [Role.breaks] at flat

theorem filterMap_mark?_keyBlocks {role : Role} {start : Start} :
    (role.keyBlocks start).filterMap Block.mark? = [] := by
  cases role <;> simp [Role.keyBlocks, Block.mark?]

mutual

/-- The anchors and aliases of a node stand on lines of its text, in order. -/
theorem filterMap_mark? (role : Role) (start : Start) (node : Node) :
    (node.blocks role start).filterMap Block.mark? = node.marks := by
  cases node with
  | scalar value => rfl
  | «alias» anchor => rfl
  | list anchor items =>
      rw [Node.blocks, Node.marks, filterMap_mark?_collection, filterMap_mark?_items]
  | map anchor entries =>
      rw [Node.blocks, Node.marks, filterMap_mark?_collection, filterMap_mark?_entries]

theorem filterMap_mark?_items (start : Start) (items : List Node) :
    (Node.itemBlocks start items).filterMap Block.mark? = Node.itemMarks items := by
  cases items with
  | nil => rfl
  | cons item items =>
      rw [Node.itemBlocks, Node.itemMarks, List.filterMap_append, filterMap_mark? .item start item,
        filterMap_mark?_items (.margin start.width) items]

theorem filterMap_mark?_entries (start : Start) (entries : List (Atom × Node)) :
    (Node.entryBlocks start entries).filterMap Block.mark? = Node.entryMarks entries := by
  cases entries with
  | nil => rfl
  | cons entry entries =>
      obtain ⟨key, value⟩ := entry
      rw [Node.entryBlocks, Node.entryMarks, List.filterMap_append, List.filterMap_append,
        filterMap_mark?_keyBlocks, filterMap_mark? (.ofKey key) start value,
        filterMap_mark?_entries (.margin start.width) entries, List.nil_append]

end

end Blocks

/-- A step of the construction of a node writes the anchored parts among some occurrences. -/
structure Numbers (anchors before after : List Shared) (marks : List (Mark Nat))
    (occurrences : List Shared) : Prop where
  marks_eq : marks = marksOf (numbered anchors before) (numbered anchors occurrences)
  met : ∀ number, number ∈ numbered anchors after ↔
    number ∈ numbered anchors occurrences ∨ number ∈ numbered anchors before

namespace Numbers

variable {anchors before between after : List Shared} {marks first second : List (Mark Nat)}
  {occurrences others : List Shared}

theorem none (anchors before : List Shared) : Numbers anchors before before [] [] :=
  ⟨rfl, by simp [numbered]⟩

theorem append (early : Numbers anchors before between first occurrences)
    (late : Numbers anchors between after second others) :
    Numbers anchors before after (first ++ second) (occurrences ++ others) where
  marks_eq := by
    rw [numbered_append, marksOf_append, early.marks_eq, late.marks_eq]
    refine congrArg _ (marksOf_congr (fun number => ?_) _)
    rw [early.met number, List.mem_append]
  met number := by
    rw [late.met number, early.met number, numbered_append, List.mem_append]
    tauto

end Numbers

/-- An occurrence of a shared part. -/
theorem numbers_ofShared (anchors met : List Shared) (part : Shared) :
    let result := Node.ofShared anchors part met
    Numbers anchors met result.2 result.1.marks [part] := by
  rw [ofShared_eq]
  cases anchored : anchors.idxOf? part with
  | none => exact ⟨by simp [Node.marks_ofContent, numbered, anchored, marksOf],
      by simp [numbered, anchored]⟩
  | some index =>
      have one : numbered anchors [part] = [index + 1] := by simp [numbered, anchored]
      have known : index + 1 ∈ numbered anchors met ↔ part ∈ met := mem_numbered_iff anchored
      by_cases again : part ∈ met
      · simp only [again, if_true]
        have held := known.2 again
        refine ⟨by simp [Node.marks, one, marksOf, held], fun number => ?_⟩
        rw [one, List.mem_singleton]
        exact ⟨.inr, fun which => which.elim (· ▸ held) id⟩
      · simp only [again, if_false]
        have new : index + 1 ∉ numbered anchors met := fun held => again (known.1 held)
        refine ⟨by simp [Node.marks_anchored, one, marksOf, new], fun number => ?_⟩
        rw [← List.singleton_append, numbered_append, List.mem_append]

mutual

theorem numbers_build (anchors met : List Shared) (value : Value) :
    let result := Node.build (Node.ofShared anchors) value met
    Numbers anchors met result.2 result.1.marks (uses value) := by
  cases value with
  | atom scalar => exact .none anchors met
  | list items => exact numbers_buildItems anchors met items
  | map entries => exact numbers_buildEntries anchors met entries
  | shared part => exact numbers_ofShared anchors met part

theorem numbers_buildItems (anchors met : List Shared) (items : List Value) :
    let result := Node.buildItems (Node.ofShared anchors) items met
    Numbers anchors met result.2 (Node.itemMarks result.1) (itemUses items) := by
  cases items with
  | nil => exact .none anchors met
  | cons item items =>
      exact (numbers_build anchors met item).append (numbers_buildItems anchors _ items)

theorem numbers_buildEntries (anchors met : List Shared) (entries : List (Atom × Value)) :
    let result := Node.buildEntries (Node.ofShared anchors) entries met
    Numbers anchors met result.2 (Node.entryMarks result.1) (entryUses entries) := by
  cases entries with
  | nil => exact .none anchors met
  | cons entry entries =>
      exact (numbers_build anchors met entry.2).append (numbers_buildEntries anchors _ entries)

end

namespace Node

/-- The marks of the node of a value. -/
theorem marks_ofValue (value : Value) :
    (ofValue value).marks = marksOf [] (numbered (anchors value) (uses value)) :=
  (numbers_build (anchors value) [] value).marks_eq

end Node

section Numbering

variable {parts : List Shared}

/-- Numbering does not change what occurs again. -/
theorem repeats_numbered (parts met occurrences : List Shared) :
    repeats (numbered parts met) (numbered parts occurrences) =
      numbered parts (repeats met occurrences) := by
  induction occurrences generalizing met with
  | nil => rfl
  | cons part rest ih =>
      have tail := ih (part :: met)
      rw [repeats_cons, numbered_append, ← tail]
      cases anchored : parts.idxOf? part with
      | none =>
          have dropped : numbered parts (if part ∈ met then [part] else []) = [] := by
            split
            · exact numbered_cons_of_none anchored []
            · rfl
          rw [numbered_cons_of_none anchored, numbered_cons_of_none anchored, dropped,
            List.nil_append]
      | some index =>
          rw [numbered_cons_of_some anchored, numbered_cons_of_some anchored, repeats_cons]
          simp only [mem_numbered_iff anchored]
          split
          · rw [numbered_cons_of_some anchored]
            rfl
          · rfl

/-- The numbers of anchored parts are their positions, from one. -/
theorem numbered_eq_map {occurrences : List Shared} (all : ∀ part ∈ occurrences, part ∈ parts) :
    numbered parts occurrences = occurrences.map fun part => parts.idxOf part + 1 := by
  induction occurrences with
  | nil => rfl
  | cons part rest ih =>
      obtain ⟨member, later⟩ := List.forall_mem_cons.1 all
      have anchored : parts.idxOf? part = some (parts.idxOf part) := by
        cases found : parts.idxOf? part with
        | none => exact absurd member (List.idxOf?_eq_none_iff.1 found)
        | some index => rw [List.idxOf_eq_getD_idxOf?, found, Option.getD_some]
      rw [numbered_cons_of_some anchored, ih later, List.map_cons]

theorem map_idxOf_self (distinct : parts.Nodup) :
    (parts.map fun part => parts.idxOf part + 1) = List.range' 1 parts.length := by
  refine List.ext_getElem (by simp) fun index _ _ => ?_
  rw [List.getElem_map, distinct.idxOf_getElem, List.getElem_range']
  omega

/-- The numbers of the aliases are one, two and so on without gaps, in the order in which second
occurrences are met. -/
theorem eraseDups_aliases (value : Value) :
    ((Node.ofValue value).marks.filterMap Mark.alias?).eraseDups =
      List.range' 1 (anchors value).length := by
  have all : ∀ part ∈ repeats [] (uses value), part ∈ anchors value :=
    fun part => mem_anchors_iff.2
  calc ((Node.ofValue value).marks.filterMap Mark.alias?).eraseDups
    _ = (repeats (numbered (anchors value) []) (numbered (anchors value) (uses value))).eraseDups :=
      by rw [Node.marks_ofValue]; rfl
    _ = ((repeats [] (uses value)).map fun part => (anchors value).idxOf part + 1).eraseDups := by
      rw [repeats_numbered, numbered_eq_map all]
    _ = (anchors value).map fun part => (anchors value).idxOf part + 1 := by
      rw [eraseDups_map, ← anchors_eq]
      intro first inFirst second inSecond same
      exact (List.idxOf_inj (all first inFirst)).1 (Nat.succ.inj same)
    _ = List.range' 1 (anchors value).length := map_idxOf_self (nodup_anchors value)

/-- So are the numbers of the anchors, in some order. -/
theorem perm_anchors (value : Value) :
    ((Node.ofValue value).marks.filterMap Mark.anchor?).Perm
      (List.range' 1 (anchors value).length) := by
  have same : ∀ number, number ∈ numbered (anchors value) (uses value) ↔
      number ∈ List.range' 1 (anchors value).length := by
    intro number
    constructor
    · intro occurs
      obtain ⟨part, -, numberEq⟩ := List.mem_filterMap.1 occurs
      obtain ⟨index, anchored, rfl⟩ := Option.map_eq_some_iff.1 numberEq
      obtain ⟨inRange, -⟩ := List.idxOf?_eq_some_iff.1 anchored
      rw [List.mem_range'_1]
      omega
    · intro inRange
      rw [← eraseDups_aliases, List.mem_eraseDups, Node.marks_ofValue] at inRange
      exact mem_of_mem_repeats inRange
  rw [List.perm_iff_count]
  intro number
  rw [count_filterMap_anchor?, Node.marks_ofValue, count_anchor, (List.nodup_range' _).count]
  simp [same]

end Numbering

namespace Node

/-- The values of the anchors that were read before, by their numbers. -/
abbrev Known := List (Nat × Value)

/-- Remembers a value under its anchor, if it has one. -/
def noting (anchor : Option Nat) (value : Value) (known : Known) : Value × Known :=
  match anchor with
  | none => (value, known)
  | some number => (value, (number, value) :: known)

mutual

/-- Reads a node, with the value of its anchor for every alias. An alias of an anchor that does
not come before it cannot be read. -/
def read (known : Known) : Node → Option (Value × Known)
  | .scalar value => some (.atom value, known)
  | .alias anchor => (known.lookup anchor).map (·, known)
  | .list anchor items => do
    let (items, known) ← readItems known items
    return noting anchor (.list items) known
  | .map anchor entries => do
    let (entries, known) ← readEntries known entries
    return noting anchor (.map entries) known

/-- Reads the items of a list. -/
def readItems (known : Known) : List Node → Option (List Value × Known)
  | [] => some ([], known)
  | item :: items => do
    let (value, known) ← read known item
    let (values, known) ← readItems known items
    return (value :: values, known)

/-- Reads the entries of a mapping. -/
def readEntries (known : Known) : List (Atom × Node) → Option (List (Atom × Value) × Known)
  | [] => some ([], known)
  | (key, node) :: entries => do
    let (value, known) ← read known node
    let (entries, known) ← readEntries known entries
    return ((key, value) :: entries, known)

end

/-- The value of a node, with the value of its anchor for every alias. -/
def value? (node : Node) : Option Value :=
  (node.read []).map (·.1)

/-- What was written out before is known. -/
def Knows (anchors met : List Shared) (known : Known) : Prop :=
  ∀ part ∈ met, ∀ index, anchors.idxOf? part = some index →
    known.lookup (index + 1) = some part.value

theorem Knows.cons {anchors met : List Shared} {known : Known} {part : Shared} {index : Nat}
    (knows : Knows anchors met known) (anchored : anchors.idxOf? part = some index) :
    Knows anchors (part :: met) ((index + 1, part.value) :: known) := by
  intro other member position atPosition
  -- Two parts have one number only if they are one part.
  by_cases same : position = index
  · subst same
    obtain ⟨_, isOther, -⟩ := List.idxOf?_eq_some_iff.1 atPosition
    obtain ⟨_, isPart, -⟩ := List.idxOf?_eq_some_iff.1 anchored
    obtain rfl := isPart.symm.trans isOther
    simp
  · have different : other ≠ part := by
      rintro rfl
      exact same (Option.some.inj (atPosition.symm.trans anchored))
    have apart : (position + 1 == index + 1) = false := by simpa using same
    rw [List.lookup_cons, apart]
    exact knows other ((List.mem_cons.1 member).resolve_left different) position atPosition

theorem read_ofContent (known : Known) (part : Shared) :
    (ofContent part).read known = some (part.value, known) := by
  cases part <;> rfl

theorem read_anchored (known : Known) (number : Nat) (part : Shared) :
    (anchored number (ofContent part)).read known =
      some (part.value, (number, part.value) :: known) := by
  cases part <;> rfl

section

variable {anchors : List Shared}

theorem read_ofShared {met : List Shared} {known : Known} (knows : Knows anchors met known)
    (part : Shared) :
    let result := ofShared anchors part met
    ∃ knownNext, result.1.read known = some (part.value, knownNext) ∧
      Knows anchors result.2 knownNext := by
  rw [ofShared_eq]
  cases numbered : anchors.idxOf? part with
  | none => exact ⟨known, read_ofContent known part, knows⟩
  | some index =>
      by_cases again : part ∈ met
      · simp only [again, if_true]
        exact ⟨known, by rw [read, knows part again index numbered, Option.map_some], knows⟩
      · simp only [again, if_false]
        exact ⟨_, read_anchored known (index + 1) part, knows.cons numbered⟩

mutual

/-- The node of a value is read as the value. -/
theorem read_build {met : List Shared} {known : Known} (knows : Knows anchors met known)
    (value : Value) :
    let result := build (ofShared anchors) value met
    ∃ knownNext, result.1.read known = some (value.expand, knownNext) ∧
      Knows anchors result.2 knownNext := by
  cases value with
  | atom scalar => exact ⟨known, rfl, knows⟩
  | shared part => exact read_ofShared knows part
  | list items =>
      obtain ⟨knownNext, parts, knowsNext⟩ := read_buildItems knows items
      refine ⟨knownNext, ?_, knowsNext⟩
      change read known (.list none (buildItems (ofShared anchors) items met).1) = _
      simp [read, parts, noting, Value.expand]
  | map entries =>
      obtain ⟨knownNext, parts, knowsNext⟩ := read_buildEntries knows entries
      refine ⟨knownNext, ?_, knowsNext⟩
      change read known (.map none (buildEntries (ofShared anchors) entries met).1) = _
      simp [read, parts, noting, Value.expand]

theorem read_buildItems {met : List Shared} {known : Known} (knows : Knows anchors met known)
    (items : List Value) :
    let result := buildItems (ofShared anchors) items met
    ∃ knownNext, readItems known result.1 = some (Value.expandItems items, knownNext) ∧
      Knows anchors result.2 knownNext := by
  cases items with
  | nil => exact ⟨known, rfl, knows⟩
  | cons item items =>
      obtain ⟨knownFirst, first, knowsFirst⟩ := read_build knows item
      obtain ⟨knownNext, rest, knowsNext⟩ := read_buildItems knowsFirst items
      refine ⟨knownNext, ?_, knowsNext⟩
      change readItems known ((build (ofShared anchors) item met).1 :: _) = _
      simp only [readItems, first, Value.expandItems]
      exact congrArg (· >>= _) rest

theorem read_buildEntries {met : List Shared} {known : Known} (knows : Knows anchors met known)
    (entries : List (Atom × Value)) :
    let result := buildEntries (ofShared anchors) entries met
    ∃ knownNext, readEntries known result.1 = some (Value.expandEntries entries, knownNext) ∧
      Knows anchors result.2 knownNext := by
  cases entries with
  | nil => exact ⟨known, rfl, knows⟩
  | cons entry entries =>
      obtain ⟨key, value⟩ := entry
      obtain ⟨knownFirst, first, knowsFirst⟩ := read_build knows value
      obtain ⟨knownNext, rest, knowsNext⟩ := read_buildEntries knowsFirst entries
      refine ⟨knownNext, ?_, knowsNext⟩
      change readEntries known ((key, (build (ofShared anchors) value met).1) :: _) = _
      simp only [readEntries, first, Value.expandEntries]
      exact congrArg (· >>= _) rest

end

end

/-- Replacing every alias by the value of its anchor gives back the value. -/
theorem value?_ofValue (value : Value) : (ofValue value).value? = some value.expand := by
  have none : Knows (anchors value) [] [] := fun part member => nomatch member
  obtain ⟨known, readBack, -⟩ := read_build none value
  rw [value?, ofValue, readBack, Option.map_some]

end Node

end Yaml

/-- The anchors and aliases of the text of a value, in order. -/
def Value.marks (value : Value) : List (Mark Nat) :=
  value.blocks.filterMap Yaml.Block.mark?

namespace Yaml

/-- The anchors and aliases in the text of a value. -/
structure Anchors (value : Value) (text : List Char) : Prop where
  /-- The text consists of the blocks of the value, each with the quotes of its tags taken off. -/
  text_eq : text =
    Text.joinWith ['\n'] (value.blocks.map fun block => unquoteTags block.text) ++
      '\n' :: value.ending
  /-- Anchors and aliases stand on the lines of the blocks that have them. -/
  shown : ∀ (block : Block) (mark : Mark Nat), block.mark? = some mark →
    ∃ before after, unquoteTags block.text = before ++ markText mark ++ after
  /-- An alias comes after the one anchor of its number. -/
  preceded : ∀ before after number, value.marks = before ++ .alias number :: after →
    .anchor number ∈ before ∧ value.marks.count (.anchor number) = 1
  /-- The numbers are one, two and so on, in the order in which second uses are met. -/
  numbers : ∃ last, (value.marks.filterMap Mark.alias?).eraseDups = List.range' 1 last ∧
    (value.marks.filterMap Mark.anchor?).Perm (List.range' 1 last)
  /-- Replacing every alias by the value of its anchor gives back the value. -/
  read : (Node.ofValue value).value? = some value.expand

/-- Taking quotes off a text is done block by block. -/
theorem unquoteTags_textOf (value : Value) :
    unquoteTags (textOf value) =
      Text.joinWith ['\n'] (value.blocks.map fun block => unquoteTags block.text) ++
        '\n' :: value.ending := by
  have ending : unquoteTags value.ending = value.ending := by
    unfold Value.ending
    split <;> rfl
  rw [textOf_eq, unquoteTags_append_cons, ending, blocksText,
    unquoteTags_joinWith (by simpa using value.blocks_ne_nil), List.map_map]
  rfl

/-- The anchors and aliases of a descriptor are those of its value. -/
theorem descriptorText_anchors {value : Value} {text : String}
    (written : descriptorText value = .ok text) : Anchors value text.toList := by
  have text_eq : text = String.ofList (unquoteTags (textOf value)) := by
    unfold descriptorText at written
    split at written
    next => exact (Except.ok.inj written).symm
    next => cases written
  have marks_eq : value.marks = marksOf [] (numbered (anchors value) (uses value)) := by
    rw [Value.marks, Value.blocks, filterMap_mark?, Node.marks_ofValue]
  have aliases := eraseDups_aliases value
  have anchors := perm_anchors value
  rw [Node.marks_ofValue, ← marks_eq] at aliases anchors
  refine ⟨?_, fun _ _ => Block.unquoteTags_of_mark, ?_, ⟨_, aliases, anchors⟩,
    Node.value?_ofValue value⟩
  · rw [text_eq, String.toList_ofList, unquoteTags_textOf]
  · intro before after number cut
    have first : .anchor number ∈ before :=
      (anchor_before_alias (marks_eq.symm.trans cut)).resolve_left List.not_mem_nil
    refine ⟨first, Nat.le_antisymm ?_ ?_⟩
    · rw [marks_eq, count_anchor]
      split <;> simp
    · rw [cut]
      exact List.count_pos_iff.2 (List.mem_append_left _ first)

end Yaml

end CloudGraph
