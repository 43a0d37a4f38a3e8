import CloudGraph.Build.Compile
import CloudGraph.Proofs.Entries

/-!
# Objects that are changed in place

A second account of what a plan does. A value is laid out as objects that refer to each other, each
collection an object of its own, a shared part one object however often it occurs. The edits of a
plan change these objects in place: `Heap.edit` follows a path of references from the root and
changes the object at its end, whoever else refers to it. `Heap.Shows` says that objects make up a
value and lists the objects that the value alone is made of. A value that is placed among some
objects is shown by new ones: `Heap.placed_value`.
-/

namespace CloudGraph

open Yaml (uses itemUses entryUses)

/-- A part of an object: a scalar, or a reference to another object. -/
inductive Slot where
  | scalar (value : Atom)
  | object (address : Nat)
  deriving DecidableEq

/-- A collection that can be changed in place. -/
inductive Object where
  | list (slots : List Slot)
  | map (entries : List (Atom × Slot))

/-- Objects at their addresses, and where the shared parts are that have been made so far. -/
structure Heap where
  objects : List Object
  parts : List (Shared × Slot)

/-- The objects that a slot refers to. -/
def Slot.targets : Slot → List Nat
  | .scalar _ => []
  | .object address => [address]

namespace Object

/-- The slots of an object, in order. -/
def slots : Object → List Slot
  | .list slots => slots
  | .map entries => entries.map (·.2)

/-- The slot of an object at a key. -/
def item (object : Object) (key : Atom) : Except Fault Slot :=
  match object with
  | .map entries =>
    match Entries.find? Atom.same entries key with
    | some found => .ok found
    | none => .error (.missingKey key)
  | .list slots =>
    match key.index? with
    | none => .error .wrongKind
    | some index =>
      match (position? slots.length index).bind (slots[·]?) with
      | some found => .ok found
      | none => .error .outOfRange

/-- The object with its slot at a key replaced. -/
def withItem (object : Object) (key : Atom) (slot : Slot) : Except Fault Object :=
  match object with
  | .map entries => .ok (.map (Entries.put Atom.same entries key slot))
  | .list slots =>
    match key.index? with
    | none => .error .wrongKind
    | some index =>
      match position? slots.length index with
      | some position => .ok (.list (slots.set position slot))
      | none => .error .outOfRange

/-- The object with a default for a key that is not there. -/
def withDefault (object : Object) (key : Atom) (slot : Slot) : Except Fault Object :=
  match object with
  | .map entries =>
    match Entries.find? Atom.same entries key with
    | some _ => .ok (.map entries)
    | none => .ok (.map (Entries.put Atom.same entries key slot))
  | .list _ => .error .noSuchOperation

/-- The list with a slot at its end. -/
def appended (object : Object) (slot : Slot) : Except Fault Object :=
  match object with
  | .list slots => .ok (.list (slots ++ [slot]))
  | .map _ => .error .noSuchOperation

/-- The list with a text at its end, unless it holds the text already. -/
def including (wanted : String) (object : Object) : Except Fault Object :=
  match object with
  | .list slots =>
    .ok (if .scalar (.text wanted) ∈ slots then object
      else .list (slots ++ [.scalar (.text wanted)]))
  | .map entries =>
    if entries.any fun entry => entry.1 == .text wanted then .ok object
    else .error .noSuchOperation

end Object

namespace Heap

/-- Where the object of a shared part is, if it has been made. -/
def part? (heap : Heap) (part : Shared) : Option Slot :=
  heap.parts.lookup part

/-- The objects that an object refers to, as often as it does. -/
def targets (heap : Heap) (address : Nat) : List Nat :=
  match heap.objects[address]? with
  | some object => object.slots.flatMap Slot.targets
  | none => []

/-- The objects that can be reached from a slot. -/
inductive Reaches (heap : Heap) (root : Slot) : Nat → Prop where
  | root {address} (here : address ∈ root.targets) : Reaches heap root address
  | next {holder address} (reached : Reaches heap root holder)
      (refers : address ∈ heap.targets holder) : Reaches heap root address

/-- Makes an object. -/
def make (object : Object) : StateM Heap Slot := fun heap =>
  (.object heap.objects.length, { heap with objects := heap.objects ++ [object] })

mutual

/-- Lays a value out as objects, given what is done at a shared part. -/
def placeWith (part : Shared → StateM Heap Slot) : Value → StateM Heap Slot
  | .atom scalar => pure (.scalar scalar)
  | .list items => do make (.list (← placeItems part items))
  | .map entries => do make (.map (← placeEntries part entries))
  | .shared shared => part shared

/-- Lays the items of a list out. -/
def placeItems (part : Shared → StateM Heap Slot) : List Value → StateM Heap (List Slot)
  | [] => pure []
  | item :: items => do
    let slot ← placeWith part item
    return slot :: (← placeItems part items)

/-- Lays the entries of a mapping out. -/
def placeEntries (part : Shared → StateM Heap Slot) :
    List (Atom × Value) → StateM Heap (List (Atom × Slot))
  | [] => pure []
  | (key, value) :: entries => do
    let slot ← placeWith part value
    return (key, slot) :: (← placeEntries part entries)

end

/-- The one object of a shared part, which is made when it is first needed. The content of a part
holds no shared part itself. -/
def placePart (part : Shared) : StateM Heap Slot := fun heap =>
  match heap.part? part with
  | some slot => (slot, heap)
  | none =>
    let (slot, placed) := placeWith (fun _ => pure (.scalar .null)) part.value heap
    (slot, { placed with parts := (part, slot) :: placed.parts })

/-- Lays a value out as new objects, its shared parts apart. -/
def place (value : Value) : StateM Heap Slot :=
  placeWith placePart value

/-- No objects. -/
def empty : Heap := ⟨[], []⟩

/-- The object that a slot refers to. -/
def objectOf (heap : Heap) : Slot → Except Fault Object
  | .scalar _ => .error .wrongKind
  | .object address =>
    match heap.objects[address]? with
    | some object => .ok object
    | none => .error .outOfRange

/-- The slot at the end of a path of references. -/
def follow (heap : Heap) (slot : Slot) : List Atom → Except Fault Slot
  | [] => .ok slot
  | key :: path => do
    let next ← (← heap.objectOf slot).item key
    heap.follow next path

/-- Changes the object that a slot refers to, in place. -/
def changing (heap : Heap) (change : Object → Except Fault Object) :
    Slot → Except Fault Heap
  | .scalar _ => .error .wrongKind
  | .object address => do
    let changed ← change (← heap.objectOf (.object address))
    return { heap with objects := heap.objects.set address changed }

/-- One edit of the document at a root, in place. -/
def edit (root : Slot) (heap : Heap) : Edit → Except Fault Heap
  | .note _ | .write .. | .provide .. => .ok heap
  | .assign path key value => do
    let (slot, heap) := place value heap
    heap.changing (·.withItem key slot) (← heap.follow root path)
  | .default path key value => do
    let (slot, heap) := place value heap
    heap.changing (·.withDefault key slot) (← heap.follow root path)
  | .append path item => do
    let (slot, heap) := place item heap
    heap.changing (·.appended slot) (← heap.follow root path)
  | .include path item => do
    heap.changing (·.including item) (← heap.follow root path)

/-- Edits in order, in place. -/
def editAll (root : Slot) (heap : Heap) (edits : List Edit) : Except Fault Heap :=
  edits.foldlM (edit root) heap

/- The addresses listed for a value are those of the objects that it is made of, shared parts
left out; an object that occurred in it twice would be listed twice. -/
mutual

/-- A slot shows a value. -/
inductive Shows (heap : Heap) : Value → Slot → List Nat → Prop where
  | atom (scalar : Atom) : Shows heap (.atom scalar) (.scalar scalar) []
  | list {items slots own address} (read : heap.objects[address]? = some (.list slots))
      (parts : ShowsItems heap items slots own) :
      Shows heap (.list items) (.object address) (address :: own)
  | map {entries slots own address} (read : heap.objects[address]? = some (.map slots))
      (parts : ShowsEntries heap entries slots own) :
      Shows heap (.map entries) (.object address) (address :: own)
  | shared {part slot} (known : heap.part? part = some slot) : Shows heap (.shared part) slot []

/-- Slots show the items of a list. -/
inductive ShowsItems (heap : Heap) : List Value → List Slot → List Nat → Prop where
  | nil : ShowsItems heap [] [] []
  | cons {item items slot slots own others} (first : Shows heap item slot own)
      (rest : ShowsItems heap items slots others) :
      ShowsItems heap (item :: items) (slot :: slots) (own ++ others)

/-- Slots show the entries of a mapping. -/
inductive ShowsEntries (heap : Heap) :
    List (Atom × Value) → List (Atom × Slot) → List Nat → Prop where
  | nil : ShowsEntries heap [] [] []
  | cons {key value entries slot slots own others} (first : Shows heap value slot own)
      (rest : ShowsEntries heap entries slots others) :
      ShowsEntries heap ((key, value) :: entries) ((key, slot) :: slots) (own ++ others)

end

/-- Every shared part that has been made shows its content. -/
def Keeps (heap : Heap) (kept : List Nat) : Prop :=
  heap.ShowsItems (heap.parts.map (·.1.value)) (heap.parts.map (·.2)) kept

/-- Some objects are in the next heap what they were, and the shared parts are where they were. -/
structure Agrees (heap next : Heap) (own : List Nat) : Prop where
  objects : ∀ address ∈ own, ∀ object, heap.objects[address]? = some object →
    next.objects[address]? = some object
  parts : ∀ part slot, heap.part? part = some slot → next.part? part = some slot

namespace Agrees

variable {heap next : Heap} {own others : List Nat}

theorem mono (agrees : heap.Agrees next own) (inside : ∀ address ∈ others, address ∈ own) :
    heap.Agrees next others :=
  ⟨fun address member => agrees.objects address (inside address member), agrees.parts⟩

theorem left (agrees : heap.Agrees next (own ++ others)) : heap.Agrees next own :=
  agrees.mono fun _ member => List.mem_append_left _ member

theorem right (agrees : heap.Agrees next (own ++ others)) : heap.Agrees next others :=
  agrees.mono fun _ member => List.mem_append_right _ member

theorem tail {address : Nat} (agrees : heap.Agrees next (address :: own)) : heap.Agrees next own :=
  agrees.mono fun _ member => List.mem_cons_of_mem _ member

end Agrees

section Frame

variable {heap next : Heap}

mutual

/-- What is shown only depends on the objects that it is made of. -/
theorem Shows.frame {value : Value} {slot : Slot} {own : List Nat}
    (shown : heap.Shows value slot own) (agrees : heap.Agrees next own) :
    next.Shows value slot own :=
  match shown with
  | .atom scalar => .atom scalar
  | .shared known => .shared (agrees.parts _ _ known)
  | .list read parts =>
    .list (agrees.objects _ List.mem_cons_self _ read) (ShowsItems.frame parts agrees.tail)
  | .map read parts =>
    .map (agrees.objects _ List.mem_cons_self _ read) (ShowsEntries.frame parts agrees.tail)

theorem ShowsItems.frame {items : List Value} {slots : List Slot} {own : List Nat}
    (shown : heap.ShowsItems items slots own) (agrees : heap.Agrees next own) :
    next.ShowsItems items slots own :=
  match shown with
  | .nil => .nil
  | .cons first rest => .cons (Shows.frame first agrees.left) (ShowsItems.frame rest agrees.right)

theorem ShowsEntries.frame {entries : List (Atom × Value)} {slots : List (Atom × Slot)}
    {own : List Nat} (shown : heap.ShowsEntries entries slots own)
    (agrees : heap.Agrees next own) : next.ShowsEntries entries slots own :=
  match shown with
  | .nil => .nil
  | .cons first rest =>
    .cons (Shows.frame first agrees.left) (ShowsEntries.frame rest agrees.right)

end

end Frame

/-- Shared parts are where they were, and those that have been made since are among the given
ones. -/
structure Advances (before after : Heap) (used : List Shared) : Prop where
  parts : ∀ part slot, before.part? part = some slot → after.part? part = some slot
  parts_of : ∀ part slot, after.part? part = some slot →
    before.part? part = some slot ∨ part ∈ used

namespace Advances

variable {before between after : Heap} {used usedFirst usedSecond : List Shared}

theorem refl (heap : Heap) : heap.Advances heap used :=
  ⟨fun _ _ => id, fun _ _ => .inl⟩

theorem trans (early : before.Advances between usedFirst)
    (late : between.Advances after usedSecond) :
    before.Advances after (usedFirst ++ usedSecond) where
  parts part slot known := late.parts part slot (early.parts part slot known)
  parts_of part slot known := by
    rw [List.mem_append, ← or_assoc]
    rcases late.parts_of part slot known with earlier | used
    · exact .inl (early.parts_of part slot earlier)
    · exact .inr used

end Advances

/-- More objects have been made at new addresses. Everything that was there is as it was. -/
structure Grows (before after : Heap) (made : List Nat) (used : List Shared) : Prop
    extends before.Advances after used where
  objects : before.objects <+: after.objects
  distinct : made.Nodup
  fresh : ∀ address ∈ made, before.objects.length ≤ address ∧ address < after.objects.length

namespace Grows

variable {before between after : Heap} {made first second : List Nat}
  {used usedFirst usedSecond : List Shared}

theorem refl (heap : Heap) : heap.Grows heap [] used :=
  ⟨.refl heap, List.prefix_rfl, List.nodup_nil, by simp⟩

theorem trans (early : before.Grows between first usedFirst)
    (late : between.Grows after second usedSecond) :
    before.Grows after (first ++ second) (usedFirst ++ usedSecond) where
  toAdvances := early.toAdvances.trans late.toAdvances
  objects := early.objects.trans late.objects
  distinct := by
    refine List.nodup_append.2 ⟨early.distinct, late.distinct, ?_⟩
    rintro address inFirst _ inSecond rfl
    have below := (early.fresh address inFirst).2
    have above := (late.fresh address inSecond).1
    omega
  fresh address member := by
    have grown := early.objects.length_le
    have grownMore := late.objects.length_le
    rcases List.mem_append.1 member with inFirst | inSecond
    · have bounds := early.fresh address inFirst
      omega
    · have bounds := late.fresh address inSecond
      omega

theorem perm (grows : before.Grows after first used) (same : first.Perm second) :
    before.Grows after second used where
  toAdvances := grows.toAdvances
  objects := grows.objects
  distinct := same.nodup_iff.1 grows.distinct
  fresh address member := grows.fresh address (same.mem_iff.2 member)

theorem agrees (grows : before.Grows after made used) (own : List Nat) : before.Agrees after own where
  objects address _ object read := by
    obtain ⟨more, grown⟩ := grows.objects
    rw [← grown, List.getElem?_append_left (List.getElem?_eq_some_iff.1 read).1, read]
  parts := grows.parts

theorem keeps (grows : before.Grows after made used) (same : after.parts = before.parts)
    {kept : List Nat} (keeps : before.Keeps kept) : after.Keeps kept := by
  unfold Keeps
  rw [same]
  exact ShowsItems.frame keeps (grows.agrees kept)

/-- An object more. -/
theorem make (heap : Heap) (object : Object) :
    heap.Grows (Heap.make object heap).2 [heap.objects.length] [] where
  toAdvances := ⟨fun _ _ => id, fun _ _ => .inl⟩
  objects := List.prefix_append _ _
  distinct := List.nodup_singleton _
  fresh address member := by
    obtain rfl := List.mem_singleton.1 member
    simp [Heap.make]

variable {own more others further : List Nat}

/-- An object that holds what has been made. -/
theorem enclose (grows : before.Grows after (own ++ more) used) (object : Object) :
    before.Grows (Heap.make object after).2 (after.objects.length :: own ++ more) used := by
  have whole := (grows.trans (make after object)).perm List.perm_append_comm
  rwa [List.append_nil] at whole

/-- Two values one after the other, each with the shared parts that were made for it. -/
theorem beside (early : before.Grows between (own ++ more) usedFirst)
    (late : between.Grows after (others ++ further) usedSecond) :
    before.Grows after (own ++ others ++ (further ++ more)) (usedFirst ++ usedSecond) := by
  refine (early.trans late).perm (List.perm_iff_count.2 fun address => ?_)
  simp only [List.count_append]
  omega

end Grows

/-- What is done at an occurrence of a shared part: its one object is there afterwards, with its
content. -/
def Provides (place : Shared → StateM Heap Slot) (part : Shared) : Prop :=
  ∀ heap kept, heap.Keeps kept → ∃ more,
    let result := place part heap
    result.2.part? part = some result.1 ∧ result.2.Keeps (more ++ kept) ∧
      heap.Grows result.2 more [part]

section Placing

variable {place : Shared → StateM Heap Slot}

mutual

/-- A value that is laid out is shown by new objects. -/
theorem placed_value (value : Value) (provides : ∀ part ∈ uses value, Provides place part)
    (heap : Heap) {kept : List Nat} (keeps : heap.Keeps kept) : ∃ own more,
      let result := placeWith place value heap
      result.2.Shows value result.1 own ∧ result.2.Keeps (more ++ kept) ∧
        heap.Grows result.2 (own ++ more) (uses value) := by
  cases value with
  | atom scalar => exact ⟨[], [], .atom scalar, keeps, .refl heap⟩
  | shared part =>
      obtain ⟨more, known, kept, grows⟩ := provides part (List.mem_singleton_self part) heap _ keeps
      exact ⟨[], more, .shared known, kept, grows⟩
  | list items =>
      obtain ⟨own, more, shown, kept, grows⟩ := placed_items items provides heap keeps
      have made := Grows.make (placeItems place items heap).2 (.list (placeItems place items heap).1)
      refine ⟨_, more, .list ?_ (shown.frame (made.agrees own)), made.keeps rfl kept,
        grows.enclose _⟩
      exact List.getElem?_concat_length
  | map entries =>
      obtain ⟨own, more, shown, kept, grows⟩ := placed_entries entries provides heap keeps
      have made := Grows.make (placeEntries place entries heap).2
        (.map (placeEntries place entries heap).1)
      refine ⟨_, more, .map ?_ (shown.frame (made.agrees own)), made.keeps rfl kept,
        grows.enclose _⟩
      exact List.getElem?_concat_length

theorem placed_items (items : List Value) (provides : ∀ part ∈ itemUses items, Provides place part)
    (heap : Heap) {kept : List Nat} (keeps : heap.Keeps kept) : ∃ own more,
      let result := placeItems place items heap
      result.2.ShowsItems items result.1 own ∧ result.2.Keeps (more ++ kept) ∧
        heap.Grows result.2 (own ++ more) (itemUses items) := by
  cases items with
  | nil => exact ⟨[], [], .nil, keeps, .refl heap⟩
  | cons item items =>
      rw [itemUses] at provides
      obtain ⟨own, more, first, kept, grows⟩ := placed_value item
        (fun part member => provides part (List.mem_append_left _ member)) heap keeps
      obtain ⟨others, further, rest, keptMore, growsMore⟩ := placed_items items
        (fun part member => provides part (List.mem_append_right _ member)) _ kept
      refine ⟨own ++ others, further ++ more, .cons (first.frame (growsMore.agrees own)) rest, ?_,
        grows.beside growsMore⟩
      rw [List.append_assoc]
      exact keptMore

theorem placed_entries (entries : List (Atom × Value))
    (provides : ∀ part ∈ entryUses entries, Provides place part) (heap : Heap) {kept : List Nat}
    (keeps : heap.Keeps kept) : ∃ own more,
      let result := placeEntries place entries heap
      result.2.ShowsEntries entries result.1 own ∧ result.2.Keeps (more ++ kept) ∧
        heap.Grows result.2 (own ++ more) (entryUses entries) := by
  cases entries with
  | nil => exact ⟨[], [], .nil, keeps, .refl heap⟩
  | cons entry entries =>
      obtain ⟨key, value⟩ := entry
      rw [entryUses] at provides
      obtain ⟨own, more, first, kept, grows⟩ := placed_value value
        (fun part member => provides part (List.mem_append_left _ member)) heap keeps
      obtain ⟨others, further, rest, keptMore, growsMore⟩ := placed_entries entries
        (fun part member => provides part (List.mem_append_right _ member)) _ kept
      refine ⟨own ++ others, further ++ more, .cons (first.frame (growsMore.agrees own)) rest, ?_,
        grows.beside growsMore⟩
      rw [List.append_assoc]
      exact keptMore

end

end Placing

/-- The content of a shared part holds no shared part. -/
theorem uses_content (part : Shared) : uses part.value = [] := by
  cases part <;> rfl

/-- A shared part is made once, and found again afterwards. -/
theorem provides_placePart (part : Shared) : Provides placePart part := by
  intro heap kept keeps
  cases known : heap.part? part with
  | some slot =>
      have found : placePart part heap = (slot, heap) := by simp [placePart, known]
      rw [found]
      exact ⟨[], known, keeps, .refl heap⟩
  | none =>
      have provides : ∀ inner ∈ uses part.value, Provides (fun _ => pure (.scalar .null)) inner := by
        simp [uses_content]
      obtain ⟨own, more, shown, kept, grows⟩ := placed_value part.value provides heap keeps
      rw [uses_content] at grows
      generalize laidOut : placeWith (fun _ => pure (.scalar .null)) part.value heap = result
        at shown kept grows
      obtain ⟨slot, placed⟩ := result
      have made : placePart part heap =
          (slot, { placed with parts := (part, slot) :: placed.parts }) := by
        simp [placePart, known, laidOut]
      rw [made]
      dsimp only at shown kept grows ⊢
      -- Laying the content out makes no shared part, so this one is not there yet.
      have unmade : placed.part? part = none := by
        rw [Option.eq_none_iff_forall_ne_some]
        intro other otherKnown
        rcases grows.parts_of part other otherKnown with before | used
        · rw [known] at before
          cases before
        · cases used
      have others : ∀ other slot', placed.part? other = some slot' →
          ((part, slot) :: placed.parts).lookup other = some slot' := by
        intro other slot' otherKnown
        have different : other ≠ part := by
          rintro rfl
          rw [unmade] at otherKnown
          cases otherKnown
        rw [List.lookup_cons, beq_false_of_ne different]
        exact otherKnown
      have agrees : ∀ addresses, placed.Agrees
          { placed with parts := (part, slot) :: placed.parts } addresses :=
        fun _ => ⟨fun _ _ _ read => read, others⟩
      refine ⟨own ++ more, by simp [part?], ?_, ⟨?_, ?_⟩, grows.objects, grows.distinct,
        grows.fresh⟩
      · rw [List.append_assoc]
        exact .cons (shown.frame (agrees own)) (ShowsItems.frame kept (agrees _))
      · exact fun other slot' before => others other slot' (grows.parts other slot' before)
      · intro other slot' after
        by_cases same : other = part
        · exact .inr (List.mem_singleton.2 same)
        · have earlier : placed.part? other = some slot' := by
            simpa [part?, List.lookup_cons, beq_false_of_ne same] using after
          exact .inl ((grows.parts_of other slot' earlier).resolve_right (by simp))

/-- A value that is placed is shown by new objects, and by those of the shared parts in it. -/
theorem placed (value : Value) (heap : Heap) {kept : List Nat} (keeps : heap.Keeps kept) :
    ∃ own more,
      let result := place value heap
      result.2.Shows value result.1 own ∧ result.2.Keeps (more ++ kept) ∧
        heap.Grows result.2 (own ++ more) (uses value) :=
  placed_value value (fun part _ => provides_placePart part) heap keeps

end Heap

end CloudGraph
