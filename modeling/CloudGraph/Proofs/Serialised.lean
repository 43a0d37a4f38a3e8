import CloudGraph.Proofs.Anchors
import CloudGraph.Proofs.Sharing

/-!
# Writing objects out

Objects are written out where they are met first, and as an alias where they are met again. The
ones that are met again have anchors, with numbers in the order in which they are met a second time.
`Heap.Presents.writtenAs` says that this makes the node of the document from the objects that
present it: what is one object there is one shared part here.
-/

namespace CloudGraph

open Yaml (uses itemUses entryUses anchors)

namespace Heap

mutual

/-- What is written for a slot after some objects have been met, given the objects with an anchor
in the order of their numbers. The objects that are met on the way are listed, as often as they
are. -/
inductive Writes (heap : Heap) (anchored : List Nat) :
    List Nat → Slot → Yaml.Node → List Nat → Prop where
  | scalar {met} (value : Atom) : Writes heap anchored met (.scalar value) (.scalar value) []
  | again {met address index} (known : address ∈ met)
      (isAnchored : anchored.idxOf? address = some index) :
      Writes heap anchored met (.object address) (.alias (index + 1)) [address]
  | list {met address slots items order} (new : address ∉ met)
      (read : heap.objects[address]? = some (.list slots))
      (parts : WritesItems heap anchored (address :: met) slots items order) :
      Writes heap anchored met (.object address)
        (.list ((anchored.idxOf? address).map (· + 1)) items) (address :: order)
  | map {met address slots entries order} (new : address ∉ met)
      (read : heap.objects[address]? = some (.map slots))
      (parts : WritesEntries heap anchored (address :: met) slots entries order) :
      Writes heap anchored met (.object address)
        (.map ((anchored.idxOf? address).map (· + 1)) entries) (address :: order)

/-- What is written for the items of a list. -/
inductive WritesItems (heap : Heap) (anchored : List Nat) :
    List Nat → List Slot → List Yaml.Node → List Nat → Prop where
  | nil {met} : WritesItems heap anchored met [] [] []
  | cons {met slot slots item items order others} (first : Writes heap anchored met slot item order)
      (rest : WritesItems heap anchored (order ++ met) slots items others) :
      WritesItems heap anchored met (slot :: slots) (item :: items) (order ++ others)

/-- What is written for the entries of a mapping. -/
inductive WritesEntries (heap : Heap) (anchored : List Nat) :
    List Nat → List (Atom × Slot) → List (Atom × Yaml.Node) → List Nat → Prop where
  | nil {met} : WritesEntries heap anchored met [] [] []
  | cons {met key slot slots value entries order others}
      (first : Writes heap anchored met slot value order)
      (rest : WritesEntries heap anchored (order ++ met) slots entries others) :
      WritesEntries heap anchored met ((key, slot) :: slots) ((key, value) :: entries)
        (order ++ others)

end

/-- What is written for the objects at a root: those that are met again are anchored, in the order
in which they are met a second time. -/
def WrittenAs (heap : Heap) (root : Slot) (node : Yaml.Node) : Prop :=
  ∃ order, heap.Writes (repeats [] order).eraseDups [] root node order

section

variable {heap : Heap}

mutual

/-- The shared parts of a value that is shown have been made. -/
theorem Shows.made {value : Value} {slot : Slot} {own : List Nat} (shown : heap.Shows value slot own) :
    ∀ part ∈ uses value, ∃ slot, heap.part? part = some slot :=
  match shown with
  | .atom _ => fun _ used => nomatch used
  | .shared known => fun _ used => List.mem_singleton.1 used ▸ ⟨_, known⟩
  | .list _ parts => ShowsItems.made parts
  | .map _ parts => ShowsEntries.made parts

theorem ShowsItems.made {items : List Value} {slots : List Slot} {own : List Nat}
    (shown : heap.ShowsItems items slots own) :
    ∀ part ∈ itemUses items, ∃ slot, heap.part? part = some slot :=
  match shown with
  | .nil => fun _ used => nomatch used
  | .cons first rest => fun part used =>
    (List.mem_append.1 used).elim (Shows.made first part) (ShowsItems.made rest part)

theorem ShowsEntries.made {entries : List (Atom × Value)} {slots : List (Atom × Slot)}
    {own : List Nat} (shown : heap.ShowsEntries entries slots own) :
    ∀ part ∈ entryUses entries, ∃ slot, heap.part? part = some slot :=
  match shown with
  | .nil => fun _ used => nomatch used
  | .cons first rest => fun part used =>
    (List.mem_append.1 used).elim (Shows.made first part) (ShowsEntries.made rest part)

end

variable {kept : List Nat}

mutual

/-- What shows a value with shared parts shows the value with their contents. -/
theorem Shows.expand {value : Value} {slot : Slot} {own : List Nat}
    (shown : heap.Shows value slot own) (keeps : heap.Keeps kept) :
    ∃ all, heap.Shows value.expand slot all := by
  cases shown with
  | atom scalar => exact ⟨[], .atom scalar⟩
  | shared known =>
      obtain ⟨_, inner, _, -, content⟩ := keeps.shows known
      exact ⟨inner, content⟩
  | list read parts =>
      obtain ⟨all, expanded⟩ := ShowsItems.expand parts keeps
      exact ⟨_, .list read expanded⟩
  | map read parts =>
      obtain ⟨all, expanded⟩ := ShowsEntries.expand parts keeps
      exact ⟨_, .map read expanded⟩

theorem ShowsItems.expand {items : List Value} {slots : List Slot} {own : List Nat}
    (shown : heap.ShowsItems items slots own) (keeps : heap.Keeps kept) :
    ∃ all, heap.ShowsItems (Value.expandItems items) slots all := by
  cases shown with
  | nil => exact ⟨[], .nil⟩
  | cons first rest =>
      obtain ⟨own, head⟩ := Shows.expand first keeps
      obtain ⟨others, tail⟩ := ShowsItems.expand rest keeps
      exact ⟨own ++ others, .cons head tail⟩

theorem ShowsEntries.expand {entries : List (Atom × Value)} {slots : List (Atom × Slot)}
    {own : List Nat} (shown : heap.ShowsEntries entries slots own) (keeps : heap.Keeps kept) :
    ∃ all, heap.ShowsEntries (Value.expandEntries entries) slots all := by
  cases shown with
  | nil => exact ⟨[], .nil⟩
  | cons first rest =>
      obtain ⟨own, head⟩ := Shows.expand first keeps
      obtain ⟨others, tail⟩ := ShowsEntries.expand rest keeps
      exact ⟨own ++ others, .cons head tail⟩

end

end

/-- Where the object of a shared part is. -/
def home (heap : Heap) (part : Shared) : Nat :=
  match heap.part? part with
  | some (.object address) => address
  | _ => 0

/-- The objects that each shared part is made of. -/
structure Contents (heap : Heap) (kept : List Nat) (content : Shared → List Nat) : Prop where
  shows : ∀ part slot, heap.part? part = some slot → heap.Shows part.value slot (content part)
  inside : ∀ part, content part ⊆ kept
  distinct : ∀ part, (content part).Nodup
  apart : ∀ first second, first ≠ second → (content first).Disjoint (content second)

/-- Parts that are shown one after the other by objects of their own have contents apart. -/
theorem exists_contents {heap : Heap} {parts : List (Shared × Slot)} {kept : List Nat}
    (distinct : kept.Nodup)
    (shown : heap.ShowsItems (parts.map (·.1.value)) (parts.map (·.2)) kept) :
    ∃ content : Shared → List Nat,
      (∀ part slot, parts.lookup part = some slot → heap.Shows part.value slot (content part)) ∧
      (∀ part, content part ⊆ kept) ∧ (∀ part, (content part).Nodup) ∧
      ∀ first second, first ≠ second → (content first).Disjoint (content second) := by
  induction parts generalizing kept with
  | nil => exact ⟨fun _ => [], by simp, by simp, by simp, by simp⟩
  | cons entry parts ih =>
      cases shown with
      | @cons _ _ _ _ own others first rest =>
          obtain ⟨ownDistinct, othersDistinct, disjoint⟩ := List.nodup_append'.1 distinct
          obtain ⟨content, shows, inside, nodup, apart⟩ := ih othersDistinct rest
          refine ⟨fun part => if part = entry.1 then own else content part, ?_, ?_, ?_, ?_⟩
          · intro part slot known
            rw [List.lookup_cons] at known
            by_cases same : part = entry.1
            · subst same
              simp only [BEq.rfl, Option.some.injEq] at known
              simpa [known] using first
            · rw [beq_false_of_ne same] at known
              simpa [same] using shows part slot known
          · intro part
            dsimp only
            split
            exacts [List.subset_append_left own others,
              List.Subset.trans (inside part) (List.subset_append_right own others)]
          · intro part
            dsimp only
            split
            exacts [ownDistinct, nodup part]
          · intro first second different address inFirst inSecond
            dsimp only at inFirst inSecond
            split at inFirst <;> split at inSecond
            next isFirst isSecond => exact different (isFirst.trans isSecond.symm)
            next => exact disjoint inFirst (inside second inSecond)
            next => exact disjoint inSecond (inside first inFirst)
            next => exact apart first second different inFirst inSecond

theorem Keeps.contents {heap : Heap} {kept : List Nat} (keeps : heap.Keeps kept)
    (distinct : kept.Nodup) : ∃ content, heap.Contents kept content := by
  obtain ⟨content, shows, inside, nodup, apart⟩ := exists_contents distinct keeps
  exact ⟨content, shows, inside, nodup, apart⟩

section Writing

variable {content : Shared → List Nat} {parts seen written : List Shared} {met own : List Nat}

/-- What has been met when some parts have been seen: all objects of these, and none of the other
parts. Those that have an anchor count as written out. -/
structure Writing (content : Shared → List Nat) (parts seen : List Shared) (met : List Nat)
    (written : List Shared) : Prop where
  written_iff : ∀ part, part ∈ written ↔ part ∈ seen ∧ part ∈ parts
  met_of_seen : ∀ part ∈ seen, content part ⊆ met
  unmet : ∀ part, part ∉ seen → (content part).Disjoint met

/-- Objects that are not met before a value is written that they make up. -/
structure Fresh (content : Shared → List Nat) (anchored : List Nat) (seen : List Shared)
    (met own : List Nat) : Prop where
  distinct : own.Nodup
  unmet : ∀ address ∈ own, address ∉ met
  plain : ∀ address ∈ own, address ∉ anchored
  outside : ∀ part, part ∉ seen → (content part).Disjoint own

/-- What is met while a value is written, given its shared parts and the objects that it alone is
made of: the same is met again as parts are seen again. -/
structure Meets (heap : Heap) (content : Shared → List Nat) (parts seen : List Shared)
    (met : List Nat) (used : List Shared) (own order : List Nat) (written : List Shared) :
    Prop where
  writing : Writing content parts (used ++ seen) (order ++ met) written
  again : repeats met order = (repeats seen used).map heap.home
  covers : own ⊆ order
  inside : ∀ address ∈ order, address ∈ own ∨ ∃ part ∈ used, address ∈ content part

namespace Writing

theorem congr {seenNext : List Shared} {metNext : List Nat}
    (writing : Writing content parts seen met written)
    (sameSeen : ∀ part, part ∈ seen ↔ part ∈ seenNext)
    (sameMet : ∀ address, address ∈ met ↔ address ∈ metNext) :
    Writing content parts seenNext metNext written where
  written_iff part := by rw [writing.written_iff, sameSeen]
  met_of_seen part member address inside :=
    (sameMet address).1 (writing.met_of_seen part ((sameSeen part).2 member) inside)
  unmet part absent address inside inMet :=
    writing.unmet part (fun member => absent ((sameSeen part).1 member)) inside
      ((sameMet address).2 inMet)

/-- Meeting an object of the value itself. -/
theorem enter {address : Nat} {anchored : List Nat}
    (writing : Writing content parts seen met written)
    (fresh : Fresh content anchored seen met (address :: own)) :
    Writing content parts seen (address :: met) written where
  written_iff := writing.written_iff
  met_of_seen part member :=
    List.Subset.trans (writing.met_of_seen part member) (List.subset_cons_self _ _)
  unmet part absent := by
    refine List.disjoint_cons_right.2 ⟨fun inside => ?_, writing.unmet part absent⟩
    exact fresh.outside part absent inside List.mem_cons_self

end Writing

namespace Fresh

variable {anchored others : List Nat}

theorem enter {address : Nat} (fresh : Fresh content anchored seen met (address :: own)) :
    Fresh content anchored seen (address :: met) own where
  distinct := fresh.distinct.of_cons
  unmet other member inMet := by
    rcases List.mem_cons.1 inMet with rfl | inMet
    · exact (List.nodup_cons.1 fresh.distinct).1 member
    · exact fresh.unmet other (List.mem_cons_of_mem _ member) inMet
  plain other member := fresh.plain other (List.mem_cons_of_mem _ member)
  outside part absent := (List.disjoint_cons_right.1 (fresh.outside part absent)).2

theorem left (fresh : Fresh content anchored seen met (own ++ others)) :
    Fresh content anchored seen met own where
  distinct := fresh.distinct.of_append_left
  unmet address member := fresh.unmet address (List.mem_append_left _ member)
  plain address member := fresh.plain address (List.mem_append_left _ member)
  outside part absent := (List.disjoint_append_right.1 (fresh.outside part absent)).1

/-- What comes later is still not met after what comes first. -/
theorem right {heap : Heap} {used : List Shared} {order : List Nat} {writtenNext : List Shared}
    (fresh : Fresh content anchored seen met (own ++ others))
    (writing : Writing content parts seen met written)
    (meets : heap.Meets content parts seen met used own order writtenNext) :
    Fresh content anchored (used ++ seen) (order ++ met) others where
  distinct := fresh.distinct.of_append_right
  unmet address member inMet := by
    have inBoth := List.mem_append_right own member
    rcases List.mem_append.1 inMet with inOrder | inMet
    · rcases meets.inside address inOrder with inOwn | ⟨part, -, inPart⟩
      · exact List.disjoint_of_nodup_append fresh.distinct inOwn member
      · by_cases before : part ∈ seen
        · exact fresh.unmet address inBoth (writing.met_of_seen part before inPart)
        · exact fresh.outside part before inPart inBoth
    · exact fresh.unmet address inBoth inMet
  plain address member := fresh.plain address (List.mem_append_right _ member)
  outside part absent := by
    have unseen : part ∉ seen := fun member => absent (List.mem_append_right _ member)
    exact (List.disjoint_append_right.1 (fresh.outside part unseen)).2

end Fresh

namespace Meets

variable {heap : Heap} {used others : List Shared} {order : List Nat} {writtenNext : List Shared}

theorem none (writing : Writing content parts seen met written) :
    heap.Meets content parts seen met [] [] [] written :=
  ⟨writing, rfl, List.Subset.refl [], fun _ member => nomatch member⟩

/-- Meeting the object that holds the others. -/
theorem enter {address : Nat} (new : address ∉ met)
    (meets : heap.Meets content parts seen (address :: met) used own order written) :
    heap.Meets content parts seen met used (address :: own) (address :: order) written where
  writing := meets.writing.congr (fun _ => Iff.rfl) fun _ => List.perm_middle.mem_iff
  again := by
    rw [repeats_cons, if_neg new, List.nil_append, meets.again]
  covers := List.cons_subset_cons address meets.covers
  inside other member := by
    rcases List.mem_cons.1 member with rfl | member
    · exact .inl List.mem_cons_self
    · exact (meets.inside other member).imp_left (List.mem_cons_of_mem _)

/-- Without shared parts exactly the objects of the value are met, and each once. -/
theorem once (meets : heap.Meets content parts seen met [] own order written) :
    repeats met order = [] ∧ own ⊆ order ∧ order ⊆ own :=
  ⟨meets.again, meets.covers, fun address member =>
    (meets.inside address member).resolve_right fun ⟨_, used, _⟩ => nomatch used⟩

theorem append {ownNext orderNext : List Nat}
    (first : heap.Meets content parts seen met used own order written)
    (rest : heap.Meets content parts (used ++ seen) (order ++ met) others ownNext orderNext
      writtenNext) :
    heap.Meets content parts seen met (used ++ others) (own ++ ownNext) (order ++ orderNext)
      writtenNext where
  writing := rest.writing.congr (fun _ => by simp [or_left_comm]) fun _ => by
    simp [or_left_comm]
  again := by rw [repeats_append, repeats_append, first.again, rest.again, List.map_append]
  covers := List.append_subset.2
    ⟨List.Subset.trans first.covers (List.subset_append_left _ _),
      List.Subset.trans rest.covers (List.subset_append_right _ _)⟩
  inside address member := by
    simp only [List.mem_append]
    rcases List.mem_append.1 member with inFirst | inRest
    · rcases first.inside address inFirst with inOwn | ⟨part, inUsed, inPart⟩
      exacts [.inl (.inl inOwn), .inr ⟨part, .inl inUsed, inPart⟩]
    · rcases rest.inside address inRest with inOwn | ⟨part, inUsed, inPart⟩
      exacts [.inl (.inr inOwn), .inr ⟨part, .inr inUsed, inPart⟩]

end Meets

end Writing

section Values

variable {heap : Heap} {content : Shared → List Nat} {parts : List Shared}

/-- What is done at an occurrence of a shared part that has been made. -/
def WritesPart (heap : Heap) (content : Shared → List Nat) (parts : List Shared) (part : Shared) :
    Prop :=
  ∀ slot seen met written, heap.part? part = some slot → Writing content parts seen met written →
    (part ∈ seen → part ∈ parts) →
    let result := Yaml.Node.ofShared parts part written
    ∃ order, heap.Writes (parts.map heap.home) met slot result.1 order ∧
      heap.Meets content parts seen met [part] [] order result.2

mutual

/-- What is written for the objects of a value is the node of the value. -/
theorem Shows.writes {value : Value} {slot : Slot} {own met : List Nat} {seen written : List Shared}
    (shown : heap.Shows value slot own)
    (each : ∀ part ∈ uses value, heap.WritesPart content parts part)
    (writing : Writing content parts seen met written)
    (fresh : Fresh content (parts.map heap.home) seen met own)
    (recurring : ∀ part ∈ repeats seen (uses value), part ∈ parts) :
    let result := Yaml.Node.build (Yaml.Node.ofShared parts) value written
    ∃ order, heap.Writes (parts.map heap.home) met slot result.1 order ∧
      heap.Meets content parts seen met (uses value) own order result.2 := by
  cases shown with
  | atom scalar => exact ⟨[], .scalar scalar, .none writing⟩
  | @shared part slot known =>
      refine each part (List.mem_singleton_self part) slot seen met written known writing ?_
      exact fun before => recurring part (by simp [uses, before])
  | @list items slots own address read shownItems =>
      obtain ⟨order, writes, meets⟩ :=
        shownItems.writes each (writing.enter fresh) fresh.enter recurring
      have plain := List.idxOf?_eq_none_iff.2 (fresh.plain address List.mem_cons_self)
      have new := fresh.unmet address List.mem_cons_self
      have whole := Writes.list new read writes
      rw [plain] at whole
      exact ⟨_, whole, meets.enter new⟩
  | @map entries slots own address read shownEntries =>
      obtain ⟨order, writes, meets⟩ :=
        shownEntries.writes each (writing.enter fresh) fresh.enter recurring
      have plain := List.idxOf?_eq_none_iff.2 (fresh.plain address List.mem_cons_self)
      have new := fresh.unmet address List.mem_cons_self
      have whole := Writes.map new read writes
      rw [plain] at whole
      exact ⟨_, whole, meets.enter new⟩

theorem ShowsItems.writes {items : List Value} {slots : List Slot} {own met : List Nat}
    {seen written : List Shared} (shown : heap.ShowsItems items slots own)
    (each : ∀ part ∈ itemUses items, heap.WritesPart content parts part)
    (writing : Writing content parts seen met written)
    (fresh : Fresh content (parts.map heap.home) seen met own)
    (recurring : ∀ part ∈ repeats seen (itemUses items), part ∈ parts) :
    let result := Yaml.Node.buildItems (Yaml.Node.ofShared parts) items written
    ∃ order, heap.WritesItems (parts.map heap.home) met slots result.1 order ∧
      heap.Meets content parts seen met (itemUses items) own order result.2 := by
  cases shown with
  | nil => exact ⟨[], .nil, .none writing⟩
  | @cons item items slot slots own others first rest =>
      rw [itemUses, List.forall_mem_append] at each
      rw [itemUses, repeats_append, List.forall_mem_append] at recurring
      obtain ⟨order, writes, meets⟩ := first.writes each.1 writing fresh.left recurring.1
      obtain ⟨orderNext, writesRest, meetsRest⟩ :=
        rest.writes each.2 meets.writing (fresh.right writing meets) recurring.2
      exact ⟨order ++ orderNext, .cons writes writesRest, meets.append meetsRest⟩

theorem ShowsEntries.writes {entries : List (Atom × Value)} {slots : List (Atom × Slot)}
    {own met : List Nat} {seen written : List Shared}
    (shown : heap.ShowsEntries entries slots own)
    (each : ∀ part ∈ entryUses entries, heap.WritesPart content parts part)
    (writing : Writing content parts seen met written)
    (fresh : Fresh content (parts.map heap.home) seen met own)
    (recurring : ∀ part ∈ repeats seen (entryUses entries), part ∈ parts) :
    let result := Yaml.Node.buildEntries (Yaml.Node.ofShared parts) entries written
    ∃ order, heap.WritesEntries (parts.map heap.home) met slots result.1 order ∧
      heap.Meets content parts seen met (entryUses entries) own order result.2 := by
  cases shown with
  | nil => exact ⟨[], .nil, .none writing⟩
  | @cons key value entries slot slots own others first rest =>
      rw [entryUses, List.forall_mem_append] at each
      rw [entryUses, repeats_append, List.forall_mem_append] at recurring
      obtain ⟨order, writes, meets⟩ := first.writes each.1 writing fresh.left recurring.1
      obtain ⟨orderNext, writesRest, meetsRest⟩ :=
        rest.writes each.2 meets.writing (fresh.right writing meets) recurring.2
      exact ⟨order ++ orderNext, .cons writes writesRest, meets.append meetsRest⟩

end

section Parts

variable {kept : List Nat} {part : Shared} {slot : Slot}

theorem Contents.eq_home (contents : heap.Contents kept content)
    (known : heap.part? part = some slot) :
    slot = .object (heap.home part) ∧ ∃ rest, content part = heap.home part :: rest := by
  have shown := contents.shows part slot known
  generalize content part = own at shown
  unfold home
  cases part <;> cases shown <;> exact ⟨by rw [known], _, by rw [known]⟩

/-- Parts that have been made have different objects. -/
theorem Contents.home_injective (contents : heap.Contents kept content) {other : Shared}
    {otherSlot : Slot} (known : heap.part? part = some slot)
    (otherKnown : heap.part? other = some otherSlot) (same : heap.home part = heap.home other) :
    part = other := by
  by_contra different
  obtain ⟨-, _, first⟩ := contents.eq_home known
  obtain ⟨-, _, second⟩ := contents.eq_home otherKnown
  refine contents.apart part other different (a := heap.home part) ?_ ?_
  · simp [first]
  · simp [second, same]

theorem idxOf?_map_of_injective {α β : Type} [DecidableEq α] [DecidableEq β] {items : List α}
    {name : α → β} {item : α} (injective : ∀ other ∈ items, name other = name item → other = item) :
    (items.map name).idxOf? (name item) = items.idxOf? item := by
  induction items with
  | nil => rfl
  | cons first rest ih =>
      obtain ⟨head, tail⟩ := List.forall_mem_cons.1 injective
      rw [List.map_cons, List.idxOf?_cons, List.idxOf?_cons, ih tail]
      by_cases same : first = item
      · simp [same]
      · have apart : name first ≠ name item := fun equal => same (head equal)
        simp [same, apart]

/-- The content of a part holds no part, and so does not depend on what is written out before. -/
theorem ofContent_eq (parts written : List Shared) (part : Shared) :
    Yaml.Node.ofContent part =
      (Yaml.Node.build (Yaml.Node.ofShared parts) part.value written).1 := by
  cases part <;> rfl

/-- The contents of all parts but one. -/
def without (content : Shared → List Nat) (part other : Shared) : List Nat :=
  if other = part then [] else content other

theorem Contents.disjoint_without (contents : heap.Contents kept content) (part other : Shared) :
    (without content part other).Disjoint (content part) := by
  unfold without
  split
  next => exact List.disjoint_nil_left _
  next different => exact contents.apart other part different

section First

variable {seen written : List Shared} {met rest : List Nat}
  (contents : heap.Contents kept content) (writing : Writing content parts seen met written)
  (new : part ∉ seen) (headed : content part = heap.home part :: rest)

include contents writing new headed

/-- Inside of its content the part itself is none that could be met. -/
theorem Contents.writing_inside :
    Writing (without content part) parts seen (heap.home part :: met) written := by
  refine ⟨writing.written_iff, fun other member => ?_, fun other absent => ?_⟩
  · have different : other ≠ part := fun same => new (same ▸ member)
    simpa [without, different] using
      List.Subset.trans (writing.met_of_seen other member) (List.subset_cons_self _ _)
  · refine List.disjoint_cons_right.2 ⟨fun inside => ?_, ?_⟩
    · exact contents.disjoint_without part other inside (by simp [headed])
    · unfold without
      split
      exacts [List.disjoint_nil_left _, writing.unmet other absent]

theorem Contents.fresh_inside (known : heap.part? part = some slot)
    (made : ∀ other ∈ parts, ∃ slot, heap.part? other = some slot) :
    Fresh (without content part) (parts.map heap.home) seen (heap.home part :: met) rest := by
  have distinct := headed ▸ contents.distinct part
  have within : ∀ address ∈ rest, address ∈ content part := fun address member => by
    simp [headed, member]
  refine ⟨distinct.of_cons, fun address member inMet => ?_, fun address member inHomes => ?_,
    fun other _ address inOther member => ?_⟩
  · rcases List.mem_cons.1 inMet with rfl | inMet
    · exact (List.nodup_cons.1 distinct).1 member
    · exact writing.unmet part new (within address member) inMet
  · obtain ⟨other, inParts, rfl⟩ := List.mem_map.1 inHomes
    obtain ⟨otherSlot, otherKnown⟩ := made other inParts
    obtain ⟨-, _, otherHeaded⟩ := contents.eq_home otherKnown
    by_cases same : other = part
    · subst same
      exact (List.nodup_cons.1 distinct).1 member
    · exact contents.apart other part same (a := heap.home other) (by simp [otherHeaded])
        (within _ member)
  · exact contents.disjoint_without part other inOther (within address member)

/-- A part is written out when it is seen for the first time, with its anchor if it has one. -/
theorem Contents.writes_first (known : heap.part? part = some slot)
    (made : ∀ other ∈ parts, ∃ slot, heap.part? other = some slot) {number : Option Nat}
    (numbered : (parts.map heap.home).idxOf? (heap.home part) = number) :
    ∃ order, heap.Writes (parts.map heap.home) met slot
        (match number with
          | none => Yaml.Node.ofContent part
          | some index => Yaml.Node.anchored (index + 1) (Yaml.Node.ofContent part)) order ∧
      repeats met order = [] ∧ content part ⊆ order ∧ order ⊆ content part := by
  have inner := contents.writing_inside writing new headed
  have fresh := contents.fresh_inside writing new headed known made
  have newHome : heap.home part ∉ met := fun inMet =>
    writing.unmet part new (a := heap.home part) (by simp [headed]) inMet
  have shown := contents.shows part slot known
  rw [headed] at shown ⊢
  have noPart := uses_content part
  have node_eq := ofContent_eq parts written part
  -- What is written depends on the kind of collection that the content is, not on the part.
  generalize part.value = value at shown noPart node_eq
  cases shown with
  | @list items slots _ _ read shownItems =>
      rw [uses] at noPart
      obtain ⟨order, writes, meets⟩ :=
        shownItems.writes (by simp [noPart]) inner fresh (by simp [noPart])
      rw [noPart] at meets
      have whole := Writes.list newHome read writes
      rw [numbered] at whole
      refine ⟨_, ?_, (meets.enter newHome).once⟩
      rw [node_eq]
      cases number <;> exact whole
  | @map entries slots _ _ read shownEntries =>
      rw [uses] at noPart
      obtain ⟨order, writes, meets⟩ :=
        shownEntries.writes (by simp [noPart]) inner fresh (by simp [noPart])
      rw [noPart] at meets
      have whole := Writes.map newHome read writes
      rw [numbered] at whole
      refine ⟨_, ?_, (meets.enter newHome).once⟩
      rw [node_eq]
      cases number <;> exact whole

omit headed in
/-- After that all objects of the part have been met. -/
theorem Contents.meets_first {order : List Nat} {writtenNext : List Shared}
    (once : repeats met order = []) (covers : content part ⊆ order) (inside : order ⊆ content part)
    (same : ∀ other, other ∈ writtenNext ↔ other ∈ part :: seen ∧ other ∈ parts) :
    heap.Meets content parts seen met [part] [] order writtenNext where
  writing := by
    refine ⟨same, fun other member => ?_, fun other absent => ?_⟩
    · rcases List.mem_cons.1 member with rfl | member
      exacts [List.Subset.trans covers (List.subset_append_left _ _),
        List.Subset.trans (writing.met_of_seen other member) (List.subset_append_right _ _)]
    · obtain ⟨different, unseen⟩ := List.ne_and_not_mem_of_not_mem_cons absent
      refine List.disjoint_append_right.2 ⟨fun address inOther inOrder => ?_,
        writing.unmet other unseen⟩
      exact contents.apart other part different inOther (inside inOrder)
  again := by simp [once, new]
  covers := List.nil_subset _
  inside address member := .inr ⟨part, List.mem_singleton_self part, inside member⟩

end First

theorem Contents.writesPart (contents : heap.Contents kept content)
    (made : ∀ other ∈ parts, ∃ slot, heap.part? other = some slot) (part : Shared) :
    heap.WritesPart content parts part := by
  intro slot seen met written known writing recurring
  obtain ⟨slot_eq, rest, headed⟩ := contents.eq_home known
  have homeIn : heap.home part ∈ content part := by simp [headed]
  have position : (parts.map heap.home).idxOf? (heap.home part) = parts.idxOf? part :=
    idxOf?_map_of_injective fun other member same => by
      obtain ⟨otherSlot, otherKnown⟩ := made other member
      exact contents.home_injective otherKnown known same
  rw [Yaml.ofShared_eq]
  -- A part that was seen before is an alias now; a new one is written out with all its objects.
  by_cases before : part ∈ seen
  · have isAnchor := recurring before
    have again : part ∈ written := (writing.written_iff part).2 ⟨before, isAnchor⟩
    have inMet := writing.met_of_seen part before homeIn
    cases numbered : parts.idxOf? part with
    | none => exact absurd isAnchor (List.idxOf?_eq_none_iff.1 numbered)
    | some index =>
        simp only [again, if_true, slot_eq]
        refine ⟨[heap.home part], .again inMet (position.trans numbered), ?_, ?_, ?_, ?_⟩
        · refine writing.congr (fun other => ?_) fun address => ?_
          · by_cases same : other = part <;> simp [same, before]
          · by_cases same : address = heap.home part <;> simp [same, inMet]
        · simp [before, inMet]
        · exact List.nil_subset _
        · intro address member
          obtain rfl := List.mem_singleton.1 member
          exact .inr ⟨part, List.mem_singleton_self part, homeIn⟩
  · obtain ⟨order, writes, once, covers, inside⟩ :=
      contents.writes_first writing before headed known made position
    have unwritten : part ∉ written := fun member => before ((writing.written_iff part).1 member).1
    cases numbered : parts.idxOf? part with
    | none =>
        have unanchored := List.idxOf?_eq_none_iff.1 numbered
        rw [numbered] at writes
        refine ⟨order, writes, contents.meets_first writing before once covers inside fun other => ?_⟩
        rw [writing.written_iff, List.mem_cons]
        by_cases same : other = part <;> simp [same, unanchored]
    | some index =>
        have anchored : part ∈ parts := by
          by_contra absent
          rw [List.idxOf?_eq_none_iff.2 absent] at numbered
          cases numbered
        rw [numbered] at writes
        simp only [unwritten, if_false]
        refine ⟨order, writes, contents.meets_first writing before once covers inside fun other => ?_⟩
        rw [List.mem_cons, writing.written_iff, List.mem_cons]
        by_cases same : other = part <;> simp [same, anchored]

end Parts

end Values

namespace Presents

variable {heap : Heap} {document : Value} {root : Slot} {own kept : List Nat}

/-- What is written for the objects of a document is the node of the document. -/
theorem writtenAs (presents : heap.Presents document root own kept) :
    heap.WrittenAs root (Yaml.Node.ofValue document) := by
  obtain ⟨ownDistinct, keptDistinct, apart⟩ := List.nodup_append'.1 presents.distinct
  obtain ⟨content, contents⟩ := presents.keeps.contents keptDistinct
  have made : ∀ part ∈ anchors document, ∃ slot, heap.part? part = some slot := fun part member =>
    presents.shows.made part (mem_of_mem_repeats (Yaml.mem_anchors_iff.1 member))
  have writing : Writing content (anchors document) [] [] [] :=
    ⟨by simp, by simp, fun _ _ => List.disjoint_nil_right _⟩
  have fresh : Fresh content ((anchors document).map heap.home) [] [] own := by
    refine ⟨ownDistinct, by simp, fun address member inHomes => ?_, fun part _ =>
      List.disjoint_of_subset_left (contents.inside part) fun address inKept inOwn =>
        apart inOwn inKept⟩
    obtain ⟨part, inAnchors, rfl⟩ := List.mem_map.1 inHomes
    obtain ⟨slot, known⟩ := made part inAnchors
    obtain ⟨-, rest, headed⟩ := contents.eq_home known
    exact apart member (contents.inside part (by simp [headed]))
  obtain ⟨order, writes, meets⟩ := presents.shows.writes
    (fun part _ => contents.writesPart made part) writing fresh
    fun part => Yaml.mem_anchors_iff.2
  have same : (repeats [] order).eraseDups = (anchors document).map heap.home := by
    rw [meets.again, Yaml.anchors_eq]
    refine eraseDups_map fun first inFirst second inSecond same => ?_
    obtain ⟨slot, known⟩ := presents.shows.made first (mem_of_mem_repeats inFirst)
    obtain ⟨otherSlot, otherKnown⟩ := presents.shows.made second (mem_of_mem_repeats inSecond)
    exact contents.home_injective known otherKnown same
  exact ⟨order, same ▸ writes⟩

end Presents

end Heap

end CloudGraph
