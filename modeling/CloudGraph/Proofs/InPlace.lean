import CloudGraph.Proofs.Objects
import CloudGraph.Proofs.Parts
import Mathlib.Data.List.Perm.Subperm

/-!
# Editing in place

An edit in place does to the objects what it does to the document, as long as the collection that it
changes is reached without going through a shared part: `Heap.Presents.edit`. Nobody else refers to
that collection then, so that nothing but the document changes: the shared parts keep their content,
whatever is put next to them. `Heap.Presents.editAll` follows a whole run.
-/

namespace CloudGraph

open Yaml (uses)

/-- A part of a value is found along a path of keys that never enters a shared part. -/
inductive Value.Opens : Value → List Atom → Value → Prop where
  | here {value} : Opens value [] value
  | entry {entries key path inner part} (found : Entries.find? Atom.same entries key = some inner)
      (rest : Opens inner path part) : Opens (.map entries) (key :: path) part

/-- The collection that an edit changes is no shared part and inside of none. -/
def Edit.Spares (document : Value) : Edit → Prop
  | .note _ | .write .. | .provide .. => True
  | .assign path _ _ | .default path _ _ => ∃ entries, document.Opens path (.map entries)
  | .append path _ | .include path _ => ∃ items, document.Opens path (.list items)

/-- The shared parts in the value that an edit brings. -/
def Edit.uses : Edit → List Shared
  | .assign _ _ value | .default _ _ value => Yaml.uses value
  | .append _ item => Yaml.uses item
  | .include .. | .note _ | .write .. | .provide .. => []

namespace Value

variable {items : List Value} {wanted : String}

/-- Going through the items of a list finds a text if and only if it is one of them. -/
theorem holdsText_list (wanted : String) (items : List Value) :
    ∃ held, (Value.list items).holdsText wanted = .ok held ∧
      (held = true ↔ .text wanted ∈ items) := by
  refine ⟨_, rfl, ?_⟩
  rw [List.any_eq_true]
  constructor
  · rintro ⟨item, member, isText⟩
    split at isText
    · obtain rfl := eq_of_beq isText
      exact member
    · cases isText
  · exact fun member => ⟨_, member, beq_self_eq_true wanted⟩

theorem including_of_mem (held : .text wanted ∈ items) :
    (Value.list items).including wanted = .ok (.list items) := by
  obtain ⟨answer, looked, iff⟩ := holdsText_list wanted items
  simp [including, looked, iff.2 held, bind, Except.bind, pure, Except.pure]

theorem including_of_not_mem (missing : .text wanted ∉ items) :
    (Value.list items).including wanted = .ok (.list (items ++ [.text wanted])) := by
  obtain ⟨answer, looked, iff⟩ := holdsText_list wanted items
  have no : answer = false := by
    rw [Bool.eq_false_iff]
    exact fun yes => missing (iff.1 yes)
  simp [including, looked, no, appended, content, bind, Except.bind]

end Value

namespace Heap

variable {heap next : Heap} {root slot : Slot} {own others kept extra : List Nat}

section Parts

variable {entries : List (Atom × Value)} {slots : List (Atom × Slot)} {key : Atom} {value : Value}

/-- What is found in a mapping is shown by what is found in its object, and something else can be
shown there instead. -/
theorem ShowsEntries.find (shown : heap.ShowsEntries entries slots own)
    (found : Entries.find? Atom.same entries key = some value) :
    ∃ slot before inner after, own = before ++ inner ++ after ∧
      Entries.find? Atom.same slots key = some slot ∧ heap.Shows value slot inner ∧
      ∀ next changed innerNext, heap.Agrees next (before ++ after) →
        next.Shows changed slot innerNext →
        next.ShowsEntries (Entries.put Atom.same entries key changed) slots
          (before ++ innerNext ++ after) := by
  induction entries generalizing slots own with
  | nil => cases found
  | cons entry entries ih =>
      cases shown with
      | @cons name inner _ slot slots first others head rest =>
          by_cases equal : Atom.same name key = true
          · obtain rfl : inner = value := by simpa [Entries.find?_cons, equal] using found
            refine ⟨slot, [], first, others, rfl, by simp [Entries.find?_cons, equal], head, ?_⟩
            intro next changed innerNext agrees shownNext
            rw [Entries.put, if_pos equal]
            exact .cons shownNext (rest.frame agrees)
          · have later : Entries.find? Atom.same entries key = some value := by
              simpa [Entries.find?_cons, equal] using found
            obtain ⟨slot', before, inner', after, rfl, foundSlot, shownInner, replace⟩ :=
              ih rest later
            refine ⟨slot', first ++ before, inner', after, by simp, ?_, shownInner, ?_⟩
            · simpa [Entries.find?_cons, equal] using foundSlot
            · intro next changed innerNext agrees shownNext
              rw [Entries.put, if_neg equal, List.append_assoc, List.append_assoc]
              rw [List.append_assoc] at agrees
              have tail := replace next changed innerNext agrees.right shownNext
              rw [List.append_assoc] at tail
              exact .cons (head.frame agrees.left) tail

/-- What is not found in a mapping is not found in its object. -/
theorem ShowsEntries.find_none (shown : heap.ShowsEntries entries slots own)
    (missing : Entries.find? Atom.same entries key = none) :
    Entries.find? Atom.same slots key = none := by
  induction entries generalizing slots own with
  | nil =>
      cases shown
      rfl
  | cons entry entries ih =>
      cases shown with
      | @cons name inner _ slot slots first others head rest =>
          by_cases equal : Atom.same name key = true
          · simp [Entries.find?_cons, equal] at missing
          · have later : Entries.find? Atom.same entries key = none := by
              simpa [Entries.find?_cons, equal] using missing
            simpa [Entries.find?_cons, equal] using ih rest later

/-- A key that is set in a mapping is set in its object. What stood there before is dropped. -/
theorem ShowsEntries.put (shown : heap.ShowsEntries entries slots own)
    (shownValue : heap.Shows value slot extra) (key : Atom) : ∃ ownNext,
      heap.ShowsEntries (Entries.put Atom.same entries key value)
        (Entries.put Atom.same slots key slot) ownNext ∧ ownNext.Subperm (own ++ extra) := by
  induction entries generalizing slots own with
  | nil =>
      cases shown
      exact ⟨extra ++ [], .cons shownValue .nil, by simp [List.Subperm.refl]⟩
  | cons entry entries ih =>
      cases shown with
      | @cons name inner _ slot' slots first others head rest =>
          rw [Entries.put, Entries.put]
          by_cases equal : Atom.same name key = true
          · rw [if_pos equal, if_pos equal]
            refine ⟨extra ++ others, .cons shownValue rest, ?_⟩
            rw [List.append_assoc]
            exact (List.perm_append_comm.subperm).trans (List.sublist_append_right _ _).subperm
          · rw [if_neg equal, if_neg equal]
            obtain ⟨ownNext, shownNext, inside⟩ := ih rest
            refine ⟨first ++ ownNext, .cons head shownNext, ?_⟩
            rw [List.append_assoc]
            exact (List.subperm_append_left first).2 inside

/-- An item is put at the end of a list and of its object. -/
theorem ShowsItems.append {items : List Value} {itemSlots : List Slot}
    (shown : heap.ShowsItems items itemSlots own) (shownItem : heap.Shows value slot extra) :
    heap.ShowsItems (items ++ [value]) (itemSlots ++ [slot]) (own ++ extra) := by
  induction items generalizing itemSlots own with
  | nil =>
      cases shown
      simpa using ShowsItems.cons shownItem .nil
  | cons item items ih =>
      cases shown with
      | cons first rest =>
          rw [List.append_assoc]
          exact .cons first (ih rest)

/-- A shared part that has been made shows its content. -/
theorem Keeps.shows {part : Shared} (keeps : heap.Keeps kept)
    (known : heap.part? part = some slot) :
    ∃ before inner after, kept = before ++ inner ++ after ∧ heap.Shows part.value slot inner := by
  unfold Keeps at keeps
  unfold part? at known
  generalize heap.parts = parts at keeps known
  induction parts generalizing kept with
  | nil => cases known
  | cons entry parts ih =>
      cases keeps with
      | @cons _ _ _ _ own others first rest =>
          rw [List.lookup_cons] at known
          by_cases same : part = entry.1
          · have slotEq : entry.2 = slot := by simpa [same] using known
            exact ⟨[], own, others, rfl, same ▸ slotEq ▸ first⟩
          · rw [beq_false_of_ne same] at known
            obtain ⟨before, inner, after, rfl, shown⟩ := ih rest known
            exact ⟨own ++ before, inner, after, by simp, shown⟩

/-- The slot of a shared part refers to an object. -/
theorem Keeps.object {part : Shared} (keeps : heap.Keeps kept)
    (known : heap.part? part = some slot) : ∃ address, slot = .object address := by
  obtain ⟨_, _, _, _, shown⟩ := keeps.shows known
  cases part <;> cases shown <;> exact ⟨_, rfl⟩

/-- A list holds a text if and only if its object does. -/
theorem ShowsItems.holds_iff {items : List Value} {itemSlots : List Slot} {text : String}
    (keeps : heap.Keeps kept) (shown : heap.ShowsItems items itemSlots own) :
    .scalar (.text text) ∈ itemSlots ↔ .text text ∈ items := by
  induction items generalizing itemSlots own with
  | nil =>
      cases shown
      simp
  | cons item items ih =>
      cases shown with
      | cons first rest =>
          rw [List.mem_cons, List.mem_cons, ih rest]
          refine or_congr_left ?_
          cases first with
          | atom scalar => simp
          | list | map => simp
          | shared known =>
              obtain ⟨address, rfl⟩ := keeps.object known
              simp

end Parts

/-- Changing one object leaves the others as they are. -/
theorem agrees_set {address : Nat} (object : Object) (apart : address ∉ own) :
    heap.Agrees { heap with objects := heap.objects.set address object } own where
  objects other member _ read := by
    have different : address ≠ other := fun same => apart (same ▸ member)
    rw [List.getElem?_set_ne different, read]
  parts _ _ := id

/-- What is found in a value is shown by what is found by following references, and something else
can be shown there instead. -/
theorem Shows.focus {value part : Value} {path : List Atom} (opens : value.Opens path part)
    (shown : heap.Shows value root own) :
    ∃ slot before inner after, own = before ++ inner ++ after ∧
      heap.follow root path = .ok slot ∧ heap.Shows part slot inner ∧
      ∀ next changed innerNext change, heap.Agrees next (before ++ after) →
        next.Shows changed slot innerNext → change part = .ok changed →
        ∃ document, Value.modifyAt change value path = .ok document ∧
          next.Shows document root (before ++ innerNext ++ after) := by
  induction opens generalizing root own with
  | here =>
      refine ⟨root, [], own, [], by simp, rfl, shown, ?_⟩
      intro next changed innerNext change _ shownNext made
      exact ⟨changed, made, by simpa using shownNext⟩
  | @entry entries key path inner part found rest ih =>
      -- The path goes on in a mapping of the value itself: no shared part is entered.
      cases shown with
      | @map _ _ _ address read parts =>
          obtain ⟨innerSlot, before, innerOwn, after, rfl, foundSlot, shownInner, replace⟩ :=
            parts.find found
          obtain ⟨slot, earlier, focus, later, rfl, followed, shownPart, change⟩ := ih shownInner
          refine ⟨slot, address :: before ++ earlier, focus, later ++ after, by simp, ?_, shownPart, ?_⟩
          · simpa [follow, objectOf, read, Object.item, foundSlot, bind, Except.bind]
              using followed
          · intro next changed innerNext function agrees shownNext made
            obtain ⟨document, modified, shownDocument⟩ := change next changed innerNext function
              (agrees.mono (by grind)) shownNext made
            have item : (Value.map entries).item key = .ok inner := by
              simp [Value.item, Value.content, found]
            refine ⟨.map (Entries.put Atom.same entries key document), ?_, ?_⟩
            · simp [Value.modifyAt, item, modified, Value.withItem, Value.content, bind,
                Except.bind]
            · have whole := replace next document _ (agrees.mono (by grind))
                shownDocument
              have readNext := agrees.objects _ (by simp) _ read
              simpa using Shows.map readNext whole

/-- A slot refers to an object that can be changed so that another value is shown. What the object
alone referred to before may be dropped, and `extra` are the objects of what is put into it. -/
def Alters (heap : Heap) (change : Object → Except Fault Object) (changed : Value) (slot : Slot)
    (own extra : List Nat) : Prop :=
  ∃ address object objectNext rest, slot = .object address ∧ own = address :: rest ∧
    heap.objects[address]? = some object ∧ change object = .ok objectNext ∧
    ∀ next, heap.Agrees next (rest ++ extra) → next.objects[address]? = some objectNext →
      ∃ restNext, next.Shows changed slot (address :: restNext) ∧ restNext.Subperm (rest ++ extra)

/-- A collection that is reached without going through a shared part is changed in place. -/
theorem Shows.change {document part changed : Value} {path : List Atom}
    {change : Value → Except Fault Value} {changeObject : Object → Except Fault Object}
    (shown : heap.Shows document root own) (keeps : heap.Keeps kept)
    (distinct : (own ++ extra ++ kept).Nodup) (opens : document.Opens path part)
    (made : change part = .ok changed)
    (alters : ∀ slot inner, heap.Shows part slot inner →
      heap.Alters changeObject changed slot inner extra) :
    ∃ documentNext next ownNext, Value.modifyAt change document path = .ok documentNext ∧
      (heap.follow root path >>= heap.changing changeObject) = .ok next ∧
      next.Shows documentNext root ownNext ∧ next.Keeps kept ∧ ownNext.Subperm (own ++ extra) ∧
      next.objects.length = heap.objects.length ∧ next.parts = heap.parts := by
  obtain ⟨slot, before, inner, after, rfl, followed, shownPart, replace⟩ := shown.focus opens
  obtain ⟨address, object, objectNext, rest, rfl, rfl, read, changedObject, shownNext⟩ :=
    alters slot inner shownPart
  let next : Heap := { heap with objects := heap.objects.set address objectNext }
  have inRange : address < heap.objects.length := (List.getElem?_eq_some_iff.1 read).1
  have readNext : next.objects[address]? = some objectNext := by
    simp [next, inRange]
  -- All addresses are different, so nothing but the document is changed with the object.
  obtain ⟨apartRest, apartOthers, apartKept⟩ :
      address ∉ rest ++ extra ∧ address ∉ before ++ after ∧ address ∉ kept := by
    simp only [List.nodup_append, List.nodup_cons, List.mem_append, List.mem_cons] at distinct ⊢
    grind
  obtain ⟨restNext, shownChanged, restInside⟩ :=
    shownNext next (agrees_set objectNext apartRest) readNext
  obtain ⟨documentNext, modified, shownDocument⟩ :=
    replace next changed _ change (agrees_set objectNext apartOthers) shownChanged made
  refine ⟨documentNext, next, _, modified, ?_, shownDocument,
    ShowsItems.frame keeps (agrees_set objectNext apartKept), ?_, by simp [next], rfl⟩
  · simp [followed, changing, objectOf, read, changedObject, next, bind, Except.bind, pure,
      Except.pure]
  · have middle : (before ++ address :: restNext ++ after).Subperm
        (before ++ address :: (rest ++ extra) ++ after) := by
      rw [List.append_assoc, List.append_assoc, List.subperm_append_left, List.cons_append,
        List.cons_append, List.subperm_cons, List.subperm_append_right]
      exact restInside
    refine middle.trans (List.Perm.subperm ?_)
    rw [List.perm_iff_count]
    intro other
    simp only [List.count_append, List.count_cons]
    omega

/-- The objects at a root are a document, each of its collections an object of its own, and every
shared part that has been made has its content. -/
structure Presents (heap : Heap) (document : Value) (root : Slot) (own kept : List Nat) : Prop where
  shows : heap.Shows document root own
  keeps : heap.Keeps kept
  distinct : (own ++ kept).Nodup
  bounded : ∀ address ∈ own ++ kept, address < heap.objects.length

namespace Presents

variable {document : Value}

/-- A value that is placed beside a document is made of objects of its own. -/
theorem place (presents : heap.Presents document root own kept) (value : Value) :
    ∃ extra more, let result := Heap.place value heap
      result.2.Shows value result.1 extra ∧ result.2.Shows document root own ∧
        result.2.Keeps (more ++ kept) ∧ (own ++ extra ++ (more ++ kept)).Nodup ∧
        (∀ address ∈ own ++ extra ++ (more ++ kept), address < result.2.objects.length) ∧
        heap.Advances result.2 (uses value) := by
  obtain ⟨extra, more, shown, keeps, grows⟩ := placed value heap presents.keeps
  have old : ∀ address ∈ own ++ kept, address < (Heap.place value heap).2.objects.length :=
    fun address member =>
      Nat.lt_of_lt_of_le (presents.bounded address member) grows.objects.length_le
  have all : ((own ++ kept) ++ (extra ++ more)).Perm (own ++ extra ++ (more ++ kept)) := by
    rw [List.perm_iff_count]
    intro address
    simp only [List.count_append]
    omega
  refine ⟨extra, more, shown, presents.shows.frame (grows.agrees own), keeps, ?_, ?_,
    grows.toAdvances⟩
  · refine all.nodup_iff.1 (List.nodup_append.2 ⟨presents.distinct, grows.distinct, ?_⟩)
    rintro address inOld _ inNew rfl
    have below := presents.bounded address inOld
    have above := (grows.fresh address inNew).1
    omega
  · intro address member
    rcases List.mem_append.1 (all.mem_iff.2 member) with inOld | inNew
    · exact old address inOld
    · exact (grows.fresh address inNew).2

/-- A value that is laid out where nothing is presents itself. -/
theorem placed (value : Value) : ∃ own kept, let result := Heap.place value Heap.empty
    result.2.Presents value result.1 own kept ∧ Heap.empty.Advances result.2 (uses value) := by
  have nothing : Heap.empty.Keeps [] := .nil
  obtain ⟨own, more, shown, keeps, grows⟩ := Heap.placed value Heap.empty nothing
  rw [List.append_nil] at keeps
  exact ⟨own, more, ⟨shown, keeps, grows.distinct, fun address member =>
    (grows.fresh address member).2⟩, grows.toAdvances⟩

/-- What becomes of a document when a value is placed and put into one of its collections. -/
theorem change {part changed : Value} {path : List Atom} (change : Value → Except Fault Value)
    (changeObject : Slot → Object → Except Fault Object) (value : Value)
    (presents : heap.Presents document root own kept) (opens : document.Opens path part)
    (made : change part = .ok changed)
    (alters : ∀ heap kept extra slot inner valueSlot, Heap.Keeps heap kept →
      heap.Shows value valueSlot extra → heap.Shows part slot inner →
      heap.Alters (changeObject valueSlot) changed slot inner extra) :
    ∃ documentNext next ownNext more, let result := Heap.place value heap
      Value.modifyAt change document path = .ok documentNext ∧
      (result.2.follow root path >>= result.2.changing (changeObject result.1)) = .ok next ∧
      next.Presents documentNext root ownNext (more ++ kept) ∧
      heap.Advances next (uses value) := by
  obtain ⟨extra, more, shownValue, shown, keeps, distinct, bounded, advances⟩ :=
    presents.place value
  obtain ⟨documentNext, next, ownNext, modified, changed, shownNext, keepsNext, within, length,
    parts⟩ := shown.change keeps distinct opens made fun slot inner =>
      alters _ _ extra slot inner _ keeps shownValue
  have within := (List.subperm_append_right (more ++ kept)).2 within
  refine ⟨documentNext, next, ownNext, more, modified, changed, ⟨shownNext, keepsNext, ?_, ?_⟩, ?_⟩
  · obtain ⟨addresses, same, part⟩ := within
    exact same.nodup_iff.1 (part.nodup distinct)
  · intro address member
    rw [length]
    exact bounded address (within.subset member)
  · have same : next.part? = (Heap.place value heap).2.part? := by
      funext part
      simp [part?, parts]
    exact ⟨fun part slot known => same ▸ advances.parts part slot known,
      fun part slot known => advances.parts_of part slot (same ▸ known)⟩

variable {project after : Project} {path : List Atom} {key : Atom} {value : Value}

/-- The same for a change of a project that has been made. -/
theorem changing {part changed : Value} (change : Value → Except Fault Value)
    (changeObject : Slot → Object → Except Fault Object) (value : Value)
    (presents : heap.Presents project.document root own kept)
    (opens : project.document.Opens path part)
    (edited : project.changing path change = .ok after) (made : change part = .ok changed)
    (alters : ∀ heap kept extra slot inner valueSlot, Heap.Keeps heap kept →
      heap.Shows value valueSlot extra → heap.Shows part slot inner →
      heap.Alters (changeObject valueSlot) changed slot inner extra) :
    ∃ next ownNext more, let result := Heap.place value heap
      (result.2.follow root path >>= result.2.changing (changeObject result.1)) = .ok next ∧
      next.Presents after.document root ownNext (more ++ kept) ∧
      heap.Advances next (uses value) := by
  obtain ⟨document, next, ownNext, more, modified, changed, presentsNext, advances⟩ :=
    presents.change change changeObject value opens made alters
  obtain ⟨documentAfter, modifiedAfter, rfl⟩ := Project.changing_eq_ok.1 edited
  obtain rfl := Except.ok.inj (modified.symm.trans modifiedAfter)
  exact ⟨next, ownNext, more, changed, presentsNext, advances⟩

/-- Setting a key of a mapping in place. -/
theorem alters_put {entries : List (Atom × Value)} {valueSlot : Slot} {inner : List Nat}
    {change : Object → Except Fault Object} (shownValue : heap.Shows value valueSlot extra)
    (shownPart : heap.Shows (.map entries) slot inner)
    (changes : ∀ slots rest, heap.ShowsEntries entries slots rest →
      change (.map slots) = .ok (.map (Entries.put Atom.same slots key valueSlot))) :
    heap.Alters change (.map (Entries.put Atom.same entries key value)) slot inner extra := by
  cases shownPart with
  | @map _ slots rest address read parts =>
      refine ⟨address, _, _, rest, rfl, rfl, read, changes slots rest parts, ?_⟩
      intro next agrees readNext
      obtain ⟨restNext, shownNext, within⟩ :=
        (parts.frame agrees.left).put (shownValue.frame agrees.right) key
      exact ⟨restNext, .map readNext shownNext, within⟩

/-- Putting an item at the end of a list in place. -/
theorem alters_append {items : List Value} {item : Value} {inner : List Nat} (itemSlot : Slot)
    {change : Object → Except Fault Object} (shownItem : heap.Shows item itemSlot extra)
    (shownPart : heap.Shows (.list items) slot inner)
    (changes : ∀ slots rest, heap.ShowsItems items slots rest →
      change (.list slots) = .ok (.list (slots ++ [itemSlot]))) :
    heap.Alters change (.list (items ++ [item])) slot inner extra := by
  cases shownPart with
  | @list _ slots rest address read parts =>
      refine ⟨address, _, _, rest, rfl, rfl, read, changes slots rest parts, ?_⟩
      intro next agrees readNext
      exact ⟨rest ++ extra, .list readNext
        ((parts.frame agrees.left).append (shownItem.frame agrees.right)), .refl _⟩

/-- Leaving a collection as it is. -/
theorem alters_same {part : Value} {change : Object → Except Fault Object} {address : Nat}
    {object : Object} {rest : List Nat} (read : heap.objects[address]? = some object)
    (same : change object = .ok object)
    (shownPart : heap.Shows part (.object address) (address :: rest)) :
    heap.Alters change part (.object address) (address :: rest) extra := by
  refine ⟨address, object, object, rest, rfl, rfl, read, same, fun next agrees readNext => ?_⟩
  refine ⟨rest, shownPart.frame ⟨fun other member found otherRead => ?_, agrees.parts⟩,
    (List.sublist_append_left rest extra).subperm⟩
  rcases List.mem_cons.1 member with rfl | inRest
  · rw [read] at otherRead
    exact Option.some.inj otherRead ▸ readNext
  · exact agrees.left.objects other inRest found otherRead

/-- Setting a key in place sets it in the document. -/
theorem assign {entries : List (Atom × Value)}
    (presents : heap.Presents project.document root own kept)
    (opens : project.document.Opens path (.map entries))
    (edited : project.edit (.assign path key value) = .ok after) :
    ∃ next ownNext more, heap.edit root (.assign path key value) = .ok next ∧
      next.Presents after.document root ownNext (more ++ kept) ∧
      heap.Advances next (uses value) :=
  presents.changing _ (fun slot object => object.withItem key slot) value opens edited rfl
    fun _ _ _ _ _ _ _ shownValue shownPart => alters_put shownValue shownPart fun _ _ _ => rfl

/-- Giving a default in place gives it in the document. -/
theorem default {entries : List (Atom × Value)}
    (presents : heap.Presents project.document root own kept)
    (opens : project.document.Opens path (.map entries))
    (edited : project.edit (.default path key value) = .ok after) :
    ∃ next ownNext more, heap.edit root (.default path key value) = .ok next ∧
      next.Presents after.document root ownNext (more ++ kept) ∧
      heap.Advances next (uses value) := by
  cases found : Entries.find? Atom.same entries key with
  | none =>
      have made : (Value.map entries).withDefault key value =
          .ok (.map (Entries.put Atom.same entries key value)) := by
        simp [Value.withDefault, Value.content, found]
      exact presents.changing _ (fun slot object => object.withDefault key slot) value opens edited
        made fun _ _ _ _ _ _ _ shownValue shownPart =>
          alters_put shownValue shownPart fun slots rest parts => by
            simp [Object.withDefault, parts.find_none found]
  | some held =>
      have made : (Value.map entries).withDefault key value = .ok (.map entries) := by
        simp [Value.withDefault, Value.content, found]
      refine presents.changing _ (fun slot object => object.withDefault key slot) value opens edited
        made fun _ _ _ _ _ _ _ _ shownPart => ?_
      cases shownPart with
      | map read parts =>
          obtain ⟨heldSlot, _, _, _, _, foundSlot, _⟩ := parts.find found
          exact alters_same read (by simp [Object.withDefault, foundSlot]) (.map read parts)

/-- Putting an item at the end of a list in place puts it there in the document. -/
theorem append {items : List Value} (presents : heap.Presents project.document root own kept)
    (opens : project.document.Opens path (.list items))
    (edited : project.edit (.append path value) = .ok after) :
    ∃ next ownNext more, heap.edit root (.append path value) = .ok next ∧
      next.Presents after.document root ownNext (more ++ kept) ∧
      heap.Advances next (uses value) :=
  presents.changing _ (fun slot object => object.appended slot) value opens edited rfl
    fun _ _ _ _ _ _ _ shownValue shownPart => alters_append _ shownValue shownPart fun _ _ _ => rfl

/-- Putting a text into a list that does not hold it, in place, puts it there in the document. -/
theorem includeText {items : List Value} {wanted : String}
    (presents : heap.Presents project.document root own kept)
    (opens : project.document.Opens path (.list items))
    (edited : project.edit (.include path wanted) = .ok after) :
    ∃ next ownNext more, heap.edit root (.include path wanted) = .ok next ∧
      next.Presents after.document root ownNext (more ++ kept) ∧ heap.Advances next [] := by
  by_cases held : .text wanted ∈ items
  · refine presents.changing _ (fun _ object => object.including wanted) (.text wanted) opens edited
      (Value.including_of_mem held) fun _ _ _ _ _ _ keeps _ shownPart => ?_
    cases shownPart with
    | list read parts =>
        exact alters_same read (by simp [Object.including, (parts.holds_iff keeps).2 held])
          (.list read parts)
  · refine presents.changing _ (fun _ object => object.including wanted) (.text wanted) opens edited
      (Value.including_of_not_mem held) fun _ _ extra _ _ _ keeps shownText shownPart => ?_
    refine alters_append (.scalar (.text wanted)) ?_ shownPart fun slots rest parts => ?_
    · cases shownText
      exact .atom _
    · simp [Object.including, (parts.holds_iff keeps).not.2 held]

/-- An edit that spares the shared parts does in place what it does to the document. -/
theorem edit {edit : Edit} (presents : heap.Presents project.document root own kept)
    (spares : edit.Spares project.document) (edited : project.edit edit = .ok after) :
    ∃ next ownNext more, heap.edit root edit = .ok next ∧
      next.Presents after.document root ownNext (more ++ kept) ∧
      heap.Advances next edit.uses := by
  cases edit with
  | note | write =>
      cases edited
      exact ⟨heap, own, [], rfl, presents, .refl heap⟩
  | provide name contents =>
      have same : after.document = project.document := by
        simp only [Project.edit] at edited
        split at edited <;> cases edited <;> rfl
      exact ⟨heap, own, [], rfl, same ▸ presents, .refl heap⟩
  | assign =>
      obtain ⟨entries, opens⟩ := spares
      exact presents.assign opens edited
  | default =>
      obtain ⟨entries, opens⟩ := spares
      exact presents.default opens edited
  | append =>
      obtain ⟨items, opens⟩ := spares
      exact presents.append opens edited
  | «include» =>
      obtain ⟨items, opens⟩ := spares
      exact presents.includeText opens edited

end Presents

/-- A run of edits that all spare the shared parts does in place what it does to the document. -/
theorem Presents.editAll (sort : Project → Prop) {edits : List Edit}
    (step : ∀ edit ∈ edits, ∀ {before after : Project}, sort before →
      before.edit edit = .ok after → edit.Spares before.document ∧ sort after)
    {project : Project} (sorted : sort project)
    (presents : heap.Presents project.document root own kept)
    (made : (project.editAll edits).result = .ok ()) :
    ∃ next ownNext more, heap.editAll root edits = .ok next ∧
      next.Presents (project.editAll edits).project.document root ownNext (more ++ kept) ∧
      heap.Advances next (edits.flatMap Edit.uses) ∧ sort (project.editAll edits).project := by
  induction edits generalizing heap project own kept with
  | nil => exact ⟨heap, own, [], rfl, presents, .refl heap, sorted⟩
  | cons edit edits ih =>
      obtain ⟨stepFirst, stepRest⟩ := List.forall_mem_cons.1 step
      cases edited : project.edit edit with
      | error fault => simp [Project.editAll, edited] at made
      | ok after =>
          have madeRest : (after.editAll edits).result = .ok () := by
            simpa [Project.editAll, edited] using made
          obtain ⟨spares, sortedAfter⟩ := stepFirst sorted edited
          obtain ⟨between, ownBetween, early, first, presentsBetween, advances⟩ :=
            presents.edit spares edited
          obtain ⟨next, ownNext, late, rest, presentsNext, advancesRest, sortedNext⟩ :=
            ih stepRest sortedAfter presentsBetween madeRest
          refine ⟨next, ownNext, late ++ early, ?_, ?_, advances.trans advancesRest, ?_⟩
          · simp only [Heap.editAll, List.foldlM_cons, first] at rest ⊢
            exact rest
          · rw [List.append_assoc]
            simpa [Project.editAll, edited] using presentsNext
          · simpa [Project.editAll, edited] using sortedNext

end Heap

end CloudGraph
