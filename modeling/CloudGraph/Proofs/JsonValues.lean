import CloudGraph.Json.Reader
import CloudGraph.Proofs.Entries

/-!
# JSON values

`Value.isJson` tells the values that are JSON from those that only a settings file or a descriptor
can hold. What `Json.read` reads is JSON: `Json.isJson_of_read`.
-/

namespace CloudGraph

namespace Value

mutual

/-- Whether a value is JSON: a text, a number, a truth value, null, or a list or an object of such
values. The keys of an object are texts, and none is there twice. -/
def isJson : Value → Bool
  | .atom (.moment _) => false
  | .atom _ => true
  | .list items => itemsAreJson items
  | .map entries => decide (Entries.keys entries).Nodup && entriesAreJson entries
  | .shared _ => false

/-- `isJson` on the items of a list. -/
def itemsAreJson : List Value → Bool
  | [] => true
  | item :: items => isJson item && itemsAreJson items

/-- `isJson` on the entries of an object. -/
def entriesAreJson : List (Atom × Value) → Bool
  | [] => true
  | (.text _, value) :: entries => isJson value && entriesAreJson entries
  | _ :: _ => false

end

theorem itemsAreJson_iff {items : List Value} :
    itemsAreJson items = true ↔ ∀ item ∈ items, item.isJson = true := by
  induction items with
  | nil => simp [itemsAreJson]
  | cons item items ih => rw [itemsAreJson, Bool.and_eq_true, ih, List.forall_mem_cons]

theorem entriesAreJson_iff {entries : List (Atom × Value)} :
    entriesAreJson entries = true ↔
      ∀ entry ∈ entries, (∃ name, entry.1 = .text name) ∧ entry.2.isJson = true := by
  induction entries with
  | nil => simp [entriesAreJson]
  | cons entry entries ih =>
      obtain ⟨key, value⟩ := entry
      rw [List.forall_mem_cons, ← ih]
      cases key <;> simp [entriesAreJson]

/-- What stands under a key of JSON is JSON. -/
theorem isJson_of_field? {value held : Value} {name : String} (json : value.isJson = true)
    (found : value.field? name = some held) : held.isJson = true := by
  cases value with
  | map entries =>
      rw [isJson, Bool.and_eq_true, entriesAreJson_iff] at json
      have member := Entries.mem_of_find? (Entries.exact_text name) found
      exact (json.2 _ member).2
  | atom | list | shared => cases found

/-- Fields that are set in turn make an object. -/
theorem isJson_ofPairs {pairs : List (Atom × Value)} (json : entriesAreJson pairs = true) :
    (Value.map (Entries.ofPairs Atom.same pairs)).isJson = true := by
  rw [entriesAreJson_iff] at json
  have exact : Entries.AllExact Atom.same pairs := by
    intro pair member
    obtain ⟨name, isText⟩ := (json pair member).1
    exact isText ▸ Entries.exact_text name
  rw [isJson, Bool.and_eq_true, entriesAreJson_iff, decide_eq_true_eq]
  exact ⟨Entries.nodup_keys_putAll exact List.nodup_nil,
    fun entry member => json entry (Entries.mem_of_mem_ofPairs exact member)⟩

end Value

namespace Json

open Value

variable {c next : Cursor} {scalar : Atom}

theorem isJson_of_readNumber (read : readNumber c = .ok (scalar, next)) :
    (Value.atom scalar).isJson = true := by
  unfold readNumber at read
  split at read
  extract_lets at read
  split at read
  next => cases read
  next =>
    split at read
    next =>
      split at read
      next => cases read
      next =>
        rw [← (Prod.mk.inj (Except.ok.inj read)).1]
        rfl
    next =>
      rw [← (Prod.mk.inj (Except.ok.inj read)).1]
      rfl

theorem isJson_of_readScalar (read : readScalar c = .ok (scalar, next)) :
    (Value.atom scalar).isJson = true := by
  -- A word that is read is a scalar; otherwise the next word is tried, and at last a number.
  have word : ∀ {text : String} {named : Atom} {otherwise : Except ReadError (Atom × Cursor)},
      (Value.atom named).isJson = true →
      (otherwise = .ok (scalar, next) → (Value.atom scalar).isJson = true) →
      (if text.toList.isPrefixOf c.rest then
        .ok (named, ⟨c.offset + text.length, c.rest.drop text.length⟩) else otherwise) =
          .ok (scalar, next) → (Value.atom scalar).isJson = true := by
    intro text named otherwise isNamed others found
    split at found
    next =>
      cases found
      exact isNamed
    next => exact others found
  exact word rfl (word rfl (word rfl (word rfl (word rfl (word rfl isJson_of_readNumber))))) read

/-- What is read with some fuel is JSON, when what has been read before is. -/
structure ReadsJson (fuel : Nat) : Prop where
  values : ∀ {c value next}, readValue fuel c = .ok (value, next) → value.isJson = true
  lists : ∀ {c items value next}, itemsAreJson items = true →
    readItems fuel c items = .ok (value, next) → value.isJson = true
  objects : ∀ {c entries value next}, entriesAreJson entries = true →
    readFields fuel c entries = .ok (value, next) → value.isJson = true

namespace ReadsJson

variable {fuel : Nat} (reads : ReadsJson fuel) {value : Value}

include reads

theorem values_succ (read : readValue (fuel + 1) c = .ok (value, next)) : value.isJson = true := by
  unfold readValue at read
  split at read
  next rest isText =>
    cases taken : readText c.offset (c.offset + 1) rest [] with
    | error error => simp [taken, bind, Except.bind] at read
    | ok text =>
        simp only [taken, bind, Except.bind] at read
        cases read
        rfl
  next =>
    extract_lets at read
    split at read
    next =>
      cases read
      rfl
    next => exact reads.objects rfl read
  next =>
    extract_lets at read
    split at read
    next =>
      cases read
      rfl
    next => exact reads.lists rfl read
  next =>
    cases taken : readScalar c with
    | error error => simp [taken, bind, Except.bind] at read
    | ok scalar =>
        simp only [taken, bind, Except.bind] at read
        cases read
        exact isJson_of_readScalar taken

theorem lists_succ {items : List Value} (json : itemsAreJson items = true)
    (read : readItems (fuel + 1) c items = .ok (value, next)) : value.isJson = true := by
  unfold readItems at read
  cases taken : readValue fuel c with
  | error error => simp [taken, bind, Except.bind] at read
  | ok item =>
      have more : itemsAreJson (item.1 :: items) = true := by
        rw [itemsAreJson, reads.values taken, json]
        rfl
      simp only [taken, bind, Except.bind] at read
      split at read
      next =>
        cases read
        rw [itemsAreJson_iff] at more
        rw [isJson, itemsAreJson_iff]
        exact fun other member => more other (List.mem_reverse.1 member)
      next => exact reads.lists more read
      next => cases read

theorem objects_succ {entries : List (Atom × Value)} (json : entriesAreJson entries = true)
    (read : readFields (fuel + 1) c entries = .ok (value, next)) : value.isJson = true := by
  unfold readFields at read
  split at read
  next rest isText =>
    cases named : readText c.offset (c.offset + 1) rest [] with
    | error error => simp [named, bind, Except.bind] at read
    | ok key =>
        simp only [named, bind, Except.bind] at read
        split at read
        next =>
          split at read
          next => cases read
          next item taken =>
            have more : entriesAreJson ((.text key.1, item.1) :: entries) = true := by
              rw [entriesAreJson, reads.values taken, json]
              rfl
            split at read
            next =>
              cases read
              refine isJson_ofPairs ?_
              rw [entriesAreJson_iff] at more ⊢
              exact fun entry member => more entry (List.mem_reverse.1 member)
            next => exact reads.objects more read
            next => cases read
        next => cases read
  next => cases read

end ReadsJson

theorem readsJson (fuel : Nat) : ReadsJson fuel := by
  induction fuel with
  | zero =>
      constructor
      case values => rintro _ _ _ ⟨⟩
      case lists => rintro _ _ _ _ _ ⟨⟩
      case objects => rintro _ _ _ _ _ ⟨⟩
  | succ fuel reads =>
      constructor
      case values => exact reads.values_succ
      case lists => exact reads.lists_succ
      case objects => exact reads.objects_succ

/-- What is read from a text is JSON. -/
theorem isJson_of_read {text : String} {value : Value} (read : Json.read text = .ok value) :
    value.isJson = true := by
  unfold Json.read at read
  simp only [bind, Except.bind] at read
  split at read
  next => cases read
  next =>
    split at read
    next => cases read
    next given found =>
      split at read
      next =>
        cases read
        exact (readsJson _).values found
      next => cases read

end Json

end CloudGraph
