import CloudGraph.Build.Project
import Mathlib.Data.List.Nodup
import Mathlib.Data.List.Perm.Basic

/-!
# Laws of ordered entries

What setting a key does to the lookups and to the keys of some entries. The laws hold
for a key that is the same as itself and as no other (`Entries.Exact`), which every text
is: numbers and truth values may be one key in several spellings.

`Entries.find?_putAll_of_agreeing` is the law of several writers: when they agree on a
key, the order in which they set it does not matter.
-/

namespace CloudGraph

/-- Only a text is the same key as a text. -/
theorem Atom.same_text_iff {key : Atom} {name : String} :
    Atom.same key (.text name) = true ↔ key = .text name := by
  cases key <;> simp [Atom.same, Atom.int?]

namespace Entries

variable {κ α : Type} {same : κ → κ → Bool}

/-- A key that is the same as itself and as no other key. -/
def Exact (same : κ → κ → Bool) (key : κ) : Prop :=
  ∀ other, same other key = true ↔ other = key

theorem exact_text (name : String) : Exact Atom.same (.text name) :=
  fun _ => Atom.same_text_iff

theorem exact_name (name : String) : Exact Project.sameName name := by
  intro other
  simp [Project.sameName]

namespace Exact

variable {key other : κ}

theorem same_self (exact : Exact same key) : same key key = true :=
  (exact key).2 rfl

theorem same_other (exact : Exact same key) (different : other ≠ key) :
    same other key = false := by
  cases equal : same other key with
  | false => rfl
  | true => exact absurd ((exact other).1 equal) different

end Exact

/-- Sets each pair in turn. -/
def putAll (same : κ → κ → Bool) (entries : Entries κ α) (pairs : List (κ × α)) : Entries κ α :=
  pairs.foldl (fun entries pair => put same entries pair.1 pair.2) entries

theorem ofPairs_eq_putAll (pairs : List (κ × α)) : ofPairs same pairs = putAll same [] pairs :=
  rfl

@[simp]
theorem putAll_nil (entries : Entries κ α) : putAll same entries [] = entries := rfl

@[simp]
theorem putAll_cons (entries : Entries κ α) (pair : κ × α) (pairs : List (κ × α)) :
    putAll same entries (pair :: pairs) = putAll same (put same entries pair.1 pair.2) pairs :=
  rfl

@[simp]
theorem putAll_append (entries : Entries κ α) (first second : List (κ × α)) :
    putAll same entries (first ++ second) = putAll same (putAll same entries first) second := by
  simp [putAll, List.foldl_append]

@[simp]
theorem keys_nil : keys ([] : Entries κ α) = [] := rfl

@[simp]
theorem keys_cons (entry : κ × α) (entries : Entries κ α) :
    keys (entry :: entries) = entry.1 :: keys entries := rfl

@[simp]
theorem keys_append (first second : Entries κ α) :
    keys (first ++ second) = keys first ++ keys second :=
  List.map_append

theorem mem_keys_iff {entries : Entries κ α} {key : κ} :
    key ∈ keys entries ↔ ∃ value, (key, value) ∈ entries := by
  simp [keys]

theorem find?_cons (entry : κ × α) (entries : Entries κ α) (key : κ) :
    find? same (entry :: entries) key =
      if same entry.1 key then some entry.2 else find? same entries key := by
  by_cases equal : same entry.1 key = true <;> simp [find?, equal]

/-- What is found among two lots of entries is found among the first if it is there. -/
theorem find?_append (first second : Entries κ α) (key : κ) :
    find? same (first ++ second) key = (find? same first key).or (find? same second key) := by
  induction first with
  | nil => simp [find?]
  | cons entry first ih =>
      rw [List.cons_append, find?_cons, find?_cons, ih]
      by_cases equal : same entry.1 key = true <;> simp [equal]

section Lookup

variable {key other : κ} {value : α} {entries : Entries κ α}

/-- What is found stands among the entries under the key. -/
theorem mem_of_find? (exact : Exact same key) (found : find? same entries key = some value) :
    (key, value) ∈ entries := by
  induction entries with
  | nil => simp [find?] at found
  | cons entry rest ih =>
      obtain ⟨head, held⟩ := entry
      rw [find?_cons] at found
      by_cases equal : same head key = true
      · have headKey : head = key := (exact head).1 equal
        rw [if_pos equal] at found
        cases found
        rw [headKey]
        exact List.mem_cons_self
      · rw [if_neg equal] at found
        exact List.mem_cons_of_mem _ (ih found)

theorem find?_eq_none_iff (exact : Exact same key) :
    find? same entries key = none ↔ key ∉ keys entries := by
  induction entries with
  | nil => simp [find?]
  | cons entry rest ih =>
      rw [find?_cons, keys_cons, List.mem_cons, not_or, ← ih]
      by_cases equal : entry.1 = key
      · simp [equal, exact.same_self]
      · simp [exact.same_other equal, Ne.symm equal]

theorem mem_keys_iff_find? (exact : Exact same key) :
    key ∈ keys entries ↔ ∃ value, find? same entries key = some value := by
  rw [← Option.ne_none_iff_exists', ne_eq, find?_eq_none_iff exact, not_not]

/-- With distinct keys, every entry is the one that is found under its key. -/
theorem find?_of_mem (exact : Exact same key) (distinct : (keys entries).Nodup)
    (member : (key, value) ∈ entries) : find? same entries key = some value := by
  induction entries with
  | nil => simp at member
  | cons entry rest ih =>
      rw [keys_cons, List.nodup_cons] at distinct
      rw [find?_cons]
      rcases List.mem_cons.1 member with rfl | later
      · rw [if_pos exact.same_self]
      · have different : entry.1 ≠ key := by
          intro equal
          exact distinct.1 (equal ▸ mem_keys_iff.2 ⟨value, later⟩)
        rw [exact.same_other different]
        exact ih distinct.2 later

theorem find?_iff_mem (exact : Exact same key) (distinct : (keys entries).Nodup) :
    find? same entries key = some value ↔ (key, value) ∈ entries :=
  ⟨mem_of_find? exact, find?_of_mem exact distinct⟩

/-- A permutation of entries with distinct keys changes no lookup. -/
theorem find?_perm {permuted : Entries κ α} (exact : Exact same key)
    (distinct : (keys entries).Nodup) (perm : permuted.Perm entries) :
    find? same permuted key = find? same entries key := by
  have distinct' : (keys permuted).Nodup := (perm.map _).nodup_iff.2 distinct
  apply Option.ext
  intro value
  rw [find?_iff_mem exact distinct', find?_iff_mem exact distinct, perm.mem_iff]

/-- What holds of all entries holds after setting a key, when it holds of the new value
under every spelling of the key. -/
theorem forall_mem_put {holds : κ × α → Prop} (old : ∀ entry ∈ entries, holds entry)
    (own : holds (key, value))
    (spelled : ∀ entry ∈ entries, same entry.1 key = true → holds (entry.1, value)) :
    ∀ entry ∈ put same entries key value, holds entry := by
  induction entries with
  | nil =>
      intro entry member
      rw [put, List.mem_singleton] at member
      exact member ▸ own
  | cons head rest ih =>
      intro entry member
      rw [put] at member
      by_cases equal : same head.1 key = true
      · rw [if_pos equal] at member
        rcases List.mem_cons.1 member with rfl | later
        · exact spelled head List.mem_cons_self equal
        · exact old entry (List.mem_cons_of_mem _ later)
      · rw [if_neg equal] at member
        rcases List.mem_cons.1 member with rfl | later
        · exact old _ List.mem_cons_self
        · exact ih (fun entry member => old entry (List.mem_cons_of_mem _ member))
            (fun entry member => spelled entry (List.mem_cons_of_mem _ member)) entry later

theorem mem_put {entry : κ × α} (exact : Exact same key)
    (member : entry ∈ put same entries key value) :
    entry = (key, value) ∨ entry ∈ entries := by
  have each : ∀ entry ∈ put same entries key value, entry = (key, value) ∨ entry ∈ entries := by
    refine forall_mem_put (fun _ old => .inr old) (.inl rfl) fun other _ equal => .inl ?_
    rw [(exact _).1 equal]
  exact each entry member

/-- Setting a key leaves the entries under other keys alone. -/
theorem mem_put_of_ne {entry : κ × α} (exact : Exact same key) (different : entry.1 ≠ key) :
    entry ∈ put same entries key value ↔ entry ∈ entries := by
  induction entries with
  | nil => simpa [put] using fun equal => different (congrArg Prod.fst equal)
  | cons head rest ih =>
      by_cases equal : same head.1 key = true
      · have headKey : head.1 = key := (exact head.1).1 equal
        have notHead : ∀ held, entry ≠ (head.1, held) := by
          rintro held rfl
          exact different headKey
        simp [put, equal, notHead]
      · simp [put, equal, ih]

theorem find?_put_self (exact : Exact same key) :
    find? same (put same entries key value) key = some value := by
  induction entries with
  | nil => simp [put, find?, exact.same_self]
  | cons entry rest ih =>
      by_cases equal : same entry.1 key = true
      · simp [put, find?_cons, equal]
      · simp [put, find?_cons, equal, ih]

theorem find?_put_other (exact : Exact same key) (exactOther : Exact same other)
    (different : other ≠ key) :
    find? same (put same entries key value) other = find? same entries other := by
  induction entries with
  | nil => simp [put, find?, exactOther.same_other (Ne.symm different)]
  | cons entry rest ih =>
      by_cases equal : same entry.1 key = true
      · have headKey : entry.1 = key := (exact entry.1).1 equal
        have headOther : same entry.1 other = false :=
          exactOther.same_other (headKey ▸ Ne.symm different)
        simp [put, equal, find?_cons, headOther]
      · simp [put, equal, find?_cons, ih]

/-- Setting a key changes the lookup of that key alone. -/
theorem find?_put [DecidableEq κ] (exact : Exact same key) (exactOther : Exact same other) :
    find? same (put same entries key value) other =
      if other = key then some value else find? same entries other := by
  by_cases equal : other = key
  · rw [if_pos equal, equal, find?_put_self exact]
  · rw [if_neg equal, find?_put_other exact exactOther equal]

/-- A new key comes last; a key that is there keeps its place. -/
theorem keys_put [DecidableEq κ] (exact : Exact same key) :
    keys (put same entries key value) =
      if key ∈ keys entries then keys entries else keys entries ++ [key] := by
  induction entries with
  | nil => simp [put]
  | cons entry rest ih =>
      by_cases equal : entry.1 = key
      · simp [put, equal, exact.same_self]
      · rw [put, if_neg (by simp [exact.same_other equal]), keys_cons, keys_cons, ih]
        by_cases member : key ∈ keys rest <;> simp [member, Ne.symm equal]

theorem mem_keys_put [DecidableEq κ] (exact : Exact same key) :
    other ∈ keys (put same entries key value) ↔ other = key ∨ other ∈ keys entries := by
  rw [keys_put exact]
  by_cases member : key ∈ keys entries
  · rw [if_pos member]
    constructor
    · exact Or.inr
    · rintro (rfl | old)
      · exact member
      · exact old
  · rw [if_neg member, List.mem_append, List.mem_singleton, or_comm]

theorem nodup_keys_put [DecidableEq κ] (exact : Exact same key) (distinct : (keys entries).Nodup) :
    (keys (put same entries key value)).Nodup := by
  rw [keys_put exact]
  by_cases member : key ∈ keys entries
  · rwa [if_pos member]
  · rw [if_neg member]
    exact List.nodup_append.2 ⟨distinct, List.nodup_singleton key, by
      intro old oldMember new newMember equal
      rw [List.mem_singleton] at newMember
      exact member (newMember ▸ equal ▸ oldMember)⟩

/-- Setting a key again leaves the last value alone. -/
theorem put_put (exact : Exact same key) (again : α) :
    put same (put same entries key value) key again = put same entries key again := by
  induction entries with
  | nil => simp [put, exact.same_self]
  | cons entry rest ih =>
      by_cases equal : same entry.1 key = true
      · simp [put, equal]
      · simp [put, equal, ih]

/-- A key that is not there is put at the end. -/
theorem put_of_not_mem (exact : Exact same key) (absent : key ∉ keys entries) :
    put same entries key value = entries ++ [(key, value)] := by
  induction entries with
  | nil => rfl
  | cons entry rest ih =>
      rw [keys_cons, List.mem_cons, not_or] at absent
      have different : same entry.1 key = false := exact.same_other (Ne.symm absent.1)
      simp [put, different, ih absent.2]

/-- The last entry is changed in its place. -/
theorem put_last (exact : Exact same key) (absent : key ∉ keys entries) (again : α) :
    put same (entries ++ [(key, value)]) key again = entries ++ [(key, again)] := by
  rw [← put_of_not_mem exact absent, put_put exact, put_of_not_mem exact absent]

/-- The order of two keys that are set does not matter when the first one is there already. -/
theorem put_comm (exact : Exact same key) (exactOther : Exact same other) (different : key ≠ other)
    (member : key ∈ keys entries) (held : α) :
    put same (put same entries other held) key value =
      put same (put same entries key value) other held := by
  induction entries with
  | nil => cases member
  | cons entry rest ih =>
      by_cases equal : entry.1 = key
      · have notOther : same key other = false := exactOther.same_other different
        simp [put, equal, exact.same_self, notOther]
      · have later : key ∈ keys rest := by
          rw [keys_cons, List.mem_cons] at member
          exact member.resolve_left (Ne.symm equal)
        by_cases equalOther : same entry.1 other = true
        · simp [put, equalOther, exact.same_other equal]
        · simp [put, equalOther, exact.same_other equal, ih later]

end Lookup

section Several

variable {key : κ} {value : α} {entries : Entries κ α} {pairs : List (κ × α)}

/-- Pairs whose keys are the same as no other key. -/
def AllExact (same : κ → κ → Bool) (pairs : List (κ × α)) : Prop :=
  ∀ pair ∈ pairs, Exact same pair.1

theorem AllExact.head {pair : κ × α} (exact : AllExact same (pair :: pairs)) :
    Exact same pair.1 :=
  exact pair List.mem_cons_self

theorem AllExact.tail {pair : κ × α} (exact : AllExact same (pair :: pairs)) :
    AllExact same pairs :=
  fun later member => exact later (List.mem_cons_of_mem _ member)

theorem mem_keys_putAll [DecidableEq κ] (exact : AllExact same pairs) :
    key ∈ keys (putAll same entries pairs) ↔ key ∈ keys entries ∨ key ∈ keys pairs := by
  induction pairs generalizing entries with
  | nil => simp
  | cons pair pairs ih =>
      rw [putAll_cons, ih exact.tail, mem_keys_put exact.head, keys_cons, List.mem_cons]
      tauto

theorem nodup_keys_putAll [DecidableEq κ] (exact : AllExact same pairs)
    (distinct : (keys entries).Nodup) : (keys (putAll same entries pairs)).Nodup := by
  induction pairs generalizing entries with
  | nil => exact distinct
  | cons pair pairs ih => exact ih exact.tail (nodup_keys_put exact.head distinct)

/-- What is set last under a key counts, and what was there only when nothing is set. -/
theorem find?_putAll [DecidableEq κ] (exactKey : Exact same key) (exact : AllExact same pairs) :
    find? same (putAll same entries pairs) key =
      (find? same (putAll same [] pairs) key).or (find? same entries key) := by
  induction pairs generalizing entries with
  | nil => simp [find?]
  | cons pair pairs ih =>
      have alone : find? same (putAll same (put same [] pair.1 pair.2) pairs) key =
          (find? same (putAll same [] pairs) key).or (find? same (put same [] pair.1 pair.2) key) :=
        ih exact.tail
      rw [putAll_cons, putAll_cons, ih exact.tail, alone, find?_put exact.head exactKey,
        find?_put exact.head exactKey]
      by_cases equal : key = pair.1
      · simp [equal]
      · simp [equal, find?]

/-- A key that is not set keeps what is found under it. -/
theorem find?_putAll_of_not_mem [DecidableEq κ] (exactKey : Exact same key)
    (exact : AllExact same pairs) (absent : key ∉ keys pairs) :
    find? same (putAll same entries pairs) key = find? same entries key := by
  have none : find? same (putAll same [] pairs) key = none := by
    rw [find?_eq_none_iff exactKey, mem_keys_putAll exact]
    simpa using absent
  rw [find?_putAll exactKey exact, none, Option.none_or]

/-- A key that is set, however often, to one value has that value. -/
theorem find?_putAll_of_mem [DecidableEq κ] (exactKey : Exact same key)
    (exact : AllExact same pairs) (member : (key, value) ∈ pairs)
    (agree : ∀ pair ∈ pairs, pair.1 = key → pair.2 = value) :
    find? same (putAll same entries pairs) key = some value := by
  induction pairs generalizing entries with
  | nil => cases member
  | cons pair pairs ih =>
      rw [putAll_cons]
      have agreeRest := fun later laterMember => agree later (List.mem_cons_of_mem _ laterMember)
      by_cases again : key ∈ keys pairs
      · obtain ⟨held, later⟩ := mem_keys_iff.1 again
        obtain rfl := agreeRest _ later rfl
        exact ih exact.tail later agreeRest
      · rw [find?_putAll_of_not_mem exactKey exact.tail again]
        rcases List.mem_cons.1 member with rfl | later
        · exact find?_put_self exactKey
        · exact absurd (mem_keys_iff.2 ⟨value, later⟩) again

/-- Every entry after setting some pairs in no entries is one of them. -/
theorem mem_of_mem_ofPairs {entry : κ × α} (exact : AllExact same pairs)
    (member : entry ∈ ofPairs same pairs) : entry ∈ pairs := by
  have step : ∀ {entries : Entries κ α}, entry ∈ putAll same entries pairs →
      entry ∈ entries ∨ entry ∈ pairs := by
    clear member
    induction pairs with
    | nil => exact fun old => .inl old
    | cons pair pairs ih =>
        intro entries member
        rcases ih exact.tail member with before | later
        · rcases mem_put exact.head before with rfl | old
          · exact .inr List.mem_cons_self
          · exact .inl old
        · exact .inr (List.mem_cons_of_mem _ later)
  exact (step member).resolve_left List.not_mem_nil

theorem AllExact.ofPairs (exact : AllExact same pairs) : AllExact same (ofPairs same pairs) :=
  fun entry member => exact entry (mem_of_mem_ofPairs exact member)

end Several

section Writers

variable {ω : Type} {key : κ} {value : α}

/-- What a writer leaves under a key when it writes alone. -/
def lastOf (same : κ → κ → Bool) (pairs : List (κ × α)) (key : κ) : Option α :=
  find? same (ofPairs same pairs) key

variable {pairsOf : ω → List (κ × α)} {writers : List ω}

theorem mem_keys_iff_lastOf [DecidableEq κ] {pairs : List (κ × α)} (exactKey : Exact same key)
    (exact : AllExact same pairs) :
    key ∈ keys pairs ↔ ∃ value, lastOf same pairs key = some value := by
  rw [lastOf, ← mem_keys_iff_find? exactKey, ofPairs_eq_putAll, mem_keys_putAll exact]
  simp

/-- When all writers of a key leave the same value there, that value is found in the end,
whatever their order. -/
theorem find?_putAll_of_agreeing [DecidableEq κ] (exactKey : Exact same key)
    (exact : ∀ writer ∈ writers, AllExact same (pairsOf writer))
    (agree : ∀ first ∈ writers, ∀ second ∈ writers, ∀ a b,
      lastOf same (pairsOf first) key = some a →
        lastOf same (pairsOf second) key = some b → a = b) :
    find? same (ofPairs same (writers.flatMap pairsOf)) key = some value ↔
      ∃ writer ∈ writers, lastOf same (pairsOf writer) key = some value := by
  rw [ofPairs_eq_putAll]
  induction writers generalizing value with
  | nil => simp [find?]
  | cons writer writers ih =>
      have exactTail : AllExact same (writers.flatMap pairsOf) := by
        intro pair member
        obtain ⟨later, laterMember, written⟩ := List.mem_flatMap.1 member
        exact exact later (List.mem_cons_of_mem _ laterMember) pair written
      have ih : ∀ {value : α},
          find? same (putAll same [] (writers.flatMap pairsOf)) key = some value ↔
            ∃ writer ∈ writers, lastOf same (pairsOf writer) key = some value :=
        ih (fun later member => exact later (List.mem_cons_of_mem _ member))
          (fun first member second member' =>
            agree first (List.mem_cons_of_mem _ member) second (List.mem_cons_of_mem _ member'))
      rw [List.flatMap_cons, putAll_append, find?_putAll exactKey exactTail]
      constructor
      · intro found
        cases later : find? same (putAll same [] (writers.flatMap pairsOf)) key with
        | some held =>
            rw [later, Option.some_or] at found
            obtain ⟨last, member, written⟩ := ih.1 (found ▸ later)
            exact ⟨last, List.mem_cons_of_mem _ member, written⟩
        | none =>
            rw [later, Option.none_or] at found
            exact ⟨writer, List.mem_cons_self, found⟩
      · rintro ⟨writing, member, written⟩
        cases later : find? same (putAll same [] (writers.flatMap pairsOf)) key with
        | some held =>
            -- A later writer sets the key too, and leaves what this one leaves.
            obtain ⟨last, lastMember, lastWritten⟩ := ih.1 later
            have equal : value = held := agree writing member last
              (List.mem_cons_of_mem _ lastMember) value held written lastWritten
            rw [Option.some_or, equal]
        | none =>
            rw [Option.none_or]
            rcases List.mem_cons.1 member with rfl | laterMember
            · exact written
            · rw [ih.2 ⟨writing, laterMember, written⟩] at later
              cases later

end Writers

end Entries

end CloudGraph
