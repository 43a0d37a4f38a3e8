import CloudGraph.Proofs.Entries
import Mathlib.Data.List.Induction

/-!
# Overlays

`Entries.overlay` lays entries over others: the keys of the first keep their order and take the
values of the second where it has them, and the new keys of the second follow in theirs. Setting
the pairs of the second one after another comes to the same, also when a key is set more than
once: `Entries.putAll_eq_overlay`.
-/

namespace CloudGraph.Entries

variable {κ α : Type} [DecidableEq κ] {same : κ → κ → Bool}

/-- Entries with the values of others where those have them. -/
def renewed (same : κ → κ → Bool) (first second : Entries κ α) : Entries κ α :=
  first.map fun entry => (entry.1, (find? same second entry.1).getD entry.2)

/-- The first entries with the values of the second where it has them, then the entries of the
second whose keys are new. -/
def overlay (same : κ → κ → Bool) (first second : Entries κ α) : Entries κ α :=
  renewed same first second ++ second.filter fun entry => entry.1 ∉ keys first

variable {first second entries : Entries κ α} {key : κ} {value : α}

omit [DecidableEq κ] in
@[simp]
theorem keys_renewed : keys (renewed same first second) = keys first := by
  simp [renewed, keys, Function.comp_def]

@[simp]
theorem overlay_nil_right (first : Entries κ α) : overlay same first [] = first := by
  simp [overlay, renewed, find?]

@[simp]
theorem overlay_nil_left (second : Entries κ α) : overlay same [] second = second := by
  simp [overlay, renewed]

/-- Entries with other keys go to the end. -/
theorem overlay_of_disjoint (exact : AllExact same first)
    (disjoint : (keys first).Disjoint (keys second)) :
    overlay same first second = first ++ second := by
  unfold overlay renewed
  have old : ∀ entry ∈ first,
      (entry.1, (find? same second entry.1).getD entry.2) = entry := by
    intro entry member
    have absent : entry.1 ∉ keys second := disjoint (List.mem_map_of_mem member)
    rw [(find?_eq_none_iff (exact entry member)).2 absent, Option.getD_none]
  have new : ∀ entry ∈ second, decide (entry.1 ∉ keys first) = true := by
    intro entry member
    exact decide_eq_true fun inFirst => disjoint inFirst (List.mem_map_of_mem member)
  rw [List.map_congr_left old, List.map_id', List.filter_eq_self.2 new]

/-- An entry that is there already changes nothing. -/
theorem overlay_cons_of_mem (exact : AllExact same first) (distinct : (keys first).Nodup)
    {entry : κ × α} (member : entry ∈ first) (absent : entry.1 ∉ keys second) :
    overlay same first (entry :: second) = overlay same first second := by
  have old : renewed same first (entry :: second) = renewed same first second := by
    refine List.map_congr_left fun other otherMember => ?_
    rw [find?_cons]
    split
    next equal =>
      have sameKey : entry.1 = other.1 := (exact other otherMember entry.1).1 equal
      have sameEntry : entry = other := List.inj_on_of_nodup_map distinct member otherMember sameKey
      subst sameEntry
      rw [(find?_eq_none_iff (exact entry member)).2 absent, Option.getD_some, Option.getD_none]
    next => rfl
  have there : entry.1 ∈ keys first := List.mem_map_of_mem member
  unfold overlay
  rw [old, List.filter_cons_of_neg (by simpa using there)]

theorem put_append_of_mem (exact : Exact same key) (member : key ∈ keys first) :
    put same (first ++ second) key value = put same first key value ++ second := by
  induction first with
  | nil => cases member
  | cons entry first ih =>
      by_cases equal : entry.1 = key
      · simp [put, equal, exact.same_self]
      · have rest : key ∈ keys first := (List.mem_cons.1 member).resolve_left (Ne.symm equal)
        simp [put, exact.same_other equal, ih rest]

omit [DecidableEq κ] in
theorem put_append_of_not_mem (exact : Exact same key) (absent : key ∉ keys first) :
    put same (first ++ second) key value = first ++ put same second key value := by
  induction first with
  | nil => rfl
  | cons entry first ih =>
      rw [keys_cons, List.mem_cons, not_or] at absent
      simp [put, exact.same_other (Ne.symm absent.1), ih absent.2]

/-- A key that is there once takes the value in its place. -/
theorem put_of_mem (exact : Exact same key) (distinct : (keys entries).Nodup)
    (member : key ∈ keys entries) :
    put same entries key value =
      entries.map fun entry => (entry.1, if entry.1 = key then value else entry.2) := by
  induction entries with
  | nil => cases member
  | cons entry entries ih =>
      rw [keys_cons, List.nodup_cons] at distinct
      by_cases equal : entry.1 = key
      · have others : ∀ other ∈ entries,
            (other.1, if other.1 = key then value else other.2) = other := by
          intro other otherMember
          have different : other.1 ≠ key := by
            intro again
            exact distinct.1 (equal.trans again.symm ▸ List.mem_map_of_mem otherMember)
          rw [if_neg different]
        rw [List.map_cons, List.map_congr_left others, List.map_id']
        simp [put, equal, exact.same_self]
      · have rest : key ∈ keys entries := (List.mem_cons.1 member).resolve_left (Ne.symm equal)
        simp [put, exact.same_other equal, equal, ih distinct.2 rest]

theorem filter_put (exact : Exact same key) (keep : κ → Bool) :
    (put same entries key value).filter (fun entry => keep entry.1) =
      if keep key then put same (entries.filter fun entry => keep entry.1) key value
      else entries.filter fun entry => keep entry.1 := by
  induction entries with
  | nil => cases kept : keep key <;> simp [put, kept]
  | cons entry entries ih =>
      by_cases equal : entry.1 = key
      · cases kept : keep key <;> simp [put, equal, exact.same_self, kept]
      · cases kept : keep key <;> cases keptEntry : keep entry.1 <;>
          simp [put, exact.same_other equal, kept, keptEntry, ih]

/-- Setting a key in others sets it in what they renew, if it is there. -/
theorem renewed_put_of_mem (exactKey : Exact same key) (exact : AllExact same first)
    (distinct : (keys first).Nodup) (member : key ∈ keys first) :
    renewed same first (put same second key value) =
      put same (renewed same first second) key value := by
  have again : key ∈ keys (renewed same first second) := by rwa [keys_renewed]
  have once : (keys (renewed same first second)).Nodup := by rwa [keys_renewed]
  rw [put_of_mem exactKey once again, renewed, renewed, List.map_map]
  refine List.map_congr_left fun entry entryMember => ?_
  rw [find?_put exactKey (exact entry entryMember)]
  by_cases equal : entry.1 = key <;> simp [equal]

theorem renewed_put_of_not_mem (exactKey : Exact same key) (exact : AllExact same first)
    (absent : key ∉ keys first) :
    renewed same first (put same second key value) = renewed same first second := by
  refine List.map_congr_left fun entry entryMember => ?_
  have different : entry.1 ≠ key := by
    rintro rfl
    exact absent (List.mem_map_of_mem entryMember)
  rw [find?_put exactKey (exact entry entryMember), if_neg different]

/-- Setting a key in what is laid over sets it in the overlay. -/
theorem overlay_put (exactKey : Exact same key) (exact : AllExact same first)
    (distinct : (keys first).Nodup) :
    overlay same first (put same second key value) =
      put same (overlay same first second) key value := by
  unfold overlay
  rw [filter_put exactKey fun key => key ∉ keys first]
  by_cases member : key ∈ keys first
  · rw [put_append_of_mem exactKey (by rwa [keys_renewed]),
      renewed_put_of_mem exactKey exact distinct member, if_neg (by simp [member])]
  · rw [put_append_of_not_mem exactKey (by rwa [keys_renewed]),
      renewed_put_of_not_mem exactKey exact member, if_pos (by simp [member])]

/-- Setting pairs one after another lays what they come to over the entries. -/
theorem putAll_eq_overlay {pairs : List (κ × α)} (exactPairs : AllExact same pairs)
    (exact : AllExact same first) (distinct : (keys first).Nodup) :
    putAll same first pairs = overlay same first (ofPairs same pairs) := by
  induction pairs using List.reverseRecOn with
  | nil => exact (overlay_nil_right first).symm
  | append_singleton pairs pair ih =>
      have earlier : AllExact same pairs :=
        fun other member => exactPairs other (List.mem_append_left _ member)
      have last : Exact same pair.1 := exactPairs pair (by simp)
      rw [ofPairs_eq_putAll, putAll_append, putAll_append, ih earlier, ofPairs_eq_putAll]
      exact (overlay_put last exact distinct).symm

example : overlay Project.sameName [("a", 1), ("b", 2)] [("c", 3), ("a", 4)] =
    [("a", 4), ("b", 2), ("c", 3)] := by decide

end CloudGraph.Entries
