import CloudGraph.Text.Pattern
import Mathlib.Data.List.Basic

/-!
# What patterns take

`Pattern.Takes` says of which texts a pattern consists, without the order in which its ways are
tried. Trying finds exactly these: `Pattern.mem_splits` for every front of a text. The lemmas on
`Shape.readings` take a shape apart piece by piece, and those on `Shape.rewriteFrom` say how a
rewriting goes on where a shape is read and where none is.
-/

namespace CloudGraph.Text

variable {text taken rest : List Char}

namespace Pattern

/-- Whether a pattern is all of a text. -/
def Takes : Pattern → List Char → Prop
  | .empty, text => text = []
  | .one accepts, text => ∃ c, accepts c = true ∧ text = [c]
  | .seq first second, text =>
    ∃ before after, first.Takes before ∧ second.Takes after ∧ text = before ++ after
  | .either first second, text => first.Takes text ∨ second.Takes text
  | .many body, text =>
    ∃ parts : List (List Char), (∀ part ∈ parts, part ≠ [] ∧ body.Takes part) ∧
      text = parts.flatten

end Pattern

section Repeated

variable {take : List Char → List Split} {takes : List Char → Prop}
  (exact : ∀ text taken rest,
    (taken, rest) ∈ take text ↔ takes taken ∧ text = taken ++ rest)

include exact

/-- What is taken again and again is in parts, each of which is taken once and is not empty. -/
theorem parts_of_mem_repeated (tried : (taken, rest) ∈ repeated take text) :
    (∃ parts : List (List Char), (∀ part ∈ parts, part ≠ [] ∧ takes part) ∧
      taken = parts.flatten) ∧ text = taken ++ rest := by
  induction text using repeated.induct generalizing taken with
  | case1 text ih =>
      rw [repeated, List.mem_append, List.mem_flatMap, List.mem_singleton] at tried
      rcases tried with ⟨⟨part, middle⟩, once, more⟩ | stopped
      · obtain ⟨partTakes, text_eq⟩ := (exact _ _ _).1 once
        dsimp only at more
        by_cases shorter : middle.length < text.length
        · rw [dif_pos shorter] at more
          obtain ⟨⟨others, left⟩, again, equal⟩ := List.mem_map.1 more
          obtain ⟨rfl, rfl⟩ := Prod.mk.inj equal
          obtain ⟨⟨parts, partsTake, rfl⟩, middle_eq⟩ := ih middle shorter again
          have nonempty : part ≠ [] := by
            rintro rfl
            simp [text_eq] at shorter
          refine ⟨⟨part :: parts, ?_, rfl⟩, by rw [text_eq, middle_eq, List.append_assoc]⟩
          exact List.forall_mem_cons.2 ⟨⟨nonempty, partTakes⟩, partsTake⟩
        · rw [dif_neg shorter] at more
          cases more
      · obtain ⟨rfl, rfl⟩ := Prod.mk.inj stopped
        exact ⟨⟨[], by simp, rfl⟩, rfl⟩

theorem mem_repeated_of_parts {parts : List (List Char)}
    (partsTake : ∀ part ∈ parts, part ≠ [] ∧ takes part) :
    (parts.flatten, rest) ∈ repeated take (parts.flatten ++ rest) := by
  induction parts with
  | nil =>
      rw [repeated]
      exact List.mem_append_right _ (List.mem_singleton.2 rfl)
  | cons part parts ih =>
      obtain ⟨⟨nonempty, partTakes⟩, othersTake⟩ := List.forall_mem_cons.1 partsTake
      have shorter : (parts.flatten ++ rest).length <
          ((part :: parts).flatten ++ rest).length := by
        have := List.length_pos_iff.2 nonempty
        simp only [List.flatten_cons, List.length_append]
        omega
      have once : (part, parts.flatten ++ rest) ∈ take ((part :: parts).flatten ++ rest) :=
        (exact _ _ _).2 ⟨partTakes, by simp⟩
      rw [repeated]
      refine List.mem_append_left _ (List.mem_flatMap.2 ⟨_, once, ?_⟩)
      dsimp only
      rw [dif_pos shorter]
      exact List.mem_map.2 ⟨_, ih othersTake, rfl⟩

end Repeated

namespace Pattern

/-- Trying finds every way to take a pattern from the front of a text, and no other. -/
theorem mem_splits {pattern : Pattern} :
    (taken, rest) ∈ pattern.splits text ↔ pattern.Takes taken ∧ text = taken ++ rest := by
  induction pattern generalizing text taken rest with
  | empty =>
      rw [splits, Takes, List.mem_singleton, Prod.mk.injEq]
      constructor
      · rintro ⟨rfl, rfl⟩
        exact ⟨rfl, rfl⟩
      · rintro ⟨rfl, rfl⟩
        exact ⟨rfl, rfl⟩
  | one accepts =>
      rw [Takes]
      constructor
      · intro tried
        cases text with
        | nil => cases tried
        | cons c left =>
            rw [splits] at tried
            split at tried
            next accepted =>
              obtain ⟨rfl, rfl⟩ := Prod.mk.inj (List.mem_singleton.1 tried)
              exact ⟨⟨c, accepted, rfl⟩, rfl⟩
            next => cases tried
      · rintro ⟨⟨c, accepted, rfl⟩, rfl⟩
        simp [splits, accepted]
  | seq first second ihFirst ihSecond =>
      rw [splits, Takes, List.mem_flatMap]
      constructor
      · rintro ⟨⟨before, middle⟩, tried, more⟩
        obtain ⟨⟨after, left⟩, triedNext, equal⟩ := List.mem_map.1 more
        obtain ⟨rfl, rfl⟩ := Prod.mk.inj equal
        obtain ⟨firstTakes, rfl⟩ := ihFirst.1 tried
        obtain ⟨secondTakes, rfl⟩ := ihSecond.1 triedNext
        exact ⟨⟨before, after, firstTakes, secondTakes, rfl⟩, (List.append_assoc ..).symm⟩
      · rintro ⟨⟨before, after, firstTakes, secondTakes, rfl⟩, rfl⟩
        refine ⟨(before, after ++ rest), ihFirst.2 ⟨firstTakes, List.append_assoc ..⟩, ?_⟩
        exact List.mem_map.2 ⟨(after, rest), ihSecond.2 ⟨secondTakes, rfl⟩, rfl⟩
  | either first second ihFirst ihSecond =>
      rw [splits, Takes, List.mem_append, ihFirst, ihSecond, or_and_right]
  | many body ih =>
      rw [splits, Takes]
      constructor
      · exact parts_of_mem_repeated fun _ _ _ => ih
      · rintro ⟨⟨parts, partsTake, rfl⟩, rfl⟩
        exact mem_repeated_of_parts (fun _ _ _ => ih) partsTake

theorem takes_one {accepts : Char → Bool} :
    (one accepts).Takes text ↔ ∃ c, accepts c = true ∧ text = [c] :=
  .rfl

theorem takes_seq {first second : Pattern} :
    (seq first second).Takes text ↔
      ∃ before after, first.Takes before ∧ second.Takes after ∧ text = before ++ after :=
  .rfl

@[simp]
theorem takes_word {word : List Char} : (Pattern.word word).Takes text ↔ text = word := by
  induction word generalizing text with
  | nil => rfl
  | cons c word ih =>
      rw [Pattern.word, Takes]
      constructor
      · rintro ⟨_, after, ⟨d, equal, rfl⟩, afterTakes, rfl⟩
        rw [ih.1 afterTakes, beq_iff_eq.1 equal]
        rfl
      · rintro rfl
        exact ⟨[c], word, ⟨c, beq_self_eq_true c, rfl⟩, ih.2 rfl, rfl⟩

@[simp]
theorem takes_optional {body : Pattern} : body.optional.Takes text ↔ body.Takes text ∨ text = [] :=
  Iff.rfl

@[simp]
theorem takes_anyOf {patterns : List Pattern} :
    (anyOf patterns).Takes text ↔ ∃ pattern ∈ patterns, pattern.Takes text := by
  induction patterns with
  | nil => simp [anyOf, Takes]
  | cons pattern patterns ih => rw [anyOf, Takes, ih, List.exists_mem_cons_iff]

/-- Characters of a class in any number. -/
@[simp]
theorem takes_many_one {accepts : Char → Bool} :
    (many (one accepts)).Takes text ↔ ∀ c ∈ text, accepts c = true := by
  constructor
  · rintro ⟨parts, partsTake, rfl⟩ c member
    obtain ⟨part, listed, inPart⟩ := List.mem_flatten.1 member
    obtain ⟨-, d, accepted, rfl⟩ := partsTake part listed
    exact List.mem_singleton.1 inPart ▸ accepted
  · intro accepted
    refine ⟨text.map ([·]), ?_, ?_⟩
    · intro part member
      obtain ⟨c, inText, rfl⟩ := List.mem_map.1 member
      exact ⟨by simp, c, accepted c inText, rfl⟩
    · induction text with
      | nil => rfl
      | cons c text ih => simpa using ih fun d member => accepted d (List.mem_cons_of_mem _ member)

/-- A word in any number. -/
@[simp]
theorem takes_many_word {word : List Char} (nonempty : word ≠ []) :
    (many (Pattern.word word)).Takes text ↔
      ∃ times, text = (List.replicate times word).flatten := by
  constructor
  · rintro ⟨parts, partsTake, rfl⟩
    have all : ∀ part ∈ parts, part = word :=
      fun part member => takes_word.1 (partsTake part member).2
    exact ⟨parts.length, by rw [List.eq_replicate_of_mem all, List.length_replicate]⟩
  · rintro ⟨times, rfl⟩
    refine ⟨_, fun part member => ?_, rfl⟩
    rw [List.eq_of_mem_replicate member]
    exact ⟨nonempty, takes_word.2 rfl⟩

/-- Characters of a class, at least one. -/
@[simp]
theorem takes_several_one {accepts : Char → Bool} :
    (several (one accepts)).Takes text ↔ text ≠ [] ∧ ∀ c ∈ text, accepts c = true := by
  rw [several, Takes]
  constructor
  · rintro ⟨_, after, ⟨c, accepted, rfl⟩, more, rfl⟩
    exact ⟨by simp, List.forall_mem_cons.2 ⟨accepted, takes_many_one.1 more⟩⟩
  · rintro ⟨nonempty, accepted⟩
    obtain ⟨c, after, rfl⟩ := List.exists_cons_of_ne_nil nonempty
    obtain ⟨first, others⟩ := List.forall_mem_cons.1 accepted
    exact ⟨[c], after, ⟨c, first, rfl⟩, takes_many_one.2 others, rfl⟩

end Pattern

namespace Shape

variable {shape : Shape} {pattern : Pattern} {last? : Option Char} {reading : Reading}
  {write : List (List Char) → List Char}

theorem mem_readings_lineStart :
    reading ∈ readings (.lineStart :: shape) last? text ↔
      (∀ c, last? = some c → c = '\n') ∧ reading ∈ shape.readings last? text := by
  cases last? with
  | none => simp [readings]
  | some c => by_cases newline : c = '\n' <;> simp [readings, newline]

theorem mem_readings_lineEnd :
    reading ∈ readings (.lineEnd :: shape) last? text ↔
      endsLine text = true ∧ reading ∈ shape.readings last? text := by
  cases ends : endsLine text <;> simp [readings, ends]

theorem mem_readings_plain :
    reading ∈ readings (.plain pattern :: shape) last? text ↔
      ∃ taken rest, pattern.Takes taken ∧ text = taken ++ rest ∧
        reading ∈ shape.readings (taken.getLast?.or last?) rest := by
  rw [readings, List.mem_flatMap, Prod.exists]
  simp only [Pattern.mem_splits, and_assoc]

theorem mem_readings_kept :
    reading ∈ readings (.kept pattern :: shape) last? text ↔
      ∃ taken rest, pattern.Takes taken ∧ text = taken ++ rest ∧
        ∃ further ∈ shape.readings (taken.getLast?.or last?) rest,
          reading = { further with kept := taken :: further.kept } := by
  rw [readings, List.mem_flatMap, Prod.exists]
  simp only [Pattern.mem_splits, and_assoc, List.mem_map, eq_comm]

/-- Where a shape is read, the rewriting goes on behind it. -/
theorem rewriteFrom_of_reading (found : shape.firstReading? last? text = some reading) :
    shape.rewriteFrom write last? text =
      write reading.kept ++ shape.rewriteFrom write reading.last? reading.rest := by
  rw [rewriteFrom]
  split
  next other foundOther =>
    rw [found, Option.some.injEq] at foundOther
    rw [foundOther]
  next none =>
    rw [found] at none
    cases none

/-- Where no shape is read, a character is copied. -/
theorem rewriteFrom_cons {c : Char} (none : shape.readings last? (c :: rest) = []) :
    shape.rewriteFrom write last? (c :: rest) = c :: shape.rewriteFrom write (some c) rest := by
  rw [rewriteFrom]
  split
  next found => simp [firstReading?, none] at found
  next => rfl

@[simp]
theorem rewriteFrom_nil : shape.rewriteFrom write last? [] = [] := by
  rw [rewriteFrom]
  split
  next found => simpa using List.find?_some found
  next => rfl

end Shape

end CloudGraph.Text
