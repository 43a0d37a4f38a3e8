import CloudGraph.Yaml.Tags
import Mathlib.Data.List.Basic
import Mathlib.Data.List.Count
import Mathlib.Data.List.TakeWhile

/-!
# The lines of a text

`Text.splitOn` and `Text.joinWith` are inverse to each other, so a text is its lines. The quotes
of a tag are taken off line by line, and `Tags.Tagged` says of which lines: a text keeps every
quote exactly when none of its lines is tagged, `unquoteTags_eq_self_iff`. Texts that stand below
each other are treated apart, `unquoteTags_joinWith`.
-/

namespace CloudGraph

namespace Text

variable {separator : Char}

theorem splitOn_ne_nil (separator : Char) (text : List Char) : splitOn separator text ≠ [] := by
  cases text with
  | nil => simp [splitOn]
  | cons c rest =>
      rw [splitOn]
      split
      · simp
      · split <;> simp

@[simp]
theorem splitOn_cons_self (rest : List Char) :
    splitOn separator (separator :: rest) = [] :: splitOn separator rest := by
  simp [splitOn]

theorem splitOn_cons_of_ne {c : Char} {rest line : List Char} {lines : List (List Char)}
    (other : c ≠ separator) (parts : splitOn separator rest = line :: lines) :
    splitOn separator (c :: rest) = (c :: line) :: lines := by
  simp [splitOn, other, parts]

/-- A text without the separator goes in front of the first part. -/
theorem splitOn_append_of_not_mem {before rest line : List Char} {lines : List (List Char)}
    (free : separator ∉ before) (parts : splitOn separator rest = line :: lines) :
    splitOn separator (before ++ rest) = (before ++ line) :: lines := by
  induction before with
  | nil => exact parts
  | cons c before ih =>
      rw [List.mem_cons, not_or] at free
      exact splitOn_cons_of_ne (Ne.symm free.1) (ih free.2)

theorem splitOn_of_not_mem {text : List Char} (free : separator ∉ text) :
    splitOn separator text = [text] := by
  have parts : splitOn separator (text ++ []) = [text ++ []] := splitOn_append_of_not_mem free rfl
  simpa using parts

/-- A text without the separator goes to the end of the last part. -/
theorem splitOn_append_end {rest : List Char} (free : separator ∉ rest) (text : List Char) :
    ∃ init last, splitOn separator text = init ++ [last] ∧
      splitOn separator (text ++ rest) = init ++ [last ++ rest] := by
  induction text with
  | nil => exact ⟨[], [], rfl, splitOn_of_not_mem free⟩
  | cons d text ih =>
      obtain ⟨init, last, parts, longer⟩ := ih
      by_cases equal : d = separator
      · refine ⟨[] :: init, last, ?_, ?_⟩ <;> simp [equal, parts, longer]
      · cases init with
        | nil =>
            refine ⟨[], d :: last, splitOn_cons_of_ne equal parts, ?_⟩
            exact splitOn_cons_of_ne equal longer
        | cons first init =>
            refine ⟨(d :: first) :: init, last, splitOn_cons_of_ne equal parts, ?_⟩
            exact splitOn_cons_of_ne equal longer

theorem splitOn_append_cons (before rest : List Char) :
    splitOn separator (before ++ separator :: rest) =
      splitOn separator before ++ splitOn separator rest := by
  induction before with
  | nil => simp [splitOn]
  | cons c before ih =>
      by_cases equal : c = separator
      · simp [equal, ih]
      · obtain ⟨line, lines, parts⟩ := List.exists_cons_of_ne_nil
          (splitOn_ne_nil separator before)
        rw [List.cons_append, splitOn_cons_of_ne equal parts,
          splitOn_cons_of_ne equal (by rw [ih, parts, List.cons_append]), List.cons_append]

theorem not_mem_of_mem_splitOn {text line : List Char} (member : line ∈ splitOn separator text) :
    separator ∉ line := by
  induction text generalizing line with
  | nil => simp_all [splitOn]
  | cons c rest ih =>
      obtain ⟨first, lines, parts⟩ := List.exists_cons_of_ne_nil
        (splitOn_ne_nil separator rest)
      rw [parts] at ih
      by_cases equal : c = separator
      · rw [equal, splitOn_cons_self, parts] at member
        rcases List.mem_cons.1 member with rfl | member
        · simp
        · exact ih member
      · rw [splitOn_cons_of_ne equal parts] at member
        rcases List.mem_cons.1 member with rfl | member
        · simp [Ne.symm equal, ih]
        · exact ih (List.mem_cons_of_mem _ member)

theorem joinWith_cons {between part : List Char} {parts : List (List Char)} (more : parts ≠ []) :
    joinWith between (part :: parts) = part ++ between ++ joinWith between parts := by
  cases parts with
  | nil => exact absurd rfl more
  | cons next parts => rfl

theorem joinWith_append {between : List Char} {first second : List (List Char)}
    (someFirst : first ≠ []) (someSecond : second ≠ []) :
    joinWith between (first ++ second) =
      joinWith between first ++ between ++ joinWith between second := by
  induction first with
  | nil => exact absurd rfl someFirst
  | cons part first ih =>
      cases first with
      | nil => exact joinWith_cons someSecond
      | cons next first =>
          rw [List.cons_append, joinWith_cons (List.append_ne_nil_of_left_ne_nil (by simp) _),
            ih (by simp), joinWith_cons (List.cons_ne_nil next first)]
          simp only [List.append_assoc]

theorem joinWith_splitOn (text : List Char) :
    joinWith [separator] (splitOn separator text) = text := by
  induction text with
  | nil => rfl
  | cons c rest ih =>
      by_cases equal : c = separator
      · rw [equal, splitOn_cons_self, joinWith_cons (splitOn_ne_nil separator rest), ih]
        rfl
      · obtain ⟨line, lines, parts⟩ := List.exists_cons_of_ne_nil
          (splitOn_ne_nil separator rest)
        rw [splitOn_cons_of_ne equal parts]
        rw [parts] at ih
        cases lines with
        | nil => simpa [joinWith] using ih
        | cons next lines => simpa [joinWith] using ih

theorem splitOn_joinWith {lines : List (List Char)} (someLine : lines ≠ [])
    (free : ∀ line ∈ lines, separator ∉ line) :
    splitOn separator (joinWith [separator] lines) = lines := by
  induction lines with
  | nil => exact absurd rfl someLine
  | cons line lines ih =>
      have lineFree := free line List.mem_cons_self
      cases lines with
      | nil => exact splitOn_of_not_mem lineFree
      | cons next lines =>
          rw [joinWith_cons (by simp), List.append_assoc, List.singleton_append,
            splitOn_append_cons, splitOn_of_not_mem lineFree,
            ih (by simp) fun other member => free other (List.mem_cons_of_mem _ member)]
          rfl

end Text

namespace Yaml

namespace Tags

/-- A line that ends in a tag between quotes, after blanks and dashes or a key, without any
other quote. -/
def Tagged (line : List Char) : Prop :=
  ∃ lead tag, line = lead ++ '\'' :: tag ++ ['\''] ∧ '\'' ∉ lead ∧ '\'' ∉ tag ∧
    isLead lead = true ∧ isShortForm tag = true

theorem takeWhile_append_quote {text : List Char} (free : '\'' ∉ text) (rest : List Char) :
    (text ++ '\'' :: rest).takeWhile (· ≠ '\'') = text := by
  induction text with
  | nil => simp
  | cons c text ih =>
      rw [List.mem_cons, not_or] at free
      rw [List.cons_append, List.takeWhile_cons_of_pos (by simpa using Ne.symm free.1), ih free.2]

theorem takeWhile_of_free {text : List Char} (free : '\'' ∉ text) :
    text.takeWhile (· ≠ '\'') = text := by
  rw [List.takeWhile_eq_self_iff]
  intro c member
  have other : c ≠ '\'' := fun equal => free (equal.subst member)
  simpa using other

theorem quotedEnd?_eq_some_iff {line lead tag : List Char} :
    quotedEnd? line = some (lead, tag) ↔
      line = lead ++ '\'' :: tag ++ ['\''] ∧ '\'' ∉ lead ∧ '\'' ∉ tag := by
  constructor
  · intro found
    by_cases opened : '\'' ∈ line
    · obtain ⟨before, rest, rfl, beforeFree⟩ := List.eq_append_cons_of_mem opened
      simp only [quotedEnd?, takeWhile_append_quote beforeFree, List.drop_left] at found
      by_cases closed : '\'' ∈ rest
      · obtain ⟨inner, after, rfl, innerFree⟩ := List.eq_append_cons_of_mem closed
        simp only [takeWhile_append_quote innerFree, List.drop_left] at found
        split at found
        next atEnd =>
          obtain ⟨rfl, rfl⟩ := Prod.mk.inj (Option.some.inj found)
          simp [atEnd, beforeFree, innerFree]
        next => cases found
      · simp only [takeWhile_of_free closed, List.drop_length] at found
        cases found
    · simp only [quotedEnd?, takeWhile_of_free opened, List.drop_length] at found
      cases found
  · rintro ⟨rfl, leadFree, tagFree⟩
    have opened := takeWhile_append_quote leadFree (tag ++ ['\''])
    have closed := takeWhile_append_quote tagFree []
    simp only [quotedEnd?, List.append_assoc, List.cons_append, opened, List.drop_left, closed,
      if_pos]

theorem unquoteLine_of_tag {lead tag : List Char} (leadFree : '\'' ∉ lead) (tagFree : '\'' ∉ tag) :
    unquoteLine (lead ++ '\'' :: tag ++ ['\'']) =
      if isLead lead && isShortForm tag then lead ++ tag
      else lead ++ '\'' :: tag ++ ['\''] := by
  have found := quotedEnd?_eq_some_iff.2 ⟨rfl, leadFree, tagFree⟩
  simp only [unquoteLine, found]

/-- A line is changed exactly when it is tagged. -/
theorem unquoteLine_eq_self_iff {line : List Char} : unquoteLine line = line ↔ ¬ Tagged line := by
  constructor
  · rintro kept ⟨lead, tag, rfl, leadFree, tagFree, isLead, isTag⟩
    rw [unquoteLine_of_tag leadFree tagFree, isLead, isTag] at kept
    have sameLength := congrArg List.length kept
    simp at sameLength
    omega
  · intro plain
    unfold unquoteLine
    split
    next lead tag found =>
      obtain ⟨line_eq, leadFree, tagFree⟩ := quotedEnd?_eq_some_iff.1 found
      split
      next fits =>
        rw [Bool.and_eq_true] at fits
        exact absurd ⟨lead, tag, line_eq, leadFree, tagFree, fits⟩ plain
      next => rfl
    next => rfl

theorem newline_not_mem_unquoteLine {line : List Char} (free : '\n' ∉ line) :
    '\n' ∉ unquoteLine line := by
  by_cases tagged : Tagged line
  · obtain ⟨lead, tag, rfl, leadFree, tagFree, isLead, isTag⟩ := tagged
    rw [unquoteLine_of_tag leadFree tagFree, isLead, isTag]
    simp_all
  · rwa [unquoteLine_eq_self_iff.2 tagged]

theorem Tagged.getLast? {line : List Char} (tagged : Tagged line) :
    line.getLast? = some '\'' := by
  obtain ⟨lead, tag, rfl, -⟩ := tagged
  exact List.getLast?_concat

theorem Tagged.count {line : List Char} (tagged : Tagged line) : line.count '\'' = 2 := by
  obtain ⟨lead, tag, rfl, leadFree, tagFree, -⟩ := tagged
  simp [List.count_eq_zero_of_not_mem leadFree, List.count_eq_zero_of_not_mem tagFree]

/-- A doubled quote at the end of a line closes no tag. -/
theorem not_tagged_of_doubled (text : List Char) : ¬ Tagged (text ++ ['\'', '\'']) := by
  rintro ⟨lead, tag, line_eq, -, tagFree, -, isTag⟩
  have withoutEnd : text ++ ['\''] = lead ++ '\'' :: tag := by
    have withEnd : (text ++ ['\'']) ++ ['\''] = (lead ++ '\'' :: tag) ++ ['\''] := by
      simpa using line_eq
    exact List.append_cancel_right withEnd
  rcases List.eq_nil_or_concat tag with rfl | ⟨inner, c, rfl⟩
  · simp [isShortForm] at isTag
  · have lastEq := congrArg List.getLast? withoutEnd
    rw [List.concat_eq_append, ← List.cons_append, ← List.append_assoc, List.getLast?_concat,
      List.getLast?_concat] at lastEq
    obtain rfl := Option.some.inj lastEq
    exact tagFree (by simp)

end Tags

/-- Where the first quote of a text stands is clear. -/
theorem append_quote_inj {before before' rest rest' : List Char} (free : '\'' ∉ before)
    (free' : '\'' ∉ before') (equal : before ++ '\'' :: rest = before' ++ '\'' :: rest') :
    before = before' ∧ rest = rest' := by
  have starts := congrArg (List.takeWhile (· ≠ '\'')) equal
  rw [Tags.takeWhile_append_quote free, Tags.takeWhile_append_quote free'] at starts
  subst starts
  exact ⟨rfl, (List.cons.inj (List.append_cancel_left equal)).2⟩

/-- Whether no line of a text is tagged. -/
def Settled (text : List Char) : Prop :=
  ∀ line ∈ Text.splitOn '\n' text, ¬ Tags.Tagged line

theorem settled_append_iff {before rest : List Char} :
    Settled (before ++ '\n' :: rest) ↔ Settled before ∧ Settled rest := by
  simp [Settled, Text.splitOn_append_cons, or_imp, forall_and]

theorem settled_line_iff {line : List Char} (free : '\n' ∉ line) :
    Settled line ↔ ¬ Tags.Tagged line := by
  simp [Settled, Text.splitOn_of_not_mem free]

theorem unquoteTags_line {line : List Char} (free : '\n' ∉ line) :
    unquoteTags line = Tags.unquoteLine line := by
  simp [unquoteTags, Text.splitOn_of_not_mem free, Text.joinWith]

theorem splitOn_unquoteTags (text : List Char) :
    Text.splitOn '\n' (unquoteTags text) = (Text.splitOn '\n' text).map Tags.unquoteLine := by
  refine Text.splitOn_joinWith (by simpa using Text.splitOn_ne_nil _ text) fun line member => ?_
  obtain ⟨old, oldMember, rfl⟩ := List.mem_map.1 member
  exact Tags.newline_not_mem_unquoteLine (Text.not_mem_of_mem_splitOn oldMember)

/-- A text keeps every quote exactly when none of its lines is tagged. -/
theorem unquoteTags_eq_self_iff {text : List Char} : unquoteTags text = text ↔ Settled text := by
  constructor
  · intro kept line member
    have lines := splitOn_unquoteTags text
    rw [kept, ← List.map_id (Text.splitOn '\n' text), List.map_map] at lines
    exact Tags.unquoteLine_eq_self_iff.1 (List.map_inj_left.1 lines line member).symm
  · intro settled
    have lines := List.map_congr_left fun line member =>
      Tags.unquoteLine_eq_self_iff.2 (settled line member)
    rw [unquoteTags, lines, List.map_id', Text.joinWith_splitOn]

theorem unquoteTags_append_cons (before rest : List Char) :
    unquoteTags (before ++ '\n' :: rest) = unquoteTags before ++ '\n' :: unquoteTags rest := by
  unfold unquoteTags
  rw [Text.splitOn_append_cons, List.map_append,
    Text.joinWith_append (by simpa using Text.splitOn_ne_nil _ before)
      (by simpa using Text.splitOn_ne_nil _ rest)]
  simp

/-- Texts below each other lose their quotes each for itself. -/
theorem unquoteTags_joinWith {texts : List (List Char)} (someText : texts ≠ []) :
    unquoteTags (Text.joinWith ['\n'] texts) = Text.joinWith ['\n'] (texts.map unquoteTags) := by
  induction texts with
  | nil => exact absurd rfl someText
  | cons text texts ih =>
      cases texts with
      | nil => rfl
      | cons next texts =>
          rw [Text.joinWith_cons (by simp), List.append_assoc, List.singleton_append,
            unquoteTags_append_cons, ih (by simp), List.map_cons (a := text),
            Text.joinWith_cons (by simp), List.append_assoc, List.singleton_append]

theorem settled_joinWith_iff {texts : List (List Char)} (someText : texts ≠ []) :
    Settled (Text.joinWith ['\n'] texts) ↔ ∀ text ∈ texts, Settled text := by
  induction texts with
  | nil => exact absurd rfl someText
  | cons text texts ih =>
      cases texts with
      | nil => simp [Text.joinWith]
      | cons next texts =>
          rw [Text.joinWith_cons (by simp), List.append_assoc, List.singleton_append,
            settled_append_iff, ih (by simp), List.forall_mem_cons (l := next :: texts)]

end Yaml

end CloudGraph
