import CloudGraph.Proofs.QuotesKept

/-!
# Which tags stand bare

A tag only works without quotes, and it is always written with them at first. They are taken off
where the tag is not folded and its lead lets them be found, `Role.Bares`: they stay behind a key
that is written with a quote itself, behind the colon of a long key at the left margin, and in
the first items of a list below a long key. `descriptorText_showsTags` says so of every tag of a
value, wherever it stands.
-/

namespace CloudGraph.Yaml

/-- A tag in printable characters, as a whole. -/
def IsPrintableTag (text : List Char) : Prop :=
  Tags.isShortForm text = true ∧ '\'' ∉ text ∧ text.all (fun c => ' ' ≤ c && c ≤ '~') = true

instance : DecidablePred IsPrintableTag := fun text =>
  inferInstanceAs (Decidable (Tags.isShortForm text = true ∧ '\'' ∉ text ∧
    text.all (fun c => ' ' ≤ c && c ≤ '~') = true))

/-- Whether runs are folded from a column on: one of them is a single space past the line width,
and neither the first of the text nor the last. -/
def FoldsFrom (column : Nat) (first : Bool) (all : List (RunKind × List Char)) : Prop :=
  ∃ before run after, all = before ++ (.blanks, run) :: after ∧ run.length = 1 ∧
    (first = true → before ≠ []) ∧ after ≠ [] ∧
    lineWidth < column + (before.flatMap (·.2)).length

/-- Whether a text in quotes is folded, its first character at a column. -/
def Folds (column : Nat) (text : List Char) : Prop :=
  FoldsFrom column true (runs text)

section Folding

variable {column : Nat} {first : Bool} {all : List (RunKind × List Char)}

theorem foldsFrom_cons {kind : RunKind} {run : List Char} :
    FoldsFrom column first ((kind, run) :: all) ↔
      (kind = .blanks ∧ run.length = 1 ∧ first = false ∧ all ≠ [] ∧ lineWidth < column) ∨
        FoldsFrom (column + run.length) false all := by
  constructor
  · rintro ⟨before, blank, after, all_eq, single, noFirst, more, past⟩
    cases before with
    | nil =>
        obtain ⟨head_eq, rfl⟩ := List.cons.inj all_eq
        obtain ⟨rfl, rfl⟩ := Prod.mk.inj head_eq
        left
        refine ⟨rfl, single, ?_, more, by simpa using past⟩
        cases first with
        | true => exact absurd rfl (noFirst rfl)
        | false => rfl
    | cons head before =>
        obtain ⟨rfl, rfl⟩ := List.cons.inj all_eq
        refine .inr ⟨before, blank, after, rfl, single, by simp, more, ?_⟩
        simpa [Nat.add_assoc] using past
  · rintro (⟨rfl, single, rfl, more, past⟩ | ⟨before, blank, after, rfl, single, -, more, past⟩)
    · exact ⟨[], run, all, rfl, single, by simp, more, by simpa using past⟩
    · refine ⟨(kind, run) :: before, blank, after, rfl, single, by simp, more, ?_⟩
      simpa [Nat.add_assoc] using past

/-- Without quotes and line ends in them, runs come to lie on several lines exactly when they are
folded. -/
theorem newline_mem_singleRuns_iff (indent : Nat)
    (noBreaks : ∀ run ∈ all, run.1 ≠ .breaks)
    (clean : ∀ run ∈ all, '\n' ∉ run.2 ∧ '\'' ∉ run.2) :
    '\n' ∈ singleRuns indent column first all ↔ FoldsFrom column first all := by
  induction all generalizing column first with
  | nil =>
      simp only [singleRuns, List.not_mem_nil, false_iff]
      rintro ⟨before, run, after, all_eq, -⟩
      simp at all_eq
  | cons run all ih =>
      obtain ⟨kind, run⟩ := run
      have rest : ∀ column,
          '\n' ∈ singleRuns indent column false all ↔ FoldsFrom column false all := fun column =>
        ih (fun other member => noBreaks other (List.mem_cons_of_mem _ member))
          (fun other member => clean other (List.mem_cons_of_mem _ member))
      have runClean := clean (kind, run) List.mem_cons_self
      rw [foldsFrom_cons]
      cases kind with
      | word =>
          simp only [singleRuns, doubleQuotes_of_free runClean.2, List.mem_append, runClean.1,
            false_or, rest]
          simp
      | blanks =>
          rw [singleRuns]
          split
          next folds =>
            obtain ⟨single, past, noFirst, more⟩ := folds
            have newline : '\n' ∈ lineEnd indent ++ singleRuns indent indent false all := by
              simp [lineEnd]
            refine iff_of_true newline (.inl ⟨rfl, single, by simpa using noFirst, ?_, past⟩)
            simpa using more
          next whole =>
            rw [List.mem_append, or_iff_right runClean.1, rest]
            refine (or_iff_right ?_).symm
            rintro ⟨-, single, rfl, more, past⟩
            exact whole ⟨single, past, rfl, by simpa using more⟩
      | breaks => exact absurd rfl (noBreaks (.breaks, run) List.mem_cons_self)

end Folding

section Tags

variable {tag : List Char}

theorem IsPrintableTag.not_special (isTag : IsPrintableTag tag) :
    ∀ c ∈ tag, isSpecial c = false := by
  intro c member
  simp [isSpecial, List.all_eq_true.1 isTag.2.2 c member]

theorem IsPrintableTag.not_break (isTag : IsPrintableTag tag) : ∀ c ∈ tag, isBreak c = false := by
  intro c member
  have printable := List.all_eq_true.1 isTag.2.2 c member
  rw [Bool.eq_false_iff]
  intro ends
  simp only [isBreak, Bool.or_eq_true, decide_eq_true_iff] at ends
  rcases ends with ((rfl | rfl) | rfl) | rfl <;> exact absurd printable (by decide)

theorem IsPrintableTag.newline_not_mem (isTag : IsPrintableTag tag) : '\n' ∉ tag :=
  fun member => absurd (isTag.not_break _ member) (by decide)

theorem IsPrintableTag.exists_cons (isTag : IsPrintableTag tag) : ∃ rest, tag = '!' :: rest := by
  have short := isTag.1
  unfold Tags.isShortForm at short
  split at short
  next rest => exact ⟨rest, rfl⟩
  next => cases short

theorem adjacent_eq_false {first second : Char → Bool} {text : List Char}
    (never : ∀ c ∈ text, first c = false ∨ ∀ d ∈ text, second d = false) :
    adjacent first second text = false := by
  induction text with
  | nil => rfl
  | cons a text ih =>
      cases text with
      | nil => rfl
      | cons b text =>
          have rest : ∀ c ∈ b :: text, first c = false ∨ ∀ d ∈ b :: text, second d = false := by
            intro c member
            refine (never c (List.mem_cons_of_mem a member)).imp_right fun noSecond d inRest => ?_
            exact noSecond d (List.mem_cons_of_mem a inRest)
          rw [adjacent, ih rest, Bool.or_false, Bool.and_eq_false_iff]
          exact (never a List.mem_cons_self).imp_right fun noSecond => noSecond b (by simp)

/-- A tag is first written in single quotes. -/
theorem IsPrintableTag.styleOf_eq (isTag : IsPrintableTag tag) : styleOf tag = .singleQuoted := by
  obtain ⟨rest, tag_eq⟩ := isTag.exists_cons
  have notPlain : allowsPlain tag = false := by
    simp [tag_eq, allowsPlain, startsIndicator, indicators]
  have allowed : allowsSingle tag = true := by
    have noSpecial : tag.any isSpecial = false :=
      List.any_eq_false.2 fun c member => by simp [isTag.not_special c member]
    have noBreakBefore : adjacent isBreak isBlank tag = false :=
      adjacent_eq_false fun c member => .inl (isTag.not_break c member)
    have noBreakAfter : adjacent isBlank isBreak tag = false :=
      adjacent_eq_false fun _ _ => .inr isTag.not_break
    simp [allowsSingle, noSpecial, noBreakBefore, noBreakAfter]
  simp [styleOf, notPlain, allowed]

theorem IsPrintableTag.newline_mem_iff (isTag : IsPrintableTag tag) (indent column : Nat) :
    '\n' ∈ singleRuns indent column true (runs tag) ↔ Folds column tag := by
  refine newline_mem_singleRuns_iff indent (fun run member isBreaks => ?_) fun run member => ?_
  · obtain ⟨c, inRun⟩ := List.exists_mem_of_ne_nil _ (ne_nil_of_mem_runs member)
    have kind := runKind_of_mem_runs member c inRun
    have noBreak := isTag.not_break c (mem_of_mem_runs member inRun)
    rw [isBreaks, runKind, noBreak] at kind
    split at kind <;> cases kind
  · have inTag : ∀ c ∈ run.2, c ∈ tag := fun c inRun => mem_of_mem_runs member inRun
    exact ⟨fun newline => isTag.newline_not_mem (inTag _ newline),
      fun quote => isTag.2.1 (inTag _ quote)⟩

/-- A tag that is not folded is written on its line as it is, between quotes. -/
theorem IsPrintableTag.written_of_not_folds (isTag : IsPrintableTag tag) {indent column : Nat}
    (whole : ¬ Folds (column + 1) tag) :
    writeText .singleQuoted true indent column tag = '\'' :: tag ++ ['\''] := by
  obtain ⟨folded, text_eq, kept⟩ := exists_doubled indent (column + 1) true
    (quote_not_mem_runs tag)
  rw [← isTag.newline_mem_iff indent, text_eq, mem_doubleQuotes] at whole
  have folded_eq : folded = tag := (kept whole).trans (flatMap_runs tag)
  simp [writeText, text_eq, folded_eq, doubleQuotes_of_free isTag.2.1]

/-- A tag that is folded stays in its quotes: its first line only opens them. -/
theorem IsPrintableTag.lines_of_folds (isTag : IsPrintableTag tag) {indent column : Nat}
    (folds : Folds (column + 1) tag) :
    ∃ opening further, Text.splitOn '\n' (writeText .singleQuoted true indent column tag) =
        ('\'' :: doubleQuotes opening) :: further ∧ opening ≠ [] ∧
      ∀ line ∈ further, ¬ Tags.Tagged line := by
  have manyLines : '\n' ∈ writeText .singleQuoted true indent column tag := by
    have inRuns := (isTag.newline_mem_iff indent (column + 1)).2 folds
    simp [writeText, inRuns]
  rcases splitOn_singleQuoted indent column tag with ⟨oneLine, -⟩ | ⟨opening, further, lines, rest⟩
  · rw [oneLine] at manyLines
    exact absurd manyLines (by simp [mem_doubleQuotes, isTag.newline_not_mem])
  · refine ⟨opening, further, lines, ?_, rest⟩
    rintro rfl
    -- The first line goes on behind the opening quote, with the exclamation mark.
    obtain ⟨after, starts⟩ : ∃ after, writeText .singleQuoted true indent column tag =
        '\'' :: '!' :: after := by
      obtain ⟨rest, rfl⟩ := isTag.exists_cons
      obtain ⟨run, others, runs_eq⟩ :
          ∃ run others, runs ('!' :: rest) = (.word, '!' :: run) :: others := by
        rcases runs_cons '!' rest with ⟨run, others, -, runs_eq⟩ | runs_eq
        · exact ⟨run, others, runs_eq⟩
        · exact ⟨[], runs rest, runs_eq⟩
      have marked : doubleQuotes ('!' :: run) = '!' :: doubleQuotes run := rfl
      rw [writeText, runs_eq, singleRuns, marked]
      exact ⟨_, rfl⟩
    obtain ⟨line, others, parts⟩ := List.exists_cons_of_ne_nil (Text.splitOn_ne_nil '\n' after)
    rw [starts, Text.splitOn_cons_of_ne (by decide)
      (Text.splitOn_cons_of_ne (by decide) parts)] at lines
    simp [doubleQuotes] at lines

end Tags

section Blocks

variable {role : Role} {start : Start} {tag : String}

/-- A tag as a value or an item loses its quotes exactly where its role allows it and the line is
not folded, and stays as it was written elsewhere. -/
theorem unquoteTags_tag (isTag : IsPrintableTag tag.toList) :
    let block := Block.leaf role start (.text tag)
    (role.Bares start → ¬ Folds (block.lead.length + 1) tag.toList →
        unquoteTags block.text = block.lead ++ tag.toList) ∧
      (¬ (role.Bares start ∧ ¬ Folds (block.lead.length + 1) tag.toList) →
        unquoteTags block.text = block.text) := by
  intro block
  have written : block.written = writeText .singleQuoted true block.indent block.lead.length
      tag.toList := by
    rw [Block.written_eq rfl, scalarStyle, isTag.styleOf_eq]
    rfl
  have bares := role.bares_iff start (.text tag)
  by_cases folds : Folds (block.lead.length + 1) tag.toList
  · refine ⟨fun _ whole => absurd folds whole, fun _ => ?_⟩
    obtain ⟨opening, further, lines, someText, rest⟩ := isTag.lines_of_folds folds
    rw [← written] at lines
    rw [unquoteTags_eq_self_iff, block.settled_text_iff, firstLine, furtherLines, lines]
    refine ⟨?_, rest⟩
    have first := not_tagged_append_doubleQuotes (block.lead ++ ['\'']) someText
    simpa using first
  · have text_eq : block.text = block.lead ++ '\'' :: tag.toList ++ ['\''] := by
      rw [Block.text, written, isTag.written_of_not_folds folds]
      simp
    have oneLine : '\n' ∉ block.text := by
      simp [text_eq, block.newline_not_mem_lead, isTag.newline_not_mem]
    constructor
    · intro roleBares _
      obtain ⟨leadFree, isLead⟩ := bares.1 roleBares
      rw [unquoteTags_line oneLine, text_eq, Tags.unquoteLine_of_tag leadFree isTag.2.1, isTag.1]
      simp only [Bool.and_true]
      exact if_pos isLead
    · intro notBoth
      rw [unquoteTags_line oneLine, Tags.unquoteLine_eq_self_iff]
      rintro ⟨lead, inner, line_eq, leadFree, innerFree, isLead, -⟩
      refine notBoth ⟨bares.2 ?_, folds⟩
      have parts : block.lead ++ '\'' :: (tag.toList ++ ['\'']) =
          lead ++ '\'' :: (inner ++ ['\'']) := by
        simpa [text_eq] using line_eq
      by_cases quoted : '\'' ∈ block.lead
      · -- A quote in the lead, and two of the tag: too many for one tag.
        have count := congrArg (List.count '\'') parts
        have inLead := List.count_pos_iff.2 quoted
        simp [List.count_eq_zero_of_not_mem leadFree,
          List.count_eq_zero_of_not_mem innerFree] at count
        omega
      · obtain ⟨rfl, -⟩ := append_quote_inj quoted leadFree parts
        exact ⟨quoted, isLead⟩

end Blocks

/-- What a descriptor text makes of the tags of its value. -/
structure ShowsTags (value : Value) (text : List Char) : Prop where
  /-- The text consists of the blocks of the value, each with the quotes of its tags taken off. -/
  text_eq : text =
    Text.joinWith ['\n'] (value.blocks.map fun block => unquoteTags block.text) ++
      '\n' :: value.ending
  /-- Every text that is a value or an item has a block. -/
  placed : ∀ role tag, (role, .text tag) ∈ value.leaves →
    ∃ start, Block.leaf role start (.text tag) ∈ value.blocks
  /-- A tag stands bare where its role and its length allow it. -/
  bare : ∀ role start tag, let block := Block.leaf role start (.text tag)
    block ∈ value.blocks → IsPrintableTag tag.toList → role.Bares start →
      ¬ Folds (block.lead.length + 1) tag.toList →
      unquoteTags block.text = block.lead ++ tag.toList
  /-- All other tags stay in quotes. -/
  quoted : ∀ role start tag, let block := Block.leaf role start (.text tag)
    block ∈ value.blocks → IsPrintableTag tag.toList →
      ¬ (role.Bares start ∧ ¬ Folds (block.lead.length + 1) tag.toList) →
      unquoteTags block.text = block.text

/-- A descriptor shows every tag bare whose role and length allow it, and no other. -/
theorem descriptorText_showsTags {value : Value} (formed : writable value = true) :
    ∃ text, descriptorText value = .ok (String.ofList text) ∧ ShowsTags value text := by
  refine ⟨unquoteTags (textOf value), if_pos formed, ?_, ?_, ?_, ?_⟩
  · have ending : unquoteTags value.ending = value.ending := by
      unfold Value.ending
      split <;> rfl
    rw [textOf_eq, unquoteTags_append_cons, ending, blocksText,
      unquoteTags_joinWith (by simpa using value.blocks_ne_nil), List.map_map]
    rfl
  · exact fun role tag member => Value.mem_leaves_iff.1 member
  · exact fun role start tag _ isTag => (unquoteTags_tag isTag).1
  · exact fun role start tag _ isTag => (unquoteTags_tag isTag).2

/-- Tags as a value and as items, also of a list in a list. -/
def taggedValue : Value :=
  .record [
    ("Role", .text "!GetAtt upload.Arn"),
    ("Fn::Join", .list [.text "!Ref table", .texts ["!Sub a b", "!Ref upload"]])]

theorem taggedValue_showsTags :
    descriptorText taggedValue = .ok
        ("Role: !GetAtt upload.Arn\nFn::Join:\n- !Ref table\n- - !Sub a b\n  - !Ref upload\n") ∧
      ∃ text, descriptorText taggedValue = .ok (String.ofList text) ∧
        ShowsTags taggedValue text := by
  have formed : writable taggedValue = true := by decide +kernel
  have text_eq : unquoteTags (textOf taggedValue) =
      ("Role: !GetAtt upload.Arn\nFn::Join:\n- !Ref table\n- - !Sub a b\n  - !Ref upload\n"
        ).toList := by
    decide +kernel
  refine ⟨?_, descriptorText_showsTags formed⟩
  rw [descriptorText, if_pos formed, text_eq, String.ofList_toList]

/-- A tag below a key that needs quotes, since it would be read as a truth value. -/
def switchValue : Value :=
  .record [("on", .text "!Ref table")]

theorem switchValue_quotes_tag :
    descriptorText switchValue = .ok "'on': '!Ref table'\n" ∧
      ¬ ∀ value : Value, writable value = true → ∀ role tag, (role, .text tag) ∈ value.leaves →
        role ≠ .whole → IsPrintableTag tag.toList →
        ∃ start, Block.leaf role start (.text tag) ∈ value.blocks ∧
          unquoteTags (Block.leaf role start (.text tag)).text =
            (Block.leaf role start (.text tag)).lead ++ tag.toList := by
  have formed : writable switchValue = true := by decide +kernel
  have text_eq : unquoteTags (textOf switchValue) = "'on': '!Ref table'\n".toList := by
    decide +kernel
  refine ⟨by rw [descriptorText, if_pos formed, text_eq, String.ofList_toList], fun bare => ?_⟩
  have leaves : switchValue.leaves = [(.ofKey (.text "on"), .text "!Ref table")] := rfl
  have blocks : switchValue.blocks =
      [.leaf (.ofKey (.text "on")) (.margin 0) (.text "!Ref table")] := rfl
  obtain ⟨start, member, shown⟩ := bare switchValue formed _ _
    (leaves ▸ List.mem_singleton_self _) (by decide +kernel) (by decide +kernel)
  rw [blocks, List.mem_singleton] at member
  rw [member] at shown
  exact absurd shown (by decide +kernel)

end CloudGraph.Yaml
