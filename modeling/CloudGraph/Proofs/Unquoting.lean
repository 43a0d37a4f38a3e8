import CloudGraph.Proofs.QuotedTags

/-!
# Taking the quotes off tags

What rewriting a text by the shape of a quoted tag does to any text, whether it was written by
`textOf` or not: `rewrite_unquotes`. Each line is rewritten for itself, the lines that change are
those that end in a whole tag between the only quotes of the line, and of these the two quotes go
and nothing else. A rewritten line has no quotes left, so that a second rewriting finds nothing to
do, and a tag whose name only starts with that of an intrinsic function stays as it is.
-/

namespace CloudGraph

namespace Text

variable {f : List Char → List Char} {lines : List (List Char)}

/-- What holds between each line and what becomes of it, and goes on over line ends, holds
between the texts. -/
theorem joinWith_related (related : List Char → List Char → Prop)
    (goesOn : ∀ before before' rest rest', related before before' → related rest rest' →
      related (before ++ '\n' :: rest) (before' ++ '\n' :: rest'))
    (someLine : lines ≠ []) (each : ∀ line ∈ lines, related (f line) line) :
    related (joinWith ['\n'] (lines.map f)) (joinWith ['\n'] lines) := by
  induction lines with
  | nil => exact absurd rfl someLine
  | cons line lines ih =>
      obtain ⟨first, others⟩ := List.forall_mem_cons.1 each
      cases lines with
      | nil => exact first
      | cons next lines =>
          rw [joinWith_cons (List.cons_ne_nil next lines), List.map_cons (a := line),
            @joinWith_cons ['\n'] (f line) _ (by simp), List.append_assoc, List.append_assoc,
            List.singleton_append, List.singleton_append]
          exact goesOn _ _ _ _ first (ih (by simp) others)

/-- The quotes of a text are those of its lines. -/
theorem count_joinWith (lines : List (List Char)) :
    (joinWith ['\n'] lines).count '\'' = lines.flatten.count '\'' := by
  induction lines with
  | nil => rfl
  | cons line lines ih =>
      cases lines with
      | nil => simp [joinWith]
      | cons next lines =>
          rw [joinWith_cons (by simp), List.flatten_cons, List.count_append, List.count_append,
            List.count_append, ih]
          rfl

end Text

namespace Yaml

namespace Tags

variable {line lead tag : List Char}

/-- A line is a lead and a whole tag between the only quotes of the line. -/
structure Quotes (line lead tag : List Char) : Prop where
  line_eq : line = lead ++ '\'' :: tag ++ ['\'']
  lead_free : '\'' ∉ lead
  lead_fits : IsIndent lead ∨ IsKey lead
  isTag : IsWholeTag tag

theorem IsWholeTag.free (isTag : IsWholeTag tag) : '\'' ∉ tag := by
  obtain ⟨name, listed, ends⟩ := isTag
  have nameFree : '\'' ∉ name.toList :=
    (forall_inLine_iff.1 fun c member => (plain_of_mem_names listed c member).2).1
  rcases ends with rfl | ⟨blank, text, isBlank, textFree, rfl⟩
  · simp [nameFree]
  · rcases isBlank with rfl | rfl <;> simp [nameFree, textFree]

theorem tagged_iff_quotes : Tagged line ↔ ∃ lead tag, Quotes line lead tag := by
  constructor
  · rintro ⟨lead, tag, line_eq, leadFree, tagFree, isLead, isTag⟩
    exact ⟨lead, tag, line_eq, leadFree, isLead_iff_indent_or_key.1 isLead,
      (isShortForm_iff tagFree).1 isTag⟩
  · rintro ⟨lead, tag, line_eq, leadFree, fits, isTag⟩
    exact ⟨lead, tag, line_eq, leadFree, isTag.free, isLead_iff_indent_or_key.2 fits,
      (isShortForm_iff isTag.free).2 isTag⟩

theorem Quotes.unquoteLine_eq (quotes : Quotes line lead tag) : unquoteLine line = lead ++ tag := by
  rw [quotes.line_eq, unquoteLine_of_tag quotes.lead_free quotes.isTag.free,
    isLead_iff_indent_or_key.2 quotes.lead_fits, (isShortForm_iff quotes.isTag.free).2 quotes.isTag]
  rfl

/-- A line without its quotes is not tagged. -/
theorem unquoteLine_twice (line : List Char) :
    unquoteLine (unquoteLine line) = unquoteLine line := by
  by_cases tagged : Tagged line
  · obtain ⟨lead, tag, quotes⟩ := tagged_iff_quotes.1 tagged
    rw [quotes.unquoteLine_eq, unquoteLine_eq_self_iff]
    rintro ⟨_, _, line_eq, -⟩
    have opened : '\'' ∈ lead ++ tag := by simp [line_eq]
    rcases List.mem_append.1 opened with member | member
    · exact quotes.lead_free member
    · exact quotes.isTag.free member
  · rw [unquoteLine_eq_self_iff.2 tagged, unquoteLine_eq_self_iff.2 tagged]

theorem unquoteLine_sublist (line : List Char) : (unquoteLine line).Sublist line := by
  by_cases tagged : Tagged line
  · obtain ⟨lead, tag, quotes⟩ := tagged_iff_quotes.1 tagged
    rw [quotes.unquoteLine_eq, quotes.line_eq]
    simp
  · rw [unquoteLine_eq_self_iff.2 tagged]

theorem filter_unquoteLine (line : List Char) :
    (unquoteLine line).filter (· != '\'') = line.filter (· != '\'') := by
  by_cases tagged : Tagged line
  · obtain ⟨lead, tag, quotes⟩ := tagged_iff_quotes.1 tagged
    rw [quotes.unquoteLine_eq, quotes.line_eq]
    simp
  · rw [unquoteLine_eq_self_iff.2 tagged]

/-- A changed line has lost two quotes, and any other none. -/
theorem count_unquoteLine (line : List Char) :
    line.count '\'' = (unquoteLine line).count '\'' + if unquoteLine line ≠ line then 2 else 0 := by
  by_cases tagged : Tagged line
  · obtain ⟨lead, tag, quotes⟩ := tagged_iff_quotes.1 tagged
    rw [if_pos fun same => unquoteLine_eq_self_iff.1 same tagged, tagged.count,
      quotes.unquoteLine_eq, List.count_append, List.count_eq_zero_of_not_mem quotes.lead_free,
      List.count_eq_zero_of_not_mem quotes.isTag.free]
  · rw [unquoteLine_eq_self_iff.2 tagged]
    simp

/-- No name of an intrinsic function starts with another one. -/
theorem eq_of_name_prefix {name other : String} (listed : name ∈ intrinsicNames)
    (otherListed : other ∈ intrinsicNames) (starts : name.toList <+: other.toList) :
    name = other := by
  have apart : ∀ name ∈ intrinsicNames, ∀ other ∈ intrinsicNames,
      name.toList <+: other.toList → name = other := by
    decide
  exact apart name listed other otherListed starts

/-- A tag whose name goes on behind that of an intrinsic function is no short form. -/
theorem isShortForm_longer {name : String} {next : Char} {more : List Char}
    (listed : name ∈ intrinsicNames) (goesOn : spaceOrTab next = false) :
    isShortForm ('!' :: name.toList ++ next :: more) = false := by
  have noBlank : ∀ c ∈ name.toList, (!spaceOrTab c) = true := fun c member => by
    simp [(plain_of_mem_names listed c member).1]
  have word : (name.toList ++ next :: more).takeWhile (fun c => !spaceOrTab c) =
      name.toList ++ next :: more.takeWhile fun c => !spaceOrTab c := by
    rw [List.takeWhile_append_of_pos noBlank, List.takeWhile_cons_of_pos (by simp [goesOn])]
  rw [List.cons_append, isShortForm, word, Bool.eq_false_iff]
  intro otherListed
  have same := eq_of_name_prefix listed (List.contains_iff_mem.1 otherListed)
    (by rw [String.toList_ofList]; exact List.prefix_append _ _)
  have longer := congrArg (fun name => name.toList.length) same
  simp at longer

theorem not_tagged_of_longer {name : String} {next : Char} {more : List Char}
    (listed : name ∈ intrinsicNames) (goesOn : spaceOrTab next = false)
    (line_eq : line = lead ++ '\'' :: ('!' :: name.toList ++ next :: more) ++ ['\'']) :
    ¬ Tagged line := by
  intro tagged
  have two := tagged.count
  obtain ⟨front, tag, parts, frontFree, tagFree, -, isTag⟩ := tagged
  -- The line has only two quotes, so the given ones are those of the tag.
  have leadFree : '\'' ∉ lead := by
    rw [← List.count_eq_zero]
    rw [line_eq] at two
    simp only [List.count_append, List.count_cons_self, List.count_nil] at two
    omega
  rw [line_eq, List.append_assoc, List.append_assoc] at parts
  obtain ⟨rfl, after⟩ := append_quote_inj leadFree frontFree parts
  rw [← List.append_cancel_right after, isShortForm_longer listed goesOn] at isTag
  cases isTag

end Tags

/-- What becomes of a text when a rewriting takes the quotes off its tags and does nothing
else. -/
structure UnquotesTags (rewrite : List Char → List Char) (text : List Char) : Prop where
  /-- Each line is rewritten for itself. -/
  lines : Text.splitOn '\n' (rewrite text) = (Text.splitOn '\n' text).map rewrite
  /-- A line changes exactly when it ends in a whole tag between its only quotes. -/
  changes_iff : ∀ line ∈ Text.splitOn '\n' text,
    rewrite line ≠ line ↔ ∃ lead tag, Tags.Quotes line lead tag
  /-- Then it becomes its lead and the tag. -/
  bare : ∀ line ∈ Text.splitOn '\n' text, ∀ lead tag, Tags.Quotes line lead tag →
    rewrite line = lead ++ tag
  /-- There are as many lines as before. -/
  sameCount : (Text.splitOn '\n' (rewrite text)).length = (Text.splitOn '\n' text).length
  /-- Characters are left out, and none is added or moved. -/
  sublist : (rewrite text).Sublist text
  /-- Only quotes are left out. -/
  others : (rewrite text).filter (· != '\'') = text.filter (· != '\'')
  /-- Two quotes are left out for each line that changes. -/
  pairs : text.count '\'' = (rewrite text).count '\'' +
    2 * (Text.splitOn '\n' text).countP fun line => rewrite line ≠ line
  /-- A second rewriting changes nothing. -/
  twice : rewrite (rewrite text) = rewrite text
  /-- A tag whose name goes on behind that of an intrinsic function keeps its quotes. -/
  longer : ∀ line ∈ Text.splitOn '\n' text, ∀ lead, ∀ name ∈ intrinsicNames, ∀ next more,
    next ≠ ' ' → next ≠ '\t' →
      line = lead ++ '\'' :: ('!' :: name.toList ++ next :: more) ++ ['\''] → rewrite line = line

theorem unquoteTags_twice (text : List Char) :
    unquoteTags (unquoteTags text) = unquoteTags text := by
  have lines := splitOn_unquoteTags text
  rw [unquoteTags, lines, List.map_map]
  exact congrArg _ (List.map_congr_left fun line _ => Tags.unquoteLine_twice line)

theorem unquoteTags_sublist (text : List Char) : (unquoteTags text).Sublist text := by
  have whole := Text.joinWith_related List.Sublist
    (fun _ _ _ _ before rest => before.append (rest.cons_cons '\n')) (Text.splitOn_ne_nil '\n' text)
    fun line _ => Tags.unquoteLine_sublist line
  rwa [Text.joinWith_splitOn] at whole

theorem filter_unquoteTags (text : List Char) :
    (unquoteTags text).filter (· != '\'') = text.filter (· != '\'') := by
  have whole := Text.joinWith_related
    (fun first second => first.filter (· != '\'') = second.filter (· != '\''))
    (fun _ _ _ _ before rest => by simp [before, rest]) (Text.splitOn_ne_nil '\n' text)
    fun line _ => Tags.filter_unquoteLine line
  rwa [Text.joinWith_splitOn] at whole

theorem count_unquoteTags (text : List Char) :
    text.count '\'' = (unquoteTags text).count '\'' +
      2 * (Text.splitOn '\n' text).countP fun line => Tags.unquoteLine line ≠ line := by
  have total : ∀ lines : List (List Char), lines.flatten.count '\'' =
      (lines.map Tags.unquoteLine).flatten.count '\'' +
        2 * lines.countP fun line => Tags.unquoteLine line ≠ line := by
    intro lines
    induction lines with
    | nil => rfl
    | cons line lines ih =>
        rw [List.map_cons, List.flatten_cons, List.flatten_cons, List.count_append,
          List.count_append, ih, Tags.count_unquoteLine line, List.countP_cons]
        by_cases changes : Tags.unquoteLine line ≠ line
        · rw [if_pos changes, if_pos (decide_eq_true changes)]
          omega
        · rw [if_neg changes, if_neg (by simpa using changes)]
          omega
  rw [unquoteTags, Text.count_joinWith, ← total, ← Text.count_joinWith, Text.joinWith_splitOn]

/-- Rewriting any text by the shape of a quoted tag takes the quotes off its tags, line by line, and
does nothing else. It is what is done to the text of a descriptor. -/
theorem rewrite_unquotes (text : List Char) :
    Tags.quotedTag.rewrite List.flatten text = unquoteTags text ∧
      UnquotesTags (Tags.quotedTag.rewrite List.flatten) text := by
  have fixes : Tags.quotedTag.rewrite List.flatten = unquoteTags := funext rewrite_quotedTag
  rw [fixes]
  have ofLine : ∀ line ∈ Text.splitOn '\n' text, unquoteTags line = Tags.unquoteLine line :=
    fun line member => unquoteTags_line (Text.not_mem_of_mem_splitOn member)
  have lines : Text.splitOn '\n' (unquoteTags text) = (Text.splitOn '\n' text).map unquoteTags := by
    rw [splitOn_unquoteTags]
    exact List.map_congr_left fun line member => (ofLine line member).symm
  refine ⟨rfl, lines, ?_, ?_, ?_, unquoteTags_sublist text, filter_unquoteTags text, ?_,
    unquoteTags_twice text, ?_⟩
  · intro line member
    rw [ofLine line member, ← Tags.tagged_iff_quotes, ne_eq, Tags.unquoteLine_eq_self_iff,
      not_not]
  · intro line member lead tag quotes
    rw [ofLine line member, quotes.unquoteLine_eq]
  · rw [lines, List.length_map]
  · rw [count_unquoteTags]
    refine congrArg (_ + 2 * ·) (List.countP_congr fun line member => ?_)
    rw [ofLine line member]
  · intro line member lead name listed next more noSpace noTab line_eq
    have goesOn : spaceOrTab next = false := by simp [spaceOrTab, noSpace, noTab]
    rw [ofLine line member, Tags.unquoteLine_eq_self_iff]
    exact Tags.not_tagged_of_longer listed goesOn line_eq

example : unquoteTags "- '!Refs queue'\nRole: '!GetAtt queue.Arn'".toList =
    "- '!Refs queue'\nRole: !GetAtt queue.Arn".toList := by
  decide +kernel

end Yaml

end CloudGraph
