import CloudGraph.Proofs.BlockLines
import CloudGraph.Proofs.Leaves
import CloudGraph.Yaml.Descriptor

/-!
# Which texts keep their quotes

The quotes are taken off a descriptor line by line, without regard to the scalar that a line
belongs to. For a value without a tag, this leaves the text as it is but for two layouts. A plain
scalar can be folded so that one of its further lines is a quoted tag, `Block.Exposes`, and a key
in double quotes can hold the opening quote of a tag that the first line of its value closes,
`Block.Closes`. `descriptorText_eq_textOf_iff` says that there is no third one.
-/

namespace CloudGraph.Yaml

/-- A text that is a tag as a whole. -/
def IsTag (text : List Char) : Prop :=
  Tags.isShortForm text = true ∧ '\'' ∉ text ∧ multiline text = false

instance : DecidablePred IsTag := fun text =>
  inferInstanceAs (Decidable (Tags.isShortForm text = true ∧ '\'' ∉ text ∧ multiline text = false))

namespace Block

/-- A plain scalar is folded so that a further line is a tag in quotes, after dashes at most. -/
def Exposes (block : Block) : Prop :=
  ∃ scalar, block.scalar? = some scalar ∧ scalarStyle scalar = .plain ∧
    ∃ line ∈ furtherLines block.written, ∃ (start : Start) (tag : List Char),
      start.colon = false ∧ line = start.text ++ '\'' :: tag ++ ['\''] ∧
      '\'' ∉ tag ∧ Tags.isShortForm tag = true

/-- A key in double quotes holds a colon, a space and the opening quote of a tag, and the only
other quote stands at the end of the first line of the value. -/
def Closes : Block → Prop
  | .leaf (.entry name short) start scalar =>
    ∃ before after first,
      writeScalar false (start.width + 2) start.width name =
        '"' :: before ++ [':', ' ', '\''] ++ after ∧
      firstLine (leaf (.entry name short) start scalar).written = first ++ ['\''] ∧
      '\'' ∉ before ++ after ++ first ∧
      Tags.isShortForm (after ++ [':', ' '] ++ first) = true
  | _ => False

end Block

section Quotes

variable {before rest : List Char}

/-- The lead of a tagged line goes on behind a text without quotes. -/
theorem Tags.Tagged.lead_append (tagged : Tagged (before ++ rest)) (free : '\'' ∉ before) :
    ∃ lead tag, rest = lead ++ '\'' :: tag ++ ['\''] ∧ '\'' ∉ lead ∧ '\'' ∉ tag ∧
      isLead (before ++ lead) = true ∧ isShortForm tag = true := by
  obtain ⟨whole, tag, line_eq, wholeFree, tagFree, isLead, isTag⟩ := tagged
  have opened : '\'' ∈ rest := by
    have inLine : '\'' ∈ before ++ rest := by simp [line_eq]
    exact (List.mem_append.1 inLine).resolve_left free
  obtain ⟨lead, after, rfl, leadFree⟩ := List.eq_append_cons_of_mem opened
  have parts : (before ++ lead) ++ '\'' :: after = whole ++ '\'' :: (tag ++ ['\'']) := by
    simpa using line_eq
  obtain ⟨rfl, rfl⟩ := append_quote_inj (by simp [free, leadFree]) wholeFree parts
  exact ⟨lead, tag, by simp, leadFree, tagFree, isLead, isTag⟩

end Quotes

section Plain

variable {text : List Char}

/-- What is written plain is a plain text, or no text at all and then in figures. -/
theorem plain_of_style {scalar : Atom} (style : scalarStyle scalar = .plain) :
    allowsPlain (scalarText scalar).1 = true ∨ Figures (scalarText scalar).1 := by
  cases scalar with
  | text value =>
      left
      simp only [scalarStyle, styleOf] at style
      split at style
      next allowed =>
        rw [Bool.and_eq_true] at allowed
        exact allowed.1
      next => split at style <;> cases style
  | null | bool | int | float | moment =>
      right
      exact figures_scalarText fun value equal => by cases equal

theorem newline_not_mem_of_style {scalar : Atom} (style : scalarStyle scalar = .plain) :
    '\n' ∉ (scalarText scalar).1 := by
  rcases plain_of_style style with plain | figures
  · exact newline_not_mem_plain plain
  · exact figures.newline_not_mem

/-- The first line of a plain scalar is not tagged by quotes of the scalar alone. -/
theorem not_tagged_plain {lead first : List Char} (plain : allowsPlain text = true)
    (begins : first <+: text) (leadFree : '\'' ∉ lead) : ¬ Tags.Tagged (lead ++ first) := by
  intro tagged
  obtain ⟨before, tag, rfl, -, -, isLead, -⟩ := tagged.lead_append leadFree
  cases before with
  | nil =>
      obtain ⟨after, rfl⟩ := begins
      exact (head_of_plain plain).1 rfl
  | cons c before =>
      rw [not_isLead_plain plain (.trans (by simp) begins) (by simp)] at isLead
      cases isLead

/-- A further line of a plain scalar is tagged only as a tag after dashes. -/
theorem tag_of_tagged_plain {indent : Nat} {part : List Char} (plain : allowsPlain text = true)
    (inText : part <:+: text) (tagged : Tags.Tagged (List.replicate indent ' ' ++ part)) :
    ∃ (start : Start) (tag : List Char), start.colon = false ∧
      List.replicate indent ' ' ++ part = start.text ++ '\'' :: tag ++ ['\''] ∧
      '\'' ∉ tag ∧ Tags.isShortForm tag = true := by
  obtain ⟨before, tag, rfl, -, tagFree, isLead, isTag⟩ := tagged.lead_append (by simp)
  have beforeIn : before <:+: text :=
    List.IsInfix.trans (by simpa using (List.prefix_append before _).isInfix) inText
  obtain ⟨blanks, dashes, lead_eq⟩ := dashes_of_isLead plain beforeIn isLead
  refine ⟨⟨blanks, false, dashes⟩, tag, rfl, ?_, tagFree, isTag⟩
  rw [← List.append_assoc, ← List.append_assoc, lead_eq]
  simp [Start.text]

end Plain

namespace Block

variable {block : Block}

theorem written_eq {scalar : Atom} (holds : block.scalar? = some scalar) :
    block.written =
      writeText (scalarStyle scalar) true block.indent block.lead.length (scalarText scalar).1 := by
  simp [written, holds, writeScalar]

/-- Only a key before its colon puts a quote into a lead. -/
theorem entry_of_quote {scalar : Atom} (holds : block.scalar? = some scalar)
    (quoted : '\'' ∈ block.lead) :
    ∃ key short start, block = .leaf (.entry key short) start scalar ∧
      '\'' ∈ writeScalar false (start.width + 2) start.width key := by
  cases block with
  | above | brackets | again => cases holds
  | key start key => simp [lead, quote_not_mem_start] at quoted
  | leaf role start value =>
      obtain rfl := Option.some.inj holds
      cases role with
      | whole => simp [lead, Role.head, Role.place, Place.space] at quoted
      | entry key short =>
          refine ⟨key, short, start, rfl, ?_⟩
          simpa [lead, Role.head, Role.place, Place.space, quote_not_mem_start] using quoted
      | belowKey key => simp [lead, Role.head, Role.place, Place.space] at quoted
      | item => simp [lead, Role.head, Role.place, Place.space, quote_not_mem_start] at quoted

theorem lead_entry (key : Atom) (short : isSimpleKey key = true) (start : Start) (scalar : Atom) :
    (leaf (.entry key short) start scalar).lead =
      start.text ++ writeScalar false (start.width + 2) start.width key ++ [':', ' '] := by
  simp [lead, Role.head, Role.place, Place.space]

/-- A key that holds the only opening quote of a tag is in double quotes, and the tag follows a
colon and a space in it. -/
theorem opening_of_isLead {key : Atom} {indent column : Nat} {start : Start}
    {before after : List Char}
    (written_eq : writeScalar false indent column key = before ++ '\'' :: after)
    (beforeFree : '\'' ∉ before) (afterFree : '\'' ∉ after)
    (isLead : Tags.isLead (start.text ++ before) = true) :
    ∃ name, before = '"' :: name ++ [':', ' '] := by
  unfold writeScalar writeText at written_eq
  cases style : scalarStyle key with
  | plain =>
      rw [style] at written_eq
      simp only [Bool.false_eq_true, if_false] at written_eq
      rcases plain_of_style style with plain | figures
      · rw [written_eq] at plain
        cases before with
        | nil => exact absurd rfl (head_of_plain plain).1
        | cons c before =>
            rw [not_isLead_plain plain (List.prefix_append _ _) (by simp)] at isLead
            cases isLead
      · exact absurd (by simp [written_eq]) figures.quote_not_mem
  | singleQuoted =>
      rw [style] at written_eq
      cases before with
      | nil =>
          have after_eq := (List.cons.inj written_eq).2
          exact absurd (by simp [← after_eq]) afterFree
      | cons c before =>
          obtain rfl := (List.cons.inj written_eq).1
          exact absurd List.mem_cons_self beforeFree
  | doubleQuoted =>
      rw [style] at written_eq
      cases before with
      | nil => exact absurd (List.cons.inj written_eq).1 (by decide)
      | cons c before =>
          obtain rfl := (List.cons.inj written_eq).1
          have ends := Tags.endsKey_of_isLead (c := '"') isLead (by simp) rfl (by decide)
          obtain ⟨front, -, joined⟩ := Tags.endsKey_iff.1 ends
          obtain ⟨name, rfl⟩ := suffix_after (by decide) ⟨front, joined.symm⟩
          exact ⟨name, rfl⟩

/-- When the first line is tagged by a quote of the lead, the value closes a tag of the key. -/
theorem closes_of_tagged {scalar : Atom} (holds : block.scalar? = some scalar)
    (tagged : Tags.Tagged (block.lead ++ firstLine block.written)) (quoted : '\'' ∈ block.lead) :
    block.Closes := by
  obtain ⟨key, short, start, rfl, inKey⟩ := entry_of_quote holds quoted
  obtain ⟨before, after, key_eq, beforeFree⟩ := List.eq_append_cons_of_mem inKey
  obtain ⟨lead, tag, line_eq, leadFree, tagFree, isLead, isTag⟩ := tagged
  generalize first_eq : firstLine (leaf (.entry key short) start scalar).written = first at line_eq
  have parts : (start.text ++ before) ++ '\'' :: (after ++ [':', ' '] ++ first) =
      lead ++ '\'' :: (tag ++ ['\'']) := by
    simpa [lead_entry, key_eq] using line_eq
  have nameFree : '\'' ∉ start.text ++ before := by simp [beforeFree, quote_not_mem_start]
  obtain ⟨rfl, tag_eq⟩ := append_quote_inj nameFree leadFree parts
  -- The closing quote is the last character of the value's first line.
  rcases List.eq_nil_or_concat first with rfl | ⟨init, c, rfl⟩
  · have last := congrArg List.getLast? tag_eq
    simp at last
  · rw [List.concat_eq_append, ← List.append_assoc] at tag_eq
    obtain ⟨rfl, quote⟩ := List.append_inj' tag_eq rfl
    obtain rfl := (List.cons.inj quote).1
    simp only [List.mem_append, not_or] at tagFree
    obtain ⟨name, rfl⟩ := opening_of_isLead key_eq beforeFree tagFree.1.1 isLead
    refine ⟨name, after, init, by simp [key_eq], by simp [first_eq], ?_, isTag⟩
    simp only [List.cons_append, List.mem_cons, List.mem_append, not_or] at beforeFree ⊢
    exact ⟨⟨beforeFree.2.1, tagFree.1.1⟩, tagFree.2⟩

theorem Closes.tagged (closes : block.Closes) :
    Tags.Tagged (block.lead ++ firstLine block.written) := by
  cases block with
  | leaf role start scalar =>
      cases role with
      | entry key short =>
          obtain ⟨before, after, first, key_eq, first_eq, free, isTag⟩ := closes
          simp only [List.mem_append, not_or] at free
          refine ⟨start.text ++ '"' :: before ++ [':', ' '], after ++ [':', ' '] ++ first,
            ?_, ?_, ?_, ?_, isTag⟩
          · rw [first_eq, lead_entry, key_eq]
            simp
          · simp [quote_not_mem_start, free.1.1]
          · simp [free.1.2, free.2]
          · exact Tags.isLead_iff.2 (.inr (Tags.endsKey_iff.2 ⟨_, by simp, rfl⟩))
      | whole | belowKey | item => exact closes.elim
  | above | brackets | again | key => exact closes.elim

theorem Exposes.tagged (exposes : block.Exposes) :
    ∃ line ∈ furtherLines block.written, Tags.Tagged line := by
  obtain ⟨scalar, -, -, line, member, start, tag, noColon, line_eq, tagFree, isTag⟩ := exposes
  exact ⟨line, member, start.text, tag, line_eq, quote_not_mem_start start, tagFree,
    isLead_start noColon, isTag⟩

/-- The lead of a key after a question mark is not the lead of a tag. -/
theorem not_isLead_key (start : Start) : Tags.isLead (start.text ++ ['?', ' ']) = false := by
  rw [Bool.eq_false_iff]
  intro isLead
  have ends := Tags.endsKey_of_isLead (c := '?') isLead (by simp) rfl (by decide)
  obtain ⟨before, -, joined⟩ := Tags.endsKey_iff.1 ends
  have mark := congrArg (fun text => text.reverse[1]?) joined
  simp at mark

/-- What a plain scalar does to the lines of a block. -/
theorem lines_of_plain {scalar : Atom} (holds : block.scalar? = some scalar)
    (style : scalarStyle scalar = .plain) :
    ('\'' ∉ block.lead → ¬ Tags.Tagged (block.lead ++ firstLine block.written)) ∧
      ((∃ line ∈ furtherLines block.written, Tags.Tagged line) → block.Exposes) := by
  obtain ⟨first, rest, lines, joined⟩ := splitOn_plain block.indent block.lead.length
    (newline_not_mem_of_style style)
  have written := written_eq holds
  rw [style] at written
  rw [← written] at lines
  -- The lines are cut out of the text: the first begins it, and the others are parts of it.
  have begins : first <+: (scalarText scalar).1 := joined ▸ Text.isPrefix_joinWith [' '] first rest
  have inText : ∀ part ∈ rest, part <:+: (scalarText scalar).1 := fun part member =>
    joined ▸ Text.isInfix_joinWith (List.mem_cons_of_mem first member)
  simp only [firstLine, furtherLines, lines, List.headD_cons, List.tail_cons]
  rcases plain_of_style style with plain | figures
  · refine ⟨not_tagged_plain plain begins, ?_⟩
    rintro ⟨line, member, tagged⟩
    refine ⟨scalar, holds, style, line, by simpa [furtherLines, lines] using member, ?_⟩
    obtain ⟨part, inRest, rfl⟩ := List.mem_map.1 member
    exact tag_of_tagged_plain plain (inText part inRest) tagged
  · have noQuote := figures.quote_not_mem
    constructor
    · intro leadFree tagged
      obtain ⟨before, tag, first_eq, -⟩ := tagged.lead_append leadFree
      exact noQuote (begins.subset (by simp [first_eq]))
    · rintro ⟨line, member, tagged⟩
      obtain ⟨part, inRest, rfl⟩ := List.mem_map.1 member
      obtain ⟨before, tag, part_eq, -⟩ := tagged.lead_append (by simp)
      exact absurd ((inText part inRest).subset (by simp [part_eq])) noQuote

theorem allowsSingle_of_style {scalar : Atom} (style : scalarStyle scalar = .singleQuoted) :
    ∃ value, scalar = .text value ∧ allowsSingle value.toList = true := by
  cases scalar with
  | text value =>
      refine ⟨value, rfl, ?_⟩
      simp only [scalarStyle, styleOf] at style
      split at style
      next => cases style
      next =>
        split at style
        next allowed => exact allowed
        next => cases style
  | null | bool | int | float | moment => cases style

theorem multiline_of_allowsSingle {text : List Char} (allowed : allowsSingle text = true)
    (free : '\n' ∉ text) : multiline text = false := by
  simp only [allowsSingle, Bool.and_eq_true, Bool.not_eq_true', List.any_eq_false] at allowed
  rw [multiline, List.any_eq_false]
  intro c member isBreak'
  have clean := allowed.1.1 c member
  simp only [isBreak, Bool.or_eq_true, decide_eq_true_iff] at isBreak'
  rcases isBreak' with ((rfl | rfl) | rfl) | rfl
  · exact free member
  all_goals exact clean (by decide)

/-- What a scalar in single quotes does to the lines of a block. -/
theorem lines_of_singleQuoted {scalar : Atom} (holds : block.scalar? = some scalar)
    (style : scalarStyle scalar = .singleQuoted) :
    ('\'' ∉ block.lead → Tags.Tagged (block.lead ++ firstLine block.written) →
        Tags.isLead block.lead = true ∧ IsTag (scalarText scalar).1) ∧
      ∀ line ∈ furtherLines block.written, ¬ Tags.Tagged line := by
  obtain ⟨value, rfl, allowed⟩ := allowsSingle_of_style style
  have written := written_eq holds
  rw [style] at written
  rcases splitOn_singleQuoted block.indent block.lead.length value.toList with
    ⟨oneLine, free⟩ | ⟨opening, further, lines, notTagged⟩
  · have written_eq : block.written = '\'' :: doubleQuotes value.toList ++ ['\''] :=
      written.trans oneLine
    have lines : Text.splitOn '\n' block.written = [block.written] :=
      Text.splitOn_of_not_mem (by simp [written_eq, mem_doubleQuotes, free])
    simp only [firstLine, furtherLines, lines, List.headD_cons, List.tail_cons]
    refine ⟨fun leadFree tagged => ?_, by simp⟩
    obtain ⟨before, tag, whole, beforeFree, tagFree, isLead, isTag⟩ := tagged.lead_append leadFree
    rw [written_eq] at whole
    have opened : [] ++ '\'' :: (doubleQuotes value.toList ++ ['\'']) =
        before ++ '\'' :: (tag ++ ['\'']) := by
      simpa using whole
    obtain ⟨rfl, tag_eq⟩ := append_quote_inj (by simp) beforeFree opened
    obtain rfl := List.append_cancel_right tag_eq
    rw [mem_doubleQuotes] at tagFree
    rw [doubleQuotes_of_free tagFree] at isTag
    exact ⟨by simpa using isLead, isTag, tagFree, multiline_of_allowsSingle allowed free⟩
  · have lines : Text.splitOn '\n' block.written = ('\'' :: doubleQuotes opening) :: further := by
      rw [written]
      exact lines
    simp only [firstLine, furtherLines, lines, List.headD_cons, List.tail_cons]
    refine ⟨fun leadFree tagged => ?_, notTagged⟩
    exfalso
    rw [← List.singleton_append, ← List.append_assoc] at tagged
    by_cases someText : opening = []
    · have count := tagged.count
      simp [someText, doubleQuotes, List.count_eq_zero_of_not_mem leadFree] at count
    · exact not_tagged_append_doubleQuotes _ someText tagged

theorem settled_of_doubleQuoted {scalar : Atom} (holds : block.scalar? = some scalar)
    (style : scalarStyle scalar = .doubleQuoted) : Settled block.text := by
  intro line member tagged
  have written := written_eq holds
  rw [style] at written
  rw [text, written] at member
  have last := getLast?_of_mem_doubleBody true block.indent (scalarText scalar).1
    (block.lead.length + 1) true [] (block.lead ++ ['"'])
    (by simp [newline_not_mem_lead]) (by simp) line (by simpa [writeText] using member)
  rw [tagged.getLast?] at last
  rcases last with last | last <;> cases last

/-- A block whose scalar is no tag keeps its quotes, unless it exposes a tag or closes one. -/
theorem settled_iff
    (untagged : ∀ role start value, block = .leaf role start (.text value) → ¬ IsTag value.toList) :
    Settled block.text ↔ ¬ block.Exposes ∧ ¬ block.Closes := by
  constructor
  · intro settled
    rw [settled_text_iff] at settled
    refine ⟨fun exposes => ?_, fun closes => settled.1 closes.tagged⟩
    obtain ⟨line, member, tagged⟩ := exposes.tagged
    exact settled.2 line member tagged
  · rintro ⟨notExposed, notClosed⟩
    cases holds : block.scalar? with
    | none => exact settled_of_scalar?_eq_none holds
    | some scalar =>
        have first : ('\'' ∉ block.lead → ¬ Tags.Tagged (block.lead ++ firstLine block.written)) →
            ¬ Tags.Tagged (block.lead ++ firstLine block.written) := by
          intro ofFree tagged
          by_cases quoted : '\'' ∈ block.lead
          · exact notClosed (closes_of_tagged holds tagged quoted)
          · exact ofFree quoted tagged
        cases style : scalarStyle scalar with
        | plain =>
            obtain ⟨ofFree, ofTagged⟩ := lines_of_plain holds style
            refine (settled_text_iff block).2 ⟨first ofFree, fun line member tagged => ?_⟩
            exact notExposed (ofTagged ⟨line, member, tagged⟩)
        | singleQuoted =>
            obtain ⟨ofFree, further⟩ := lines_of_singleQuoted holds style
            refine (settled_text_iff block).2 ⟨first fun leadFree tagged => ?_, further⟩
            obtain ⟨isLead, isTag⟩ := ofFree leadFree tagged
            obtain ⟨value, rfl, -⟩ := allowsSingle_of_style style
            cases block with
            | above | brackets | again => cases holds
            | key start key =>
                rw [lead, not_isLead_key] at isLead
                cases isLead
            | leaf role start scalar =>
                obtain rfl := Option.some.inj holds
                exact untagged role start value rfl isTag
        | doubleQuoted => exact settled_of_doubleQuoted holds style

end Block

/-- The text of a value without tags keeps its quotes, unless one of its blocks exposes a tag or
closes one. -/
theorem unquoteTags_textOf_iff {value : Value}
    (untagged : ∀ role text, (role, .text text) ∈ value.leaves → ¬ IsTag text.toList) :
    unquoteTags (textOf value) = textOf value ↔
      ∀ block ∈ value.blocks, ¬ block.Exposes ∧ ¬ block.Closes := by
  have ending : Settled value.ending := by
    unfold Value.ending
    split <;> exact unquoteTags_eq_self_iff.1 rfl
  rw [unquoteTags_eq_self_iff, textOf_eq, settled_append_iff, and_iff_left ending, blocksText,
    settled_joinWith_iff (by simpa using value.blocks_ne_nil), List.forall_mem_map]
  refine forall₂_congr fun block member => Block.settled_iff ?_
  rintro role start text rfl
  exact untagged role text (Value.mem_leaves_iff.2 ⟨start, member⟩)

/-- The descriptor of a value without tags is its text as it was laid out, unless one of its blocks
exposes a tag or closes one. -/
theorem descriptorText_eq_textOf_iff {value : Value} (formed : writable value = true)
    (untagged : ∀ role text, (role, .text text) ∈ value.leaves → ¬ IsTag text.toList) :
    descriptorText value = .ok (String.ofList (textOf value)) ↔
      ∀ block ∈ value.blocks, ¬ block.Exposes ∧ ¬ block.Closes := by
  rw [← unquoteTags_textOf_iff untagged, descriptorText, if_pos formed]
  simp [String.ofList_inj]

/-- Texts that name a tag in quotes, one of them on a line of its own. -/
def quotingValue : Value :=
  .record [
    ("description", .text "holds the '!Ref table' of an import"),
    ("notes", .texts ["- '!Ref table'", "see\n'!Ref table'"])]

theorem quotingValue_untagged (role : Role) (text : String)
    (member : (role, .text text) ∈ quotingValue.leaves) : ¬ IsTag text.toList := by
  have leaves : quotingValue.leaves =
      [(.ofKey (.text "description"), .text "holds the '!Ref table' of an import"),
        (.item, .text "- '!Ref table'"), (.item, .text "see\n'!Ref table'")] := rfl
  simp only [leaves, List.mem_cons, Prod.mk.injEq, Atom.text.injEq, List.not_mem_nil,
    or_false] at member
  rcases member with ⟨-, rfl⟩ | ⟨-, rfl⟩ | ⟨-, rfl⟩ <;> decide +kernel

theorem quotingValue_keeps_quotes :
    descriptorText quotingValue = .ok (String.ofList (textOf quotingValue)) ∧
      ∀ block ∈ quotingValue.blocks, ¬ block.Exposes ∧ ¬ block.Closes := by
  have kept : unquoteTags (textOf quotingValue) = textOf quotingValue := by decide +kernel
  have formed : writable quotingValue = true := by decide +kernel
  have same : descriptorText quotingValue = .ok (String.ofList (textOf quotingValue)) := by
    rw [descriptorText, if_pos formed, kept]
  exact ⟨same, (descriptorText_eq_textOf_iff formed quotingValue_untagged).1 same⟩

/-- A key with a quoted tag in it, above a value that ends in a quote. -/
def closingValue : Value :=
  .record [("caf\u00e9: '!Ref menu", .text "guests'")]

theorem closingValue_untagged (role : Role) (text : String)
    (member : (role, .text text) ∈ closingValue.leaves) : ¬ IsTag text.toList := by
  have leaves : closingValue.leaves =
      [(.ofKey (.text "caf\u00e9: '!Ref menu"), .text "guests'")] := rfl
  rw [leaves, List.mem_singleton] at member
  obtain rfl := Atom.text.inj (Prod.mk.inj member).2
  decide +kernel

theorem closingValue_loses_quotes :
    descriptorText closingValue = .ok "\"caf\\xE9: !Ref menu\": guests\n" ∧
      ¬ ∀ value : Value, writable value = true →
        (∀ role text, (role, .text text) ∈ value.leaves → ¬ IsTag text.toList) →
        descriptorText value = .ok (String.ofList (textOf value)) := by
  have formed : writable closingValue = true := by decide +kernel
  have text_eq : unquoteTags (textOf closingValue) =
      "\"caf\\xE9: !Ref menu\": guests\n".toList := by
    decide +kernel
  have changed : unquoteTags (textOf closingValue) ≠ textOf closingValue := by decide +kernel
  refine ⟨by rw [descriptorText, if_pos formed, text_eq, String.ofList_toList], fun keeps => ?_⟩
  have kept := keeps closingValue formed closingValue_untagged
  rw [descriptorText, if_pos formed] at kept
  exact changed (String.ofList_inj.1 (Except.ok.inj kept))

end CloudGraph.Yaml
