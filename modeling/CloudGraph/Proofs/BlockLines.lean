import CloudGraph.Proofs.Blocks
import CloudGraph.Proofs.Figures
import CloudGraph.Proofs.Leads
import CloudGraph.Proofs.ScalarLines

/-!
# The lines of a block

A block takes up the line of its lead and the further lines of its scalar, `Block.splitOn_text`.
The lead is never cut, and a line that holds no scalar never ends in a quote. `Role.Bares` says
which leads a tag can follow without its quotes, in terms of what stands in the document above
the tag: `Role.bares_iff`.
-/

namespace CloudGraph.Yaml

/-- A text up to its first line end. -/
def firstLine (text : List Char) : List Char :=
  (Text.splitOn '\n' text).headD []

/-- The lines of a text below the first. -/
def furtherLines (text : List Char) : List (List Char) :=
  (Text.splitOn '\n' text).tail

theorem splitOn_eq_lines (text : List Char) :
    Text.splitOn '\n' text = firstLine text :: furtherLines text := by
  obtain ⟨line, lines, parts⟩ := List.exists_cons_of_ne_nil (Text.splitOn_ne_nil '\n' text)
  simp [firstLine, furtherLines, parts]

section Keys

variable {key : Atom} {indent column : Nat}

theorem newline_not_mem_scalarText (oneLine : multiline (scalarText key).1 = false) :
    '\n' ∉ (scalarText key).1 := by
  intro member
  have isMultiline : multiline (scalarText key).1 = true :=
    List.any_eq_true.2 ⟨'\n', member, rfl⟩
  rw [isMultiline] at oneLine
  cases oneLine

/-- A key before its colon is its text, with doubled quotes or with escapes. -/
theorem mem_written_key {c : Char} (member : c ∈ writeScalar false indent column key) :
    c ∈ (scalarText key).1 ∨ (c ≠ '\n' ∧ (c = '\'' → scalarStyle key = .singleQuoted)) := by
  unfold writeScalar writeText at member
  cases style : scalarStyle key with
  | plain =>
      rw [style] at member
      exact .inl member
  | singleQuoted =>
      rw [style] at member
      simp only [List.cons_append, List.mem_cons, List.mem_append, List.not_mem_nil, or_false,
        Bool.false_eq_true, if_false, mem_doubleQuotes] at member
      rcases member with rfl | member | rfl
      · exact .inr ⟨by decide, fun _ => rfl⟩
      · exact .inl member
      · exact .inr ⟨by decide, fun _ => rfl⟩
  | doubleQuoted =>
      rw [style] at member
      simp only [doubleBody_unsplit, List.reverse_nil, List.nil_append, List.cons_append,
        List.mem_cons, List.mem_append, List.not_mem_nil, or_false, List.mem_flatMap] at member
      rcases member with rfl | ⟨d, inText, inEscape⟩ | rfl
      · exact .inr ⟨by decide, fun quote => absurd quote (by decide)⟩
      · split at inEscape
        next =>
          have clean := mem_escape inEscape
          exact .inr ⟨clean.1, fun quote => absurd quote clean.2⟩
        next =>
          rw [List.mem_singleton.1 inEscape]
          exact .inl inText
      · exact .inr ⟨by decide, fun quote => absurd quote (by decide)⟩

theorem newline_not_mem_written_key (short : isSimpleKey key = true) :
    '\n' ∉ writeScalar false indent column key := by
  have oneLine : multiline (scalarText key).1 = false := by
    simp [isSimpleKey] at short
    exact short.2
  intro member
  rcases mem_written_key member with inText | ⟨other, -⟩
  · exact newline_not_mem_scalarText oneLine inText
  · exact other rfl

theorem written_key_ne_nil (short : isSimpleKey key = true) :
    writeScalar false indent column key ≠ [] := by
  have someText : (scalarText key).1 ≠ [] := by
    simp [isSimpleKey] at short
    exact short.1.2
  unfold writeScalar writeText
  cases scalarStyle key with
  | plain => simpa using someText
  | singleQuoted => simp
  | doubleQuoted => simp

/-- Where a key before its colon shows a quote. -/
theorem quote_mem_written_key_iff :
    '\'' ∈ writeScalar false indent column key ↔
      scalarStyle key = .singleQuoted ∨ '\'' ∈ (scalarText key).1 := by
  constructor
  · intro member
    rcases mem_written_key member with inText | ⟨-, single⟩
    · exact .inr inText
    · exact .inl (single rfl)
  · intro quoted
    unfold writeScalar writeText
    cases style : scalarStyle key with
    | plain =>
        rw [style] at quoted
        simpa using quoted
    | singleQuoted => simp
    | doubleQuoted =>
        rw [style] at quoted
        have inText : '\'' ∈ (scalarText key).1 := by simpa using quoted
        simp only [doubleBody_unsplit, List.reverse_nil, List.nil_append, List.cons_append,
          List.mem_cons, List.mem_append, List.mem_flatMap]
        exact .inr (.inl ⟨'\'', inText, by decide⟩)

end Keys

section Leads

variable (role : Role) (start : Start)

theorem newline_not_mem_start : '\n' ∉ start.text := by
  intro member
  rcases start.mem_text member with equal | equal | equal <;> exact absurd equal (by decide)

theorem quote_not_mem_start : '\'' ∉ start.text := by
  intro member
  rcases start.mem_text member with equal | equal | equal <;> exact absurd equal (by decide)

theorem newline_not_mem_head : '\n' ∉ role.head start := by
  have startFree := newline_not_mem_start start
  cases role with
  | whole => simp [Role.head]
  | entry key short =>
      simp [Role.head, startFree, newline_not_mem_written_key short]
  | belowKey key => simp [Role.head]
  | item => simp [Role.head, startFree]

theorem newline_not_mem_space (place : Place) : '\n' ∉ place.space := by
  cases place <;> simp [Place.space]

theorem figures_anchorName (anchor : Nat) : Figures (anchorName anchor) := by
  simp only [anchorName, List.cons_append, figures_cons, figures_append]
  exact ⟨rfl, rfl, figures_zeros _, figures_digits _⟩

/-- A lead is never cut. -/
theorem Block.newline_not_mem_lead (block : Block) : '\n' ∉ block.lead := by
  have headFree := newline_not_mem_head
  have spaceFree := newline_not_mem_space
  have anchorFree : ∀ anchor, '\n' ∉ anchorName anchor := fun anchor =>
    (figures_anchorName anchor).newline_not_mem
  cases block with
  | above role start anchor =>
      cases anchor <;> simp [lead, Place.anchorText, headFree, spaceFree, anchorFree]
  | brackets role start anchor form =>
      cases anchor <;> cases form <;>
        simp [lead, Place.anchorText, headFree, spaceFree, anchorFree, Form.brackets]
  | again role start anchor => simp [lead, headFree, spaceFree, anchorFree]
  | key start key => simp [lead, newline_not_mem_start]
  | leaf role start scalar => simp [lead, headFree, spaceFree]

theorem getLast?_head : (role.head start).getLast? ≠ some '\'' := by
  cases role with
  | whole => simp [Role.head]
  | entry key short =>
      rw [Role.head, List.getLast?_concat]
      simp
  | belowKey key =>
      rw [Role.head, List.getLast?_concat]
      simp
  | item =>
      rw [Role.head, List.getLast?_concat]
      simp

theorem getLast?_anchorName (before : List Char) (anchor : Nat) :
    (before ++ anchorName anchor).getLast? ≠ some '\'' := by
  intro last
  rw [List.getLast?_append_of_ne_nil _ (by simp [anchorName])] at last
  exact (figures_anchorName anchor).quote_not_mem (List.mem_of_getLast? last)

/-- What stands before a scalar, or stands alone on a line, does not end in a quote. -/
theorem Block.getLast?_lead (block : Block) : block.lead.getLast? ≠ some '\'' := by
  cases block with
  | above role start anchor =>
      cases anchor with
      | none => simpa [lead, Place.anchorText] using getLast?_head role start
      | some anchor =>
          have last := getLast?_anchorName (role.head start ++ role.place.space ++ ['&']) anchor
          simpa [lead, Place.anchorText] using last
  | brackets role start anchor form =>
      cases form <;> simp [lead, Form.brackets]
  | again role start anchor =>
      have last := getLast?_anchorName (role.head start ++ role.place.space ++ ['*']) anchor
      simpa [lead] using last
  | key start key => simp [lead]
  | leaf role start scalar =>
      cases role <;> simp [lead, Role.place, Place.space, Role.head]

/-- The lines of a block: that of its lead, and the further lines of its scalar. -/
theorem Block.splitOn_text (block : Block) :
    Text.splitOn '\n' block.text =
      (block.lead ++ firstLine block.written) :: furtherLines block.written :=
  Text.splitOn_append_of_not_mem block.newline_not_mem_lead (splitOn_eq_lines block.written)

theorem Block.settled_text_iff (block : Block) :
    Settled block.text ↔ ¬ Tags.Tagged (block.lead ++ firstLine block.written) ∧
      ∀ line ∈ furtherLines block.written, ¬ Tags.Tagged line := by
  rw [Settled, splitOn_text, List.forall_mem_cons]

theorem Block.settled_of_scalar?_eq_none {block : Block} (noScalar : block.scalar? = none) :
    Settled block.text := by
  have text_eq : block.text = block.lead := by simp [text, written, noScalar]
  rw [text_eq, settled_line_iff block.newline_not_mem_lead]
  exact fun tagged => block.getLast?_lead tagged.getLast?

end Leads

section Bares

/-- Whether a tag loses its quotes in a role: not after a key that is written with a quote, nor
behind a colon at the left margin, nor in a list whose first dash follows a colon. -/
def Role.Bares (start : Start) : Role → Prop
  | whole => True
  | entry key _ => scalarStyle key ≠ .singleQuoted ∧ '\'' ∉ (scalarText key).1
  | belowKey _ => 0 < start.width
  | item => start.colon = false

/-- A tag may follow dashes and blanks. -/
theorem isLead_start {start : Start} (noColon : start.colon = false) :
    Tags.isLead start.text = true := by
  refine Tags.isLead_iff.2 (.inl ⟨List.replicate start.blanks ' ', start.dashes, ?_, ?_⟩)
  · intro c member
    rw [(List.mem_replicate.1 member).2]
    rfl
  · simp [Start.text, noColon]

/-- No tag may follow a dash behind a colon. -/
theorem not_isLead_dashed {start : Start} (colon : start.colon = true) :
    Tags.isLead (start.text ++ ['-', ' ']) = false := by
  rw [Bool.eq_false_iff]
  intro isLead
  have ends := Tags.endsKey_of_isLead (c := ':') isLead (by simp [Start.text, colon]) rfl (by decide)
  obtain ⟨before, -, joined⟩ := Tags.endsKey_iff.1 ends
  have dash := congrArg (fun text => text.reverse[1]?) joined
  simp at dash

/-- The roles in which a tag may follow its lead, and the lead holds no quote. -/
theorem Role.bares_iff (role : Role) (start : Start) (scalar : Atom) :
    role.Bares start ↔ '\'' ∉ (Block.leaf role start scalar).lead ∧
      Tags.isLead (Block.leaf role start scalar).lead = true := by
  have startFree := quote_not_mem_start start
  cases role with
  | whole => simp [Bares, Block.lead, head, place, Place.space, Tags.isLead, Tags.dropDashes]
  | entry key short =>
      have someKey : start.text ++ writeScalar false (start.width + 2) start.width key ≠ [] :=
        List.append_ne_nil_of_right_ne_nil _ (written_key_ne_nil short)
      have lead_eq : (Block.leaf (entry key short) start scalar).lead =
          start.text ++ writeScalar false (start.width + 2) start.width key ++ [':', ' '] := by
        simp [Block.lead, head, place, Place.space]
      rw [lead_eq, Tags.isLead, Tags.endsKey_iff.2 ⟨_, someKey, rfl⟩]
      simp [Bares, startFree, quote_mem_written_key_iff]
  | belowKey key =>
      have lead_eq : (Block.leaf (belowKey key) start scalar).lead =
          List.replicate start.width ' ' ++ [':', ' '] := by
        simp [Block.lead, head, place, Place.space]
      rw [lead_eq]
      cases width : start.width with
      | zero => simp [Bares, width, Tags.isLead, Tags.dropDashes, Tags.endsKey, spaceOrTab]
      | succ width' =>
          have ends := Tags.endsKey_iff.2
            ⟨List.replicate (width' + 1) ' ', by simp, rfl⟩
          simp [Bares, width, Tags.isLead, ends]
  | item =>
      have lead_eq : (Block.leaf item start scalar).lead = start.text ++ ['-', ' '] := by
        simp [Block.lead, head, place, Place.space]
      rw [lead_eq]
      cases colon : start.colon with
      | true => simp [Bares, colon, not_isLead_dashed colon]
      | false =>
          have fits : Tags.isLead start.dashed.text = true := isLead_start colon
          rw [Start.text_dashed] at fits
          simp [Bares, colon, fits, startFree]

end Bares

end CloudGraph.Yaml
