import CloudGraph.Proofs.Leads
import CloudGraph.Proofs.Patterns

/-!
# The shape of a quoted tag

`quotedTag` is the shape of a line whose end is a tag in quotes, as a regular pattern that is
tried from every line start of a text. Its parts overlap: blanks, dashes and the text of a key
can stand for each other, and the names of the tags share their first letters. Nevertheless a
line reads as the shape in one way at most, which its two quotes decide, so the order in which
the parts are tried does not matter: `Tags.mem_readings_quotedTag`. Therefore rewriting a text by
the shape is taking the quotes off its tags line by line (`rewrite_quotedTag`), and the lines that
change can be told without any pattern.
-/

namespace CloudGraph.Yaml

namespace Tags

open Text

/-- Whether a character may stand in a key or behind a tag. -/
def inLine (c : Char) : Bool := c != '\'' && c != '\n'

/-- Blanks, dashes and then a key, none of which has to be there. -/
def leadPattern : Pattern :=
  .seq (.many (.one spaceOrTab))
    (.seq (.many (.word ['-', ' ']))
      (.optional (.seq (.several (.one inLine)) (.word [':', ' ']))))

/-- An exclamation mark and a name, and then maybe a blank and further text. -/
def tagPattern : Pattern :=
  .seq (.word ['!'])
    (.seq (.anyOf (intrinsicNames.map fun name => .word name.toList))
      (.optional (.seq (.one spaceOrTab) (.many (.one inLine)))))

/-- The shape of a line that ends in a tag between quotes. What stands before the tag is kept, and
so is the tag. -/
def quotedTag : Shape :=
  [.lineStart, .kept leadPattern, .plain (.word ['\'']), .kept tagPattern,
    .plain (.word ['\'']), .lineEnd]

/-- Blanks, and then dashes with a space after each. -/
def IsIndent (lead : List Char) : Prop :=
  ∃ blanks dashes, (∀ c ∈ blanks, c = ' ' ∨ c = '\t') ∧
    lead = blanks ++ (List.replicate dashes ['-', ' ']).flatten

/-- Some text, and then a colon and a space. -/
def IsKey (lead : List Char) : Prop :=
  ∃ key, key ≠ [] ∧ lead = key ++ [':', ' ']

/-- The name of an intrinsic function after an exclamation mark, alone or before a blank and text
without quotes. -/
def IsWholeTag (tag : List Char) : Prop :=
  ∃ name ∈ intrinsicNames, tag = '!' :: name.toList ∨
    ∃ blank text, (blank = ' ' ∨ blank = '\t') ∧ '\'' ∉ text ∧
      tag = '!' :: name.toList ++ blank :: text

theorem spaceOrTab_iff {c : Char} : spaceOrTab c = true ↔ c = ' ' ∨ c = '\t' := by
  simp [spaceOrTab]

theorem inLine_iff {c : Char} : inLine c = true ↔ c ≠ '\'' ∧ c ≠ '\n' := by
  simp [inLine]

theorem forall_inLine_iff {text : List Char} :
    (∀ c ∈ text, inLine c = true) ↔ '\'' ∉ text ∧ '\n' ∉ text := by
  simp only [inLine_iff, forall_and]
  exact and_congr ⟨fun other member => other _ member rfl, fun free c member equal =>
    free (equal ▸ member)⟩ ⟨fun other member => other _ member rfl, fun free c member equal =>
    free (equal ▸ member)⟩

theorem isLead_iff_indent_or_key {lead : List Char} :
    isLead lead = true ↔ IsIndent lead ∨ IsKey lead := by
  simp only [isLead_iff, endsKey_iff, IsIndent, IsKey, spaceOrTab_iff]

/-- No name of an intrinsic function holds a blank or a quote. -/
theorem plain_of_mem_names {name : String} (listed : name ∈ intrinsicNames) :
    ∀ c ∈ name.toList, spaceOrTab c = false ∧ inLine c = true := by
  have all : (intrinsicNames.all fun name =>
      name.toList.all fun c => !spaceOrTab c && inLine c) = true := by decide
  intro c member
  have plain := List.all_eq_true.1 (List.all_eq_true.1 all name listed) c member
  rwa [Bool.and_eq_true, Bool.not_eq_true'] at plain

theorem isShortForm_iff {tag : List Char} (free : '\'' ∉ tag) :
    isShortForm tag = true ↔ IsWholeTag tag := by
  constructor
  · intro short
    unfold isShortForm at short
    split at short
    next rest =>
      have parts := List.takeWhile_append_dropWhile (p := fun c => !spaceOrTab c) (l := rest)
      have listed := List.contains_iff_mem.1 short
      refine ⟨_, listed, ?_⟩
      rw [String.toList_ofList]
      cases left : rest.dropWhile fun c => !spaceOrTab c with
      | nil =>
          rw [left, List.append_nil] at parts
          exact .inl (congrArg _ parts.symm)
      | cons blank text =>
          rw [left] at parts
          have isBlank : spaceOrTab blank = true := by
            have := List.head?_dropWhile_not (fun c => !spaceOrTab c) rest
            simpa [left] using this
          refine .inr ⟨blank, text, spaceOrTab_iff.1 isBlank, fun quote => free ?_, ?_⟩
          · rw [← parts]
            simp [quote]
          · rw [List.cons_append, parts]
    next => cases short
  · rintro ⟨name, listed, ends⟩
    have noBlank : ∀ c ∈ name.toList, (!spaceOrTab c) = true := fun c member => by
      simp [(plain_of_mem_names listed c member).1]
    rcases ends with rfl | ⟨blank, text, isBlank, -, rfl⟩
    · have whole := List.takeWhile_eq_self_iff.2 noBlank
      simpa [isShortForm, whole] using listed
    · have stops : (!spaceOrTab blank) = false := by simp [spaceOrTab_iff.2 isBlank]
      have whole : (name.toList ++ blank :: text).takeWhile (fun c => !spaceOrTab c) =
          name.toList := by
        rw [List.takeWhile_append_of_pos noBlank, List.takeWhile_cons_of_neg (by simp [stops]),
          List.append_nil]
      simpa [isShortForm, whole] using listed

theorem takes_leadPattern {lead : List Char} :
    leadPattern.Takes lead ↔ '\'' ∉ lead ∧ '\n' ∉ lead ∧ isLead lead = true := by
  rw [isLead_iff, endsKey_iff, leadPattern, Pattern.takes_seq]
  simp only [Pattern.takes_many_one, Pattern.takes_seq,
    Pattern.takes_many_word (List.cons_ne_nil '-' [' ']), Pattern.takes_optional,
    Pattern.takes_several_one, Pattern.takes_word, forall_inLine_iff]
  constructor
  · rintro ⟨blanks, _, areBlank, ⟨_, key, ⟨dashes, rfl⟩, hasKey, rfl⟩, rfl⟩
    have blanksFree : '\'' ∉ blanks ∧ '\n' ∉ blanks :=
      ⟨fun member => absurd (areBlank _ member) (by decide),
        fun member => absurd (areBlank _ member) (by decide)⟩
    rcases hasKey with ⟨key, _, ⟨someKey, keyFree⟩, rfl, rfl⟩ | rfl
    · refine ⟨?_, ?_, .inr ⟨blanks ++ (List.replicate dashes ['-', ' ']).flatten ++ key, ?_, ?_⟩⟩
      · simp [blanksFree, keyFree]
      · simp [blanksFree, keyFree]
      · simp [someKey]
      · simp
    · refine ⟨?_, ?_, .inl ⟨blanks, dashes, areBlank, by simp⟩⟩
      · simp [blanksFree]
      · simp [blanksFree]
  · rintro ⟨noQuote, noNewline, ⟨blanks, dashes, areBlank, rfl⟩ | ⟨key, someKey, rfl⟩⟩
    · exact ⟨blanks, _, areBlank, ⟨_, [], ⟨dashes, rfl⟩, .inr rfl, (List.append_nil _).symm⟩, rfl⟩
    · have keyFree : '\'' ∉ key ∧ '\n' ∉ key := by simp_all
      exact ⟨[], _, by simp, ⟨[], _, ⟨0, rfl⟩, .inl ⟨key, _, ⟨someKey, keyFree⟩, rfl, rfl⟩, rfl⟩,
        rfl⟩

theorem takes_names {word : List Char} :
    (Pattern.anyOf (intrinsicNames.map fun name => .word name.toList)).Takes word ↔
      ∃ name ∈ intrinsicNames, word = name.toList := by
  simp [Pattern.takes_anyOf]

theorem takes_tagPattern {tag : List Char} :
    tagPattern.Takes tag ↔ '\'' ∉ tag ∧ '\n' ∉ tag ∧ isShortForm tag = true := by
  rw [tagPattern, Pattern.takes_seq]
  simp only [Pattern.takes_seq, Pattern.takes_word, takes_names, Pattern.takes_optional,
    Pattern.takes_one, Pattern.takes_many_one, forall_inLine_iff]
  have plain : ∀ name ∈ intrinsicNames, '\'' ∉ name.toList ∧ '\n' ∉ name.toList :=
    fun name listed => forall_inLine_iff.1 fun c member => (plain_of_mem_names listed c member).2
  constructor
  · rintro ⟨_, _, rfl, ⟨_, _, ⟨name, listed, rfl⟩, ends, rfl⟩, rfl⟩
    have nameFree := plain name listed
    rcases ends with ⟨_, text, ⟨blank, isBlank, rfl⟩, textFree, rfl⟩ | rfl
    · have blankFree : blank ≠ '\'' ∧ blank ≠ '\n' := by
        rcases spaceOrTab_iff.1 isBlank with rfl | rfl <;> decide
      have noQuote : '\'' ∉ '!' :: name.toList ++ blank :: text := by
        simp [nameFree, blankFree.1.symm, textFree]
      refine ⟨noQuote, by simp [nameFree, blankFree.2.symm, textFree], ?_⟩
      refine (isShortForm_iff noQuote).2 ⟨name, listed, .inr ⟨blank, text, ?_, textFree.1, rfl⟩⟩
      exact spaceOrTab_iff.1 isBlank
    · have noQuote : '\'' ∉ '!' :: name.toList := by simp [nameFree]
      rw [List.append_nil]
      exact ⟨noQuote, by simp [nameFree], (isShortForm_iff noQuote).2 ⟨name, listed, .inl rfl⟩⟩
  · rintro ⟨noQuote, noNewline, short⟩
    obtain ⟨name, listed, rfl | ⟨blank, text, isBlank, textFree, rfl⟩⟩ :=
      (isShortForm_iff noQuote).1 short
    · exact ⟨_, _, rfl, ⟨_, _, ⟨name, listed, rfl⟩, .inr rfl, rfl⟩, by simp⟩
    · have noNewlineIn : '\n' ∉ text := fun member => noNewline (by simp [member])
      refine ⟨_, _, rfl, ⟨_, _, ⟨name, listed, rfl⟩, .inl ?_, rfl⟩, rfl⟩
      exact ⟨[blank], text, ⟨blank, spaceOrTab_iff.2 isBlank, rfl⟩, ⟨textFree, noNewlineIn⟩, rfl⟩

/-- A text reads as a quoted tag only at a line start, and only in the one way in which its first
line is tagged. -/
theorem mem_readings_quotedTag {last? : Option Char} {text : List Char} {reading : Reading} :
    reading ∈ quotedTag.readings last? text ↔
      (∀ c, last? = some c → c = '\n') ∧ ∃ lead tag,
        ('\'' ∉ lead ∧ '\n' ∉ lead ∧ isLead lead = true) ∧
        ('\'' ∉ tag ∧ '\n' ∉ tag ∧ isShortForm tag = true) ∧
        text = lead ++ '\'' :: tag ++ '\'' :: reading.rest ∧ endsLine reading.rest = true ∧
        reading = ⟨[lead, tag], some '\'', reading.rest⟩ := by
  simp only [quotedTag, Shape.mem_readings_lineStart, Shape.mem_readings_kept,
    Shape.mem_readings_plain, Shape.mem_readings_lineEnd, takes_leadPattern, takes_tagPattern,
    Pattern.takes_word]
  refine and_congr_right fun _ => ?_
  constructor
  · rintro ⟨lead, _, isLead, rfl, _, ⟨_, _, rfl, rfl, tag, _, isTag, rfl, _, ⟨_, _, rfl, rfl, ends,
      last⟩, rfl⟩, rfl⟩
    simp only [Shape.readings, List.mem_singleton] at last
    subst last
    exact ⟨lead, tag, isLead, isTag, by simp, ends, by simp⟩
  · rintro ⟨lead, tag, isLead, isTag, text_eq, ends, reading_eq⟩
    refine ⟨lead, _, isLead, by simp [text_eq], _, ⟨['\''], _, rfl, rfl, tag, _, isTag,
      rfl, _, ⟨['\''], _, rfl, rfl, ends, List.mem_singleton.2 rfl⟩, rfl⟩, ?_⟩
    simpa using reading_eq

variable {last? : Option Char} {line tail text : List Char}

/-- At the start of a tagged line the quotes are left out, and nothing else of the line. -/
theorem rewriteFrom_tagged (atStart : ∀ c, last? = some c → c = '\n') (free : '\n' ∉ line)
    (tagged : Tagged line) (ends : endsLine tail = true) :
    quotedTag.rewriteFrom List.flatten last? (line ++ tail) =
      unquoteLine line ++ quotedTag.rewriteFrom List.flatten (some '\'') tail := by
  obtain ⟨lead, tag, rfl, leadFree, tagFree, isLead, isTag⟩ := tagged
  have leadLine : '\n' ∉ lead := fun member => free (by simp [member])
  have tagLine : '\n' ∉ tag := fun member => free (by simp [member])
  have text_eq : lead ++ '\'' :: tag ++ ['\''] ++ tail = lead ++ '\'' :: tag ++ '\'' :: tail := by
    simp
  have reads : ⟨[lead, tag], some '\'', tail⟩ ∈
      quotedTag.readings last? (lead ++ '\'' :: tag ++ ['\''] ++ tail) :=
    mem_readings_quotedTag.2 ⟨atStart, lead, tag, ⟨leadFree, leadLine, isLead⟩,
      ⟨tagFree, tagLine, isTag⟩, text_eq, ends, rfl⟩
  -- The first reading is this one, since the quotes of the line admit no other.
  have first : quotedTag.firstReading? last? (lead ++ '\'' :: tag ++ ['\''] ++ tail) =
      some ⟨[lead, tag], some '\'', tail⟩ := by
    cases found : quotedTag.firstReading? last? (lead ++ '\'' :: tag ++ ['\''] ++ tail) with
    | none =>
        have passed := List.find?_eq_none.1 found _ reads
        simp at passed
        omega
    | some reading =>
        obtain ⟨-, lead', tag', leadOther, tagOther, other_eq, -, reading_eq⟩ :=
          mem_readings_quotedTag.1 (List.mem_of_find?_eq_some found)
        rw [text_eq, List.append_assoc, List.append_assoc] at other_eq
        obtain ⟨rfl, after_eq⟩ := append_quote_inj leadFree leadOther.1 other_eq
        obtain ⟨rfl, rest_eq⟩ := append_quote_inj tagFree tagOther.1 after_eq
        rw [reading_eq, rest_eq]
  rw [Shape.rewriteFrom_of_reading first, unquoteLine_of_tag leadFree tagFree, isLead, isTag]
  simp

/-- Behind a character of a line, the rest of the line is copied. -/
theorem rewriteFrom_inside {c : Char} (inside : c ≠ '\n') (free : '\n' ∉ line)
    (tail : List Char) :
    ∃ d, quotedTag.rewriteFrom List.flatten (some c) (line ++ tail) =
      line ++ quotedTag.rewriteFrom List.flatten (some d) tail := by
  induction line generalizing c with
  | nil => exact ⟨c, rfl⟩
  | cons d line ih =>
      rw [List.mem_cons, not_or] at free
      have none : quotedTag.readings (some c) (d :: (line ++ tail)) = [] :=
        List.eq_nil_iff_forall_not_mem.2 fun reading reads =>
          inside ((mem_readings_quotedTag.1 reads).1 c rfl)
      obtain ⟨last, copied⟩ := ih (Ne.symm free.1) free.2
      exact ⟨last, by rw [List.cons_append, Shape.rewriteFrom_cons none, copied, List.cons_append]⟩

theorem takeWhile_line (free : '\n' ∉ line) (ends : endsLine tail = true) :
    (line ++ tail).takeWhile (· != '\n') = line := by
  have inside : ∀ c ∈ line, (c != '\n') = true := fun c member => by
    simpa using fun equal : c = '\n' => free (equal ▸ member)
  rw [List.takeWhile_append_of_pos inside]
  cases tail with
  | nil => simp
  | cons c tail =>
      have newline : c = '\n' := by simpa [endsLine] using ends
      simp [newline]

/-- Where a line is not tagged, no shape is read. -/
theorem readings_of_untagged (free : '\n' ∉ line) (untagged : ¬ Tagged line)
    (ends : endsLine tail = true) : quotedTag.readings last? (line ++ tail) = [] := by
  refine List.eq_nil_iff_forall_not_mem.2 fun reading reads => untagged ?_
  obtain ⟨-, lead, tag, ⟨leadFree, leadLine, isLead⟩, ⟨tagFree, tagLine, isTag⟩, text_eq, endsToo,
    -⟩ := mem_readings_quotedTag.1 reads
  have parts : line ++ tail = (lead ++ '\'' :: tag ++ ['\'']) ++ reading.rest := by
    simpa using text_eq
  have sameLine := congrArg (List.takeWhile (· != '\n')) parts
  rw [takeWhile_line free ends, takeWhile_line (by simp [leadLine, tagLine]) endsToo] at sameLine
  exact ⟨lead, tag, sameLine, leadFree, tagFree, isLead, isTag⟩

/-- From a line start, one line is rewritten for itself. -/
theorem rewriteFrom_line (atStart : ∀ c, last? = some c → c = '\n') (free : '\n' ∉ line)
    (ends : endsLine tail = true) :
    ∃ before?, quotedTag.rewriteFrom List.flatten last? (line ++ tail) =
      unquoteLine line ++ quotedTag.rewriteFrom List.flatten before? tail := by
  by_cases tagged : Tagged line
  · exact ⟨_, rewriteFrom_tagged atStart free tagged ends⟩
  · rw [unquoteLine_eq_self_iff.2 tagged]
    cases line with
    | nil => exact ⟨last?, rfl⟩
    | cons c line =>
        have none : quotedTag.readings last? (c :: (line ++ tail)) = [] :=
          readings_of_untagged free tagged ends
        rw [List.mem_cons, not_or] at free
        obtain ⟨d, copied⟩ := rewriteFrom_inside (Ne.symm free.1) free.2 tail
        refine ⟨some d, ?_⟩
        rw [List.cons_append, Shape.rewriteFrom_cons none, copied, List.cons_append]

/-- A line end is copied. -/
theorem rewriteFrom_newline :
    quotedTag.rewriteFrom List.flatten last? ('\n' :: text) =
      '\n' :: quotedTag.rewriteFrom List.flatten (some '\n') text := by
  have untagged : ¬ Tagged [] := by
    rintro ⟨lead, tag, line_eq, -⟩
    simp at line_eq
  have none : quotedTag.readings last? ([] ++ '\n' :: text) = [] :=
    readings_of_untagged (by simp) untagged rfl
  exact Shape.rewriteFrom_cons none

/-- From a line start, all lines are rewritten, each for itself. -/
theorem rewriteFrom_lines {lines : List (List Char)} (someLine : lines ≠ [])
    (free : ∀ line ∈ lines, '\n' ∉ line) (atStart : ∀ c, last? = some c → c = '\n') :
    quotedTag.rewriteFrom List.flatten last? (joinWith ['\n'] lines) =
      joinWith ['\n'] (lines.map unquoteLine) := by
  induction lines generalizing last? with
  | nil => exact absurd rfl someLine
  | cons line lines ih =>
      obtain ⟨lineFree, linesFree⟩ := List.forall_mem_cons.1 free
      cases lines with
      | nil =>
          have ends : endsLine [] = true := rfl
          obtain ⟨before?, whole⟩ := rewriteFrom_line atStart lineFree ends
          simpa [joinWith] using whole
      | cons next lines =>
          rw [joinWith_cons (List.cons_ne_nil next lines), List.map_cons (a := line),
            @joinWith_cons ['\n'] (unquoteLine line) _ (by simp), List.append_assoc,
            List.singleton_append, List.append_assoc, List.singleton_append]
          have ends : endsLine ('\n' :: joinWith ['\n'] (next :: lines)) = true := rfl
          obtain ⟨before?, first⟩ := rewriteFrom_line atStart lineFree ends
          rw [first, rewriteFrom_newline, ih (by simp) linesFree fun c last => ?_]
          exact (Option.some.inj last).symm

end Tags

/-- Rewriting a text by the shape of a quoted tag takes the quotes off its tags line by line. -/
theorem rewrite_quotedTag (text : List Char) :
    Tags.quotedTag.rewrite List.flatten text = unquoteTags text := by
  have atStart : ∀ c, (none : Option Char) = some c → c = '\n' := by simp
  have lines := Tags.rewriteFrom_lines (Text.splitOn_ne_nil '\n' text)
    (fun line member => Text.not_mem_of_mem_splitOn member) atStart
  rwa [Text.joinWith_splitOn] at lines

end CloudGraph.Yaml
