import CloudGraph.Proofs.Lines
import CloudGraph.Yaml.Scalar

/-!
# Leads of tags

A lead is blanks and dashes, or it ends a key: `Tags.isLead_iff`. A text that may be written
plain neither starts with a dash before a space nor holds a colon before one, so what it begins
with never makes a lead, `not_isLead_plain`. A line further down may be cut so that it starts
with dashes, and these are then all that can stand before a tag, `dashes_of_isLead`.
-/

namespace CloudGraph.Yaml

namespace Tags

theorem endsKey_iff {lead : List Char} :
    endsKey lead = true ↔ ∃ before, before ≠ [] ∧ lead = before ++ [':', ' '] := by
  constructor
  · intro ends
    unfold endsKey at ends
    split at ends
    next c rest reversed =>
      refine ⟨(c :: rest).reverse, by simp, ?_⟩
      have lead_eq := congrArg List.reverse reversed
      simpa using lead_eq
    next => cases ends
  · rintro ⟨before, someBefore, rfl⟩
    obtain ⟨c, rest, reversed⟩ := List.exists_cons_of_ne_nil (List.reverse_ne_nil_iff.2 someBefore)
    simp [endsKey, reversed]

theorem dropDashes_dashes (dashes : Nat) :
    dropDashes (List.replicate dashes ['-', ' ']).flatten = [] := by
  induction dashes with
  | zero => rfl
  | succ dashes ih => simpa [List.replicate_succ, dropDashes] using ih

theorem dropDashes_eq_nil_iff {text : List Char} :
    dropDashes text = [] ↔ ∃ dashes, text = (List.replicate dashes ['-', ' ']).flatten := by
  constructor
  · intro dropped
    induction text using dropDashes.induct with
    | case1 rest ih =>
        rw [dropDashes] at dropped
        obtain ⟨dashes, rfl⟩ := ih dropped
        exact ⟨dashes + 1, by simp [List.replicate_succ]⟩
    | case2 rest noDash =>
        rw [dropDashes] at dropped
        · exact ⟨0, dropped⟩
        · exact noDash
  · rintro ⟨dashes, rfl⟩
    exact dropDashes_dashes dashes

/-- A lead is blanks and dashes, or it ends a key. -/
theorem isLead_iff {lead : List Char} :
    isLead lead = true ↔
      (∃ blanks dashes, (∀ c ∈ blanks, spaceOrTab c = true) ∧
        lead = blanks ++ (List.replicate dashes ['-', ' ']).flatten) ∨ endsKey lead = true := by
  rw [isLead, Bool.or_eq_true, List.isEmpty_iff, dropDashes_eq_nil_iff]
  refine or_congr_left ⟨?_, ?_⟩
  · rintro ⟨dashes, rest⟩
    refine ⟨lead.takeWhile spaceOrTab, dashes, fun c member => List.mem_takeWhile_imp member, ?_⟩
    rw [← rest, List.takeWhile_append_dropWhile]
  · rintro ⟨blanks, dashes, areBlank, rfl⟩
    refine ⟨dashes, ?_⟩
    rw [List.dropWhile_append_of_pos areBlank]
    cases dashes with
    | zero => rfl
    | succ dashes => rfl

/-- In a lead of blanks and dashes, a blank follows every dash. -/
theorem blank_after_dash {blanks before after : List Char} {dashes : Nat} {c : Char}
    (areBlank : ∀ c ∈ blanks, spaceOrTab c = true) (noBlank : spaceOrTab c = false)
    (lead_eq : blanks ++ (List.replicate dashes ['-', ' ']).flatten = before ++ c :: after) :
    c = '-' ∧ after.head? = some ' ' := by
  induction blanks generalizing before with
  | nil =>
      rw [List.nil_append] at lead_eq
      induction dashes generalizing before with
      | zero => simp at lead_eq
      | succ dashes ih =>
          rw [List.replicate_succ, List.flatten_cons] at lead_eq
          match before with
          | [] =>
              simp only [List.cons_append, List.nil_append, List.cons.injEq] at lead_eq
              obtain ⟨rfl, rfl⟩ := lead_eq
              exact ⟨rfl, rfl⟩
          | [first] =>
              simp only [List.cons_append, List.nil_append, List.cons.injEq] at lead_eq
              rw [← lead_eq.2.1] at noBlank
              cases noBlank
          | first :: second :: before =>
              simp only [List.cons_append, List.nil_append, List.cons.injEq] at lead_eq
              exact ih lead_eq.2.2
  | cons blank blanks ih =>
      cases before with
      | nil =>
          simp only [List.cons_append, List.nil_append, List.cons.injEq] at lead_eq
          have isBlank := areBlank blank List.mem_cons_self
          rw [lead_eq.1, noBlank] at isBlank
          cases isBlank
      | cons first before =>
          simp only [List.cons_append, List.cons.injEq] at lead_eq
          exact ih (fun c member => areBlank c (List.mem_cons_of_mem _ member)) lead_eq.2

/-- A lead with anything but blanks and dashes in it ends a key. -/
theorem endsKey_of_isLead {lead : List Char} {c : Char} (isLead : isLead lead = true)
    (member : c ∈ lead) (noBlank : spaceOrTab c = false) (noDash : c ≠ '-') :
    endsKey lead = true := by
  rcases isLead_iff.1 isLead with ⟨blanks, dashes, areBlank, lead_eq⟩ | ends
  · obtain ⟨before, after, split⟩ := List.append_of_mem member
    exact absurd (blank_after_dash areBlank noBlank (lead_eq.symm.trans split)).1 noDash
  · exact ends

end Tags

section Suffixes

theorem suffix_of_not_mem {c : Char} {ending first second : List Char} (free : c ∉ first)
    (suffix : c :: ending <:+ first ++ second) : c :: ending <:+ second := by
  obtain ⟨before, joined⟩ := suffix
  rcases List.append_eq_append_iff.1 joined with ⟨middle, first_eq, ending_eq⟩ | ⟨middle, -, rfl⟩
  · cases middle with
    | nil => exact ⟨[], by simpa using ending_eq⟩
    | cons d middle =>
        obtain ⟨rfl, -⟩ := List.cons.inj ending_eq
        exact absurd (by simp [first_eq]) free
  · exact ⟨middle, rfl⟩

theorem suffix_after {c : Char} {ending first second : List Char} (free : c ∉ ending)
    (suffix : ending <:+ first ++ c :: second) : ending <:+ second := by
  obtain ⟨before, joined⟩ := suffix
  rcases List.append_eq_append_iff.1 joined with ⟨middle, -, ending_eq⟩ | ⟨middle, -, second_eq⟩
  · exact absurd (by simp [ending_eq]) free
  · cases middle with
    | nil =>
        rw [List.nil_append] at second_eq
        exact absurd (by simp [← second_eq]) free
    | cons d middle =>
        obtain ⟨-, rfl⟩ := List.cons.inj second_eq
        exact ⟨middle, rfl⟩

end Suffixes

section Plain

variable {text : List Char}

theorem no_mark_before_space {before : Char} (noMark : holdsMark before text = false) :
    ¬ [':', ' '] <:+: text := by
  induction text generalizing before with
  | nil => simp
  | cons c text ih =>
      simp only [holdsMark, Bool.or_eq_false_iff] at noMark
      rw [List.infix_cons_iff]
      rintro (atStart | further)
      · obtain ⟨rest, text_eq⟩ := atStart
        obtain ⟨rfl, rfl⟩ := List.cons.inj text_eq
        simp [separated, isSeparator] at noMark
      · exact ih noMark.2 further

/-- A plain text holds no colon before a space. -/
theorem no_colon_before_space (plain : allowsPlain text = true) : ¬ [':', ' '] <:+: text := by
  cases text with
  | nil => simp
  | cons c text =>
      simp only [allowsPlain, startsIndicator, Bool.and_eq_true, Bool.not_eq_true',
        Bool.or_eq_false_iff] at plain
      rw [List.infix_cons_iff]
      rintro (atStart | further)
      · obtain ⟨rest, text_eq⟩ := atStart
        obtain ⟨rfl, rfl⟩ := List.cons.inj text_eq
        simp [separated, isSeparator] at plain
      · exact no_mark_before_space plain.2 further

theorem not_special_of_plain (plain : allowsPlain text = true) :
    ∀ c ∈ text, isSpecial c = false := by
  simp only [allowsPlain, Bool.and_eq_true, Bool.not_eq_true', List.any_eq_false] at plain
  simpa using plain.1.1.2

theorem newline_not_mem_plain (plain : allowsPlain text = true) : '\n' ∉ text := by
  simp only [allowsPlain, multiline, Bool.and_eq_true, Bool.not_eq_true',
    List.any_eq_false] at plain
  intro member
  exact absurd (plain.1.1.1.2 _ member) (by decide)

/-- A plain text starts with neither a quote, nor a blank, nor a dash before a space. -/
theorem head_of_plain {c : Char} {rest : List Char} (plain : allowsPlain (c :: rest) = true) :
    c ≠ '\'' ∧ spaceOrTab c = false ∧ (c = '-' → rest.head? ≠ some ' ') := by
  have clean := not_special_of_plain plain c List.mem_cons_self
  simp only [allowsPlain, startsIndicator, looseEnds, Bool.and_eq_true, Bool.not_eq_true',
    Bool.or_eq_false_iff] at plain
  refine ⟨?_, ?_, ?_⟩
  · rintro rfl
    simp [indicators] at plain
  · rw [spaceOrTab, Bool.or_eq_false_iff, decide_eq_false_iff_not, decide_eq_false_iff_not]
    constructor
    · rintro rfl
      simp [isBlank] at plain
    · rintro rfl
      cases clean
  · rintro rfl dash
    cases rest with
    | nil => cases dash
    | cons d rest =>
        obtain rfl := Option.some.inj dash
        simp [separated, isSeparator] at plain

/-- What a plain text begins with never makes a lead of what stands before it. -/
theorem not_isLead_plain {lead before : List Char} (plain : allowsPlain text = true)
    (begins : before <+: text) (someBefore : before ≠ []) :
    Tags.isLead (lead ++ before) = false := by
  rw [Bool.eq_false_iff]
  intro isLead
  obtain ⟨c, rest, rfl⟩ := List.exists_cons_of_ne_nil someBefore
  obtain ⟨after, rfl⟩ := begins
  obtain ⟨-, noBlank, noDash⟩ := head_of_plain plain
  rcases Tags.isLead_iff.1 isLead with ⟨blanks, dashes, areBlank, lead_eq⟩ | ends
  · obtain ⟨dash, blank⟩ := Tags.blank_after_dash areBlank noBlank lead_eq.symm
    have noSpace : (rest ++ after).head? ≠ some ' ' := noDash dash
    rw [List.head?_append, blank] at noSpace
    exact noSpace rfl
  · obtain ⟨before, -, joined⟩ := Tags.endsKey_iff.1 ends
    have suffix : [':', ' '] <:+ lead ++ c :: rest := ⟨before, joined.symm⟩
    cases rest with
    | nil =>
        have last := congrArg List.getLast? joined
        simp at last
        rw [last] at noBlank
        cases noBlank
    | cons d rest =>
        have inText : [':', ' '] <:+ c :: d :: rest :=
          List.suffix_of_suffix_length_le suffix (List.suffix_append _ _) (by simp)
        exact no_colon_before_space plain (inText.isInfix.trans (List.prefix_append _ _).isInfix)

/-- A further line of a plain text is a lead as far as it is blanks and dashes. -/
theorem dashes_of_isLead {indent : Nat} {before : List Char} (plain : allowsPlain text = true)
    (part : before <:+: text) (isLead : Tags.isLead (List.replicate indent ' ' ++ before) = true) :
    ∃ blanks dashes, List.replicate indent ' ' ++ before =
      List.replicate blanks ' ' ++ (List.replicate dashes ['-', ' ']).flatten := by
  rcases Tags.isLead_iff.1 isLead with ⟨blanks, dashes, areBlank, lead_eq⟩ | ends
  · have areSpaces : ∀ c ∈ blanks, c = ' ' := by
      intro c member
      have inLead : c ∈ List.replicate indent ' ' ++ before := by
        rw [lead_eq]
        exact List.mem_append_left _ member
      rcases List.mem_append.1 inLead with inMargin | inBefore
      · exact (List.mem_replicate.1 inMargin).2
      · have clean := not_special_of_plain plain c (part.subset inBefore)
        have blank := areBlank c member
        rw [spaceOrTab, Bool.or_eq_true, decide_eq_true_iff, decide_eq_true_iff] at blank
        rcases blank with space | rfl
        · exact space
        · cases clean
    refine ⟨blanks.length, dashes, ?_⟩
    rw [lead_eq, List.eq_replicate_of_mem areSpaces, List.length_replicate]
  · obtain ⟨margin, -, joined⟩ := Tags.endsKey_iff.1 ends
    have suffix : [':', ' '] <:+ List.replicate indent ' ' ++ before := ⟨margin, joined.symm⟩
    have inBefore := suffix_of_not_mem (by simp) suffix
    exact absurd (inBefore.isInfix.trans part) (no_colon_before_space plain)

end Plain

end CloudGraph.Yaml
