import CloudGraph.Proofs.Lines
import CloudGraph.Yaml.Scalar

/-!
# The lines of a written scalar

What the three styles make of a text, line by line. A plain scalar is the text itself, cut at
single spaces: `splitOn_plainRuns`. A scalar in single quotes is its folded text with every quote
doubled: `exists_doubled`. In double quotes no line ends in a single quote:
`getLast?_of_mem_doubleBody`.
-/

namespace CloudGraph

namespace Text

variable {separator : Char}

theorem joinWith_append_head (between before first : List Char) (rest : List (List Char)) :
    joinWith between ((before ++ first) :: rest) = before ++ joinWith between (first :: rest) := by
  cases rest with
  | nil => rfl
  | cons next rest => simp [joinWith]

theorem isPrefix_joinWith (between first : List Char) (rest : List (List Char)) :
    first <+: joinWith between (first :: rest) := by
  cases rest with
  | nil => exact List.prefix_rfl
  | cons next rest =>
      rw [joinWith_cons (by simp), List.append_assoc]
      exact List.prefix_append _ _

theorem isInfix_joinWith {between part : List Char} {parts : List (List Char)}
    (member : part ∈ parts) : part <:+: joinWith between parts := by
  induction parts with
  | nil => cases member
  | cons first parts ih =>
      rcases List.mem_cons.1 member with rfl | member
      · exact (isPrefix_joinWith between part parts).isInfix
      · rw [joinWith_cons (List.ne_nil_of_mem member)]
        exact (ih member).trans (List.suffix_append _ _).isInfix

end Text

namespace Yaml

section Runs

theorem runs_cons (c : Char) (text : List Char) :
    (∃ run others, runs text = (runKind c, run) :: others ∧
        runs (c :: text) = (runKind c, c :: run) :: others) ∨
      runs (c :: text) = (runKind c, [c]) :: runs text := by
  rw [runs]
  cases parts : runs text with
  | nil => exact .inr rfl
  | cons first others =>
      obtain ⟨kind, run⟩ := first
      by_cases same : kind = runKind c
      · subst same
        exact .inl ⟨run, others, rfl, by simp⟩
      · exact .inr (by simp [same])

/-- The runs of a text make up the text. -/
theorem flatMap_runs (text : List Char) : (runs text).flatMap (·.2) = text := by
  induction text with
  | nil => rfl
  | cons c text ih =>
      rcases runs_cons c text with ⟨run, others, parts, longer⟩ | longer
      · rw [longer]
        rw [parts] at ih
        simpa using ih
      · simp [longer, ih]

theorem ne_nil_of_mem_runs {text : List Char} {run : RunKind × List Char}
    (member : run ∈ runs text) : run.2 ≠ [] := by
  induction text with
  | nil => cases member
  | cons c text ih =>
      rcases runs_cons c text with ⟨rest, others, parts, longer⟩ | longer
      · rw [longer] at member
        rw [parts] at ih
        rcases List.mem_cons.1 member with rfl | member
        · simp
        · exact ih (List.mem_cons_of_mem _ member)
      · rw [longer] at member
        rcases List.mem_cons.1 member with rfl | member
        · simp
        · exact ih member

/-- A run holds characters of its kind only. -/
theorem runKind_of_mem_runs {text : List Char} {run : RunKind × List Char}
    (member : run ∈ runs text) : ∀ c ∈ run.2, runKind c = run.1 := by
  induction text generalizing run with
  | nil => cases member
  | cons c text ih =>
      rcases runs_cons c text with ⟨rest, others, parts, longer⟩ | longer
      · rw [longer] at member
        rw [parts] at ih
        rcases List.mem_cons.1 member with rfl | member
        · rintro d inRun
          rcases List.mem_cons.1 inRun with rfl | inRest
          · rfl
          · exact ih List.mem_cons_self d inRest
        · exact ih (List.mem_cons_of_mem _ member)
      · rw [longer] at member
        rcases List.mem_cons.1 member with rfl | member
        · rintro d inRun
          rw [List.mem_singleton.1 inRun]
        · exact ih member

theorem mem_of_mem_runs {text : List Char} {run : RunKind × List Char} {c : Char}
    (member : run ∈ runs text) (inRun : c ∈ run.2) : c ∈ text := by
  rw [← flatMap_runs text]
  exact List.mem_flatMap.2 ⟨run, member, inRun⟩

theorem eq_blank_of_mem_runs (text run : List Char) (member : (.blanks, run) ∈ runs text) :
    ∀ c ∈ run, c = ' ' := by
  intro c inRun
  have kind := runKind_of_mem_runs member c inRun
  unfold runKind at kind
  split at kind
  next blank => simpa [isBlank] using blank
  next => split at kind <;> cases kind

theorem quote_not_mem_runs (text : List Char) (kind : RunKind) (run : List Char)
    (member : (kind, run) ∈ runs text) (noWord : kind ≠ .word) : '\'' ∉ run := by
  intro inRun
  exact noWord (runKind_of_mem_runs member '\'' inRun).symm

end Runs

section Plain

/-- A plain scalar is its text, cut at single spaces, each further line indented. -/
theorem splitOn_plainRuns {all : List (RunKind × List Char)} (indent column : Nat)
    (free : ∀ run ∈ all, '\n' ∉ run.2)
    (blank : ∀ run, (.blanks, run) ∈ all → ∀ c ∈ run, c = ' ') :
    ∃ first rest,
      Text.splitOn '\n' (plainRuns indent column all) =
        first :: rest.map (List.replicate indent ' ' ++ ·) ∧
      Text.joinWith [' '] (first :: rest) = all.flatMap (·.2) := by
  induction all generalizing column with
  | nil => exact ⟨[], [], rfl, rfl⟩
  | cons run all ih =>
      obtain ⟨kind, run⟩ := run
      have freeRest : ∀ run ∈ all, '\n' ∉ run.2 := fun other member =>
        free other (List.mem_cons_of_mem _ member)
      have blankRest : ∀ run, (RunKind.blanks, run) ∈ all → ∀ c ∈ run, c = ' ' :=
        fun other member => blank other (List.mem_cons_of_mem _ member)
      rw [plainRuns]
      split
      next folds =>
        obtain ⟨rfl, single, -⟩ := folds
        obtain ⟨c, rfl⟩ := List.length_eq_one_iff.1 single
        obtain rfl := blank [c] List.mem_cons_self c List.mem_cons_self
        obtain ⟨first, rest, lines, joined⟩ := ih indent freeRest blankRest
        refine ⟨[], first :: rest, ?_, ?_⟩
        · have noEnd : '\n' ∉ List.replicate indent ' ' := by simp
          simpa [lineEnd] using Text.splitOn_append_of_not_mem noEnd lines
        · rw [Text.joinWith_cons (by simp), joined]
          rfl
      next =>
        obtain ⟨first, rest, lines, joined⟩ := ih (column + run.length) freeRest blankRest
        refine ⟨run ++ first, rest, ?_, ?_⟩
        · exact Text.splitOn_append_of_not_mem (free _ List.mem_cons_self) lines
        · rw [Text.joinWith_append_head, joined]
          rfl

theorem splitOn_plain {text : List Char} (indent column : Nat) (free : '\n' ∉ text) :
    ∃ first rest,
      Text.splitOn '\n' (writeText .plain true indent column text) =
        first :: rest.map (List.replicate indent ' ' ++ ·) ∧
      Text.joinWith [' '] (first :: rest) = text := by
  obtain ⟨first, rest, lines, joined⟩ := splitOn_plainRuns indent column
    (fun run member newline => free (mem_of_mem_runs member newline))
    (eq_blank_of_mem_runs text)
  exact ⟨first, rest, lines, joined.trans (flatMap_runs text)⟩

end Plain

section Single

theorem doubleQuotes_append (first second : List Char) :
    doubleQuotes (first ++ second) = doubleQuotes first ++ doubleQuotes second := by
  simp [doubleQuotes]

theorem doubleQuotes_of_free {text : List Char} (free : '\'' ∉ text) :
    doubleQuotes text = text := by
  induction text with
  | nil => rfl
  | cons c text ih =>
      rw [List.mem_cons, not_or] at free
      rw [← List.singleton_append, doubleQuotes_append, ih free.2]
      simp [doubleQuotes, Ne.symm free.1]

theorem mem_doubleQuotes {c : Char} {text : List Char} : c ∈ doubleQuotes text ↔ c ∈ text := by
  simp only [doubleQuotes, List.mem_flatMap]
  constructor
  · rintro ⟨d, member, inDoubled⟩
    split at inDoubled
    next quote => simp_all
    next => simpa [List.mem_singleton.1 inDoubled] using member
  · intro member
    exact ⟨c, member, by split <;> simp_all⟩

theorem count_doubleQuotes (text : List Char) :
    (doubleQuotes text).count '\'' = 2 * text.count '\'' := by
  induction text with
  | nil => rfl
  | cons c text ih =>
      rw [← List.singleton_append, doubleQuotes_append, List.count_append, List.count_append, ih,
        Nat.mul_add]
      by_cases quote : c = '\''
      · simp [doubleQuotes, quote]
      · simp [doubleQuotes, quote]

theorem splitOn_doubleQuotes (text : List Char) :
    Text.splitOn '\n' (doubleQuotes text) = (Text.splitOn '\n' text).map doubleQuotes := by
  induction text with
  | nil => rfl
  | cons c text ih =>
      rw [← List.singleton_append, doubleQuotes_append]
      by_cases newline : c = '\n'
      · have kept : doubleQuotes ['\n'] = ['\n'] := rfl
        have none : doubleQuotes [] = [] := rfl
        simp [newline, kept, none, ih]
      · obtain ⟨line, lines, parts⟩ := List.exists_cons_of_ne_nil (Text.splitOn_ne_nil '\n' text)
        have doubled : '\n' ∉ doubleQuotes [c] := by
          simpa [mem_doubleQuotes] using Ne.symm newline
        rw [parts, List.map_cons] at ih
        rw [Text.splitOn_append_of_not_mem doubled ih, List.singleton_append,
          Text.splitOn_cons_of_ne newline parts, List.map_cons, ← doubleQuotes_append,
          List.singleton_append]

/-- A scalar in single quotes is a text with its quotes doubled, the text itself unless lines
end in it. -/
theorem exists_doubled {all : List (RunKind × List Char)} (indent column : Nat) (first : Bool)
    (free : ∀ kind run, (kind, run) ∈ all → kind ≠ .word → '\'' ∉ run) :
    ∃ folded, singleRuns indent column first all = doubleQuotes folded ∧
      ('\n' ∉ folded → folded = all.flatMap (·.2)) := by
  induction all generalizing column first with
  | nil => exact ⟨[], rfl, fun _ => rfl⟩
  | cons run all ih =>
      obtain ⟨kind, run⟩ := run
      have freeRest : ∀ kind run, (kind, run) ∈ all → kind ≠ .word → '\'' ∉ run :=
        fun kind other member => free kind other (List.mem_cons_of_mem _ member)
      have kept := free kind run List.mem_cons_self
      have endFree : '\'' ∉ lineEnd indent := by simp [lineEnd]
      cases kind with
      | word =>
          obtain ⟨folded, text_eq, whole⟩ := ih _ false freeRest
          refine ⟨run ++ folded, by rw [singleRuns, text_eq, doubleQuotes_append], ?_⟩
          intro noEnd
          rw [List.mem_append, not_or] at noEnd
          rw [whole noEnd.2, List.flatMap_cons]
      | blanks =>
          have unquoted := doubleQuotes_of_free (kept (by simp))
          rw [singleRuns]
          split
          next =>
            obtain ⟨folded, text_eq, -⟩ := ih indent false freeRest
            refine ⟨lineEnd indent ++ folded, ?_, fun noEnd => absurd (by simp [lineEnd]) noEnd⟩
            rw [text_eq, doubleQuotes_append, doubleQuotes_of_free endFree]
          next =>
            obtain ⟨folded, text_eq, whole⟩ := ih _ false freeRest
            refine ⟨run ++ folded, by rw [text_eq, doubleQuotes_append, unquoted], ?_⟩
            intro noEnd
            rw [List.mem_append, not_or] at noEnd
            rw [whole noEnd.2, List.flatMap_cons]
      | breaks =>
          obtain ⟨folded, text_eq, -⟩ := ih indent false freeRest
          have runFree : '\'' ∉ '\n' :: run ++ List.replicate indent ' ' := by
            simpa using kept (by simp)
          refine ⟨'\n' :: run ++ List.replicate indent ' ' ++ folded, ?_,
            fun noEnd => absurd (by simp) noEnd⟩
          rw [singleRuns, text_eq, doubleQuotes_append, doubleQuotes_of_free runFree]

theorem not_tagged_append_doubleQuotes (before : List Char) {text : List Char}
    (someText : text ≠ []) : ¬ Tags.Tagged (before ++ doubleQuotes text) := by
  rcases List.eq_nil_or_concat text with rfl | ⟨init, c, rfl⟩
  · exact absurd rfl someText
  · rw [List.concat_eq_append, doubleQuotes_append]
    by_cases quote : c = '\''
    · have closed := Tags.not_tagged_of_doubled (before ++ doubleQuotes init)
      simpa [quote, doubleQuotes] using closed
    · intro tagged
      have last := tagged.getLast?
      rw [← List.append_assoc] at last
      simp [doubleQuotes, quote] at last

theorem not_tagged_doubleQuotes (text : List Char) : ¬ Tags.Tagged (doubleQuotes text) := by
  cases text with
  | nil =>
      intro tagged
      exact absurd tagged.count (by decide)
  | cons c text => exact not_tagged_append_doubleQuotes [] (List.cons_ne_nil c text)

theorem not_tagged_doubleQuotes_quote (text : List Char) :
    ¬ Tags.Tagged (doubleQuotes text ++ ['\'']) := by
  intro tagged
  have count := tagged.count
  rw [List.count_append, count_doubleQuotes, List.count_singleton_self] at count
  omega

/-- A scalar in single quotes stays on one line as it is, or its first line only opens the
quotes and no further line is tagged. -/
theorem splitOn_singleQuoted (indent column : Nat) (text : List Char) :
    (writeText .singleQuoted true indent column text = '\'' :: doubleQuotes text ++ ['\''] ∧
        '\n' ∉ text) ∨
      ∃ opening further,
        Text.splitOn '\n' (writeText .singleQuoted true indent column text) =
          ('\'' :: doubleQuotes opening) :: further ∧
        ∀ line ∈ further, ¬ Tags.Tagged line := by
  obtain ⟨folded, text_eq, whole⟩ := exists_doubled indent (column + 1) true
    (quote_not_mem_runs text)
  have written : writeText .singleQuoted true indent column text =
      '\'' :: (doubleQuotes folded ++ ['\'']) := by
    simp [writeText, text_eq]
  by_cases oneLine : '\n' ∈ folded
  · right
    have manyLines : ∃ opening next others,
        Text.splitOn '\n' folded = opening :: next :: others := by
      obtain ⟨before, after, rfl, free⟩ := List.eq_append_cons_of_mem oneLine
      obtain ⟨next, others, parts⟩ := List.exists_cons_of_ne_nil (Text.splitOn_ne_nil '\n' after)
      exact ⟨before, next, others, by
        rw [Text.splitOn_append_cons, Text.splitOn_of_not_mem free, parts]; rfl⟩
    obtain ⟨opening, next, others, parts⟩ := manyLines
    have noEnd : '\n' ∉ ['\''] := by decide
    obtain ⟨init, last, lines, closed⟩ := Text.splitOn_append_end noEnd (doubleQuotes folded)
    rw [splitOn_doubleQuotes, parts] at lines
    cases init with
    | nil => simp at lines
    | cons first init =>
        simp only [List.map_cons, List.cons_append, List.cons.injEq] at lines
        obtain ⟨rfl, lines⟩ := lines
        refine ⟨opening, init ++ [last ++ ['\'']], ?_, ?_⟩
        · rw [written]
          exact Text.splitOn_cons_of_ne (by decide) closed
        · have doubled : ∀ line ∈ init ++ [last], ∃ text, line = doubleQuotes text := by
            intro line member
            rw [← lines, ← List.map_cons] at member
            obtain ⟨text, -, rfl⟩ := List.mem_map.1 member
            exact ⟨text, rfl⟩
          intro line member
          rcases List.mem_append.1 member with member | isLast
          · obtain ⟨text, rfl⟩ := doubled line (List.mem_append_left _ member)
            exact not_tagged_doubleQuotes text
          · obtain ⟨text, rfl⟩ := doubled last (by simp)
            rw [List.mem_singleton.1 isLast]
            exact not_tagged_doubleQuotes_quote text
  · left
    have folded_eq : folded = text := (whole oneLine).trans (flatMap_runs text)
    rw [folded_eq] at written oneLine
    exact ⟨by simpa using written, oneLine⟩

end Single

section Double

theorem exists_digit {base n : Nat} {c : Char} (above : 1 < base)
    (member : c ∈ Nat.toDigits base n) : ∃ digit < base, c = digit.digitChar := by
  induction n using Nat.strongRecOn with
  | ind n ih =>
      rw [Nat.toDigits_eq_if above] at member
      split at member
      next small => exact ⟨n, small, List.mem_singleton.1 member⟩
      next large =>
        rcases List.mem_append.1 member with member | member
        · exact ih (n / base) (Nat.div_lt_self (by omega) above) member
        · exact ⟨n % base, Nat.mod_lt n (by omega), List.mem_singleton.1 member⟩

theorem mem_hexCapitals {width n : Nat} {c : Char} (member : c ∈ hexCapitals width n) :
    c ≠ '\n' ∧ c ≠ '\'' := by
  simp only [hexCapitals, Text.hex, List.map_append, List.map_replicate, List.mem_append,
    List.mem_replicate, List.mem_map] at member
  rcases member with ⟨-, rfl⟩ | ⟨d, inDigits, rfl⟩
  · decide
  · obtain ⟨digit, small, rfl⟩ := exists_digit (by decide) inDigits
    have digits : ∀ digit < 16,
        digit.digitChar.toUpper ≠ '\n' ∧ digit.digitChar.toUpper ≠ '\'' := by
      decide
    exact digits digit small

/-- An escape has neither line ends nor single quotes. -/
theorem mem_escape {c d : Char} (member : d ∈ escape c) : d ≠ '\n' ∧ d ≠ '\'' := by
  unfold escape at member
  split at member
  next letter found =>
    have inTable : (c, letter) ∈ escapeLetters := by
      obtain ⟨before, after, table, -⟩ := List.lookup_eq_some_iff.1 found
      simp [table]
    have letters : ∀ entry ∈ escapeLetters, entry.2 ≠ '\n' ∧ entry.2 ≠ '\'' := by decide
    rcases List.mem_pair.1 member with rfl | rfl
    · decide
    · exact letters _ inTable
  next =>
    have escaped : d = '\\' ∨ d = 'x' ∨ d = 'u' ∨ d = 'U' ∨
        ∃ width, d ∈ hexCapitals width c.toNat := by
      split_ifs at member <;> simp only [List.mem_cons] at member <;> tauto
    rcases escaped with rfl | rfl | rfl | rfl | ⟨width, member⟩
    · decide
    · decide
    · decide
    · decide
    · exact mem_hexCapitals member

/-- A line in double quotes that is not folded is its text with the escapes. -/
theorem doubleBody_unsplit (indent column : Nat) (first : Bool) (pending text : List Char) :
    doubleBody false indent column first pending text =
      pending.reverse ++ text.flatMap fun c => if needsEscape c then escape c else [c] := by
  induction text generalizing column first pending with
  | nil => simp [doubleBody]
  | cons c text ih =>
      rw [doubleBody]
      by_cases escaped : needsEscape c = true
      · simp [escaped, ih]
      · simp [escaped, ih]

theorem foldedEnd_eq (indent : Nat) (rest : List Char) :
    ∃ next, (foldedEnd indent rest).1 = '\\' :: '\n' :: next ∧ '\n' ∉ next := by
  unfold foldedEnd
  split
  · exact ⟨List.replicate indent ' ' ++ ['\\'], rfl, by simp⟩
  · exact ⟨List.replicate indent ' ', rfl, by simp⟩

/-- No line of a scalar in double quotes ends in a single quote, whatever stands before it. -/
theorem getLast?_of_mem_doubleBody (split : Bool) (indent : Nat) (text : List Char) :
    ∀ (column : Nat) (first : Bool) (pending before : List Char), '\n' ∉ before → '\n' ∉ pending →
      ∀ line ∈ Text.splitOn '\n'
        (before ++ doubleBody split indent column first pending text ++ ['"']),
      line.getLast? = some '"' ∨ line.getLast? = some '\\' := by
  induction text with
  | nil =>
      intro column first pending before beforeFree pendingFree line member
      rw [doubleBody, Text.splitOn_of_not_mem (by simp [beforeFree, pendingFree]),
        List.mem_singleton] at member
      subst member
      exact .inl List.getLast?_concat
  | cons c text ih =>
      intro column first pending before beforeFree pendingFree line member
      have escapeFree : '\n' ∉ escape c := fun inEscape => (mem_escape inEscape).1 rfl
      -- At a folded line end the line before it ends in a backslash.
      have folded : ∀ written rest column pending, '\n' ∉ written → '\n' ∉ pending →
          line ∈ Text.splitOn '\n' (before ++ (written ++ (foldedEnd indent rest).1 ++
            doubleBody split indent column false pending text) ++ ['"']) →
          line.getLast? = some '"' ∨ line.getLast? = some '\\' := by
        intro written rest column pending writtenFree pendingFree member
        obtain ⟨next, foldedEnd_eq, nextFree⟩ := foldedEnd_eq indent rest
        have cut : before ++ (written ++ (foldedEnd indent rest).1 ++
              doubleBody split indent column false pending text) ++ ['"'] =
            (before ++ written ++ ['\\']) ++ '\n' ::
              (next ++ doubleBody split indent column false pending text ++ ['"']) := by
          simp [foldedEnd_eq]
        rw [cut, Text.splitOn_append_cons,
          Text.splitOn_of_not_mem (by simp [beforeFree, writtenFree])] at member
        rcases List.mem_append.1 member with isFirst | inRest
        · rw [List.mem_singleton.1 isFirst]
          exact .inr List.getLast?_concat
        · exact ih column false pending next nextFree pendingFree line inRest
      rw [doubleBody] at member
      dsimp only at member
      split_ifs at member with escaped folds folds
      · exact folded _ _ _ _ (by simp [pendingFree, escapeFree]) (by simp) member
      · rw [← List.append_assoc] at member
        exact ih _ _ _ _ (by simp [beforeFree, pendingFree, escapeFree]) (by simp) line member
      all_goals
        have plain : '\n' ∉ [c] := by
          intro newline
          rw [← List.mem_singleton.1 newline] at escaped
          exact escaped rfl
      · exact folded _ _ _ _ (by simpa using pendingFree) plain member
      · exact ih _ _ _ _ beforeFree (by simp_all) line member

end Double

end Yaml

end CloudGraph
