import CloudGraph.Proofs.Lines
import CloudGraph.Proofs.SourceFiles
import CloudGraph.Proofs.Walks
import Mathlib.Data.Fintype.EquivFin

/-!
# The names of files as paths

A name of a file is read as a path below the output directory. `Path.collapse` takes each part
of two dots back together with the part before it, and `Path.StaysBelow` says that what is left
leads below wherever the path starts from (`Path.StaysBelow.inside`).

`Graph.render_staysBelow_iff` says of which functions the source file has such a name:
those whose id does not start with a slash and does not climb, before its last slash, above
where it starts (`Outward`). Nothing checks this when a graph is read or compiled.
-/

namespace CloudGraph

namespace Path

/-- Takes a part on: two dots take back the part before them, if there is one to take back. -/
def collapseOn (kept : List String) (part : String) : List String :=
  if part = up ∧ kept ≠ [] ∧ kept.getLast? ≠ some up then kept.dropLast else kept ++ [part]

/-- The parts that are left when two dots take back the part before them. -/
def collapse (parts : List String) : List String :=
  parts.foldl collapseOn []

/-- A relative path that leads below wherever it starts from. -/
def StaysBelow (path : Path) : Prop :=
  path.isAbsolute = false ∧ collapse path.parts ≠ [] ∧ up ∉ collapse path.parts

/-- On the way, parts lead above where they start: more of them lead up than down. -/
def Climbs (parts : List String) : Prop :=
  ∃ way, way <+: parts ∧ way.length < 2 * way.count up

/-- A location is below a directory. -/
def Inside (directory location : Location) : Prop :=
  directory <+: location ∧ location ≠ directory

section Collapse

variable {parts : List String} {part : String}

@[simp]
theorem collapse_nil : collapse [] = [] := rfl

theorem collapse_concat (parts : List String) (part : String) :
    collapse (parts ++ [part]) = collapseOn (collapse parts) part :=
  List.foldl_append

theorem collapse_concat_name (parts : List String) (name : part ≠ up) :
    collapse (parts ++ [part]) = collapse parts ++ [part] := by
  rw [collapse_concat, collapseOn, if_neg fun back => name back.1]

theorem collapse_concat_up (below : up ∉ collapse parts) :
    collapse (parts ++ [up]) =
      if collapse parts = [] then [up] else (collapse parts).dropLast := by
  have last : (collapse parts).getLast? ≠ some up :=
    fun equal => below (List.mem_of_getLast? equal)
  rw [collapse_concat, collapseOn]
  by_cases none : collapse parts = []
  · simp [none]
  · rw [if_pos ⟨rfl, none, last⟩, if_neg none]

/-- What leads up once is never taken back. -/
theorem mem_collapse_concat (above : up ∈ collapse parts) :
    up ∈ collapse (parts ++ [part]) := by
  rw [collapse_concat, collapseOn]
  split
  next back =>
    obtain ⟨init, last, equal⟩ := List.eq_nil_or_concat (collapse parts) |>.resolve_left back.2.1
    rw [equal] at above back ⊢
    simp only [List.concat_eq_append, List.mem_append, List.mem_singleton, List.getLast?_concat,
      List.dropLast_concat, ne_eq, Option.some.injEq] at above back ⊢
    exact above.resolve_right (Ne.symm back.2.2)
  next => exact List.mem_append_left _ above

/-- As long as nothing is left that leads up, every two dots have taken one part back. -/
theorem length_collapse (below : up ∉ collapse parts) :
    (collapse parts).length + 2 * parts.count up = parts.length := by
  induction parts using List.reverseRecOn with
  | nil => rfl
  | append_singleton parts part ih =>
      have before : up ∉ collapse parts := fun above => below (mem_collapse_concat above)
      have ih := ih before
      by_cases name : part = up
      · subst name
        rw [collapse_concat_up before] at below ⊢
        have some : collapse parts ≠ [] := by
          intro none
          simp [none] at below
        have := List.length_pos_iff.2 some
        simp only [if_neg some, List.length_dropLast, List.count_append, List.count_singleton_self,
          List.length_append, List.length_singleton]
        omega
      · rw [collapse_concat_name parts name]
        simp only [List.length_append, List.count_append, List.length_singleton,
          List.count_singleton, beq_iff_eq, name, if_false]
        omega

/-- As long as nothing is left that leads up, parts lead where what is left of them leads. -/
theorem walk_of_collapse (below : up ∉ collapse parts) (here : Location) :
    walk here parts = here ++ collapse parts := by
  induction parts using List.reverseRecOn with
  | nil => simp
  | append_singleton parts part ih =>
      have before : up ∉ collapse parts := fun above => below (mem_collapse_concat above)
      rw [walk_append, ih before]
      by_cases name : part = up
      · subst name
        rw [collapse_concat_up before] at below ⊢
        have some : collapse parts ≠ [] := by
          intro none
          simp [none] at below
        rw [walk_up, if_neg some, List.dropLast_append_of_ne_nil some]
      · rw [collapse_concat_name parts name, walk_name _ name, List.append_assoc]

theorem climbs_concat : Climbs (parts ++ [part]) ↔
    Climbs parts ∨ parts.length + 1 < 2 * (parts ++ [part]).count up := by
  constructor
  · rintro ⟨way, before, more⟩
    rcases List.prefix_concat_iff.1 before with rfl | before
    · right
      simpa using more
    · exact .inl ⟨way, before, more⟩
  · rintro (⟨way, before, more⟩ | more)
    · exact ⟨way, before.trans (List.prefix_append _ _), more⟩
    · exact ⟨parts ++ [part], List.prefix_rfl, by simpa using more⟩

/-- Something is left that leads up exactly when the parts climb. -/
theorem mem_collapse_iff : up ∈ collapse parts ↔ Climbs parts := by
  induction parts using List.reverseRecOn with
  | nil =>
      constructor
      · simp
      · rintro ⟨way, before, more⟩
        rw [List.prefix_nil.1 before] at more
        simp at more
  | append_singleton parts part ih =>
      rw [climbs_concat, ← ih]
      by_cases above : up ∈ collapse parts
      · simp [above, mem_collapse_concat above]
      have counted := length_collapse above
      by_cases name : part = up
      · subst name
        rw [collapse_concat_up above, List.count_append, List.count_singleton_self]
        by_cases none : collapse parts = []
        · rw [none, List.length_nil] at counted
          simp only [none, if_true, List.mem_singleton, true_iff, List.not_mem_nil, false_or]
          omega
        · have := List.length_pos_iff.2 none
          have kept : up ∉ (collapse parts).dropLast :=
            fun kept => above ((List.dropLast_sublist _).subset kept)
          simp only [none, if_false, kept, above, false_or, false_iff, Nat.not_lt]
          omega
      · rw [collapse_concat_name parts name]
        simp only [List.mem_append, above, List.mem_singleton, Ne.symm name, or_self, false_or,
          List.count_append, List.count_singleton, beq_iff_eq, name, if_false, false_iff,
          Nat.not_lt]
        omega

end Collapse

/-- A path that stays below leads below every directory. -/
theorem StaysBelow.inside {path : Path} (below : path.StaysBelow) (directory : Location) :
    Inside directory (path.resolve directory) := by
  obtain ⟨relative, some, names⟩ := below
  have leads : path.resolve directory = directory ++ collapse path.parts := by
    rw [resolve_eq, start, relative]
    exact walk_of_collapse names directory
  rw [leads]
  exact ⟨List.prefix_append _ _, by simpa using some⟩

/-- Parts that climb leave nothing of a name that they start from and do not give again. -/
theorem not_mem_walk {parts : List String} {name : String} (fresh : name ∉ parts)
    (above : up ∈ collapse parts) : name ∉ walk [name] parts := by
  induction parts using List.reverseRecOn with
  | nil => simp at above
  | append_singleton parts part ih =>
      rw [List.mem_append, List.mem_singleton, not_or] at fresh
      rw [walk_append]
      by_cases before : up ∈ collapse parts
      · have gone := ih fresh.1 before
        by_cases back : part = up
        · rw [back, walk_up]
          exact fun kept => gone ((List.dropLast_sublist _).subset kept)
        · rw [walk_name _ back]
          simp [gone, fresh.2]
      · -- This is the step that leads above the start.
        by_cases back : part = up
        · rw [back, collapse_concat_up before] at above
          by_cases none : collapse parts = []
          · rw [walk_of_collapse before, none, back]
            simp
          · rw [if_neg none] at above
            exact absurd ((List.dropLast_sublist _).subset above) before
        · rw [collapse_concat_name _ back] at above
          simp [before, Ne.symm back] at above

/-- The paths that stay below are those that lead below every directory. -/
theorem staysBelow_iff {path : Path} :
    path.StaysBelow ↔ ∀ directory, Inside directory (path.resolve directory) := by
  refine ⟨StaysBelow.inside, fun inside => ?_⟩
  have relative : path.isAbsolute = false := by
    cases absolute : path.isAbsolute with
    | false => rfl
    | true =>
        have leads : ∀ directory, path.resolve directory = walk [] path.parts := by
          intro directory
          rw [resolve_eq, start, absolute, if_pos rfl]
        exact absurd (leads (walk [] path.parts)) (inside _).2
  have leads : ∀ directory, path.resolve directory = walk directory path.parts := by
    intro directory
    rw [resolve_eq, start, relative, if_neg Bool.false_ne_true]
  have names : up ∉ collapse path.parts := by
    intro above
    obtain ⟨name, fresh⟩ := Infinite.exists_notMem_finset path.parts.toFinset
    have kept := (inside [name]).1
    rw [leads] at kept
    exact not_mem_walk (by simpa using fresh) above (kept.subset List.mem_cons_self)
  refine ⟨relative, fun none => ?_, names⟩
  have apart := (inside []).2
  rw [leads, walk_of_collapse names, none] at apart
  exact apart rfl

/-- The parts of a text before its last slash. -/
def above (text : String) : List String :=
  ((Text.splitOn '/' text.toList).dropLast.filter counts).map String.ofList

theorem isAbsolute_ofText (text : String) :
    (ofText text).isAbsolute = true ↔ text.toList.head? = some '/' := by
  unfold isAbsolute ofText
  cases text.toList with
  | nil => simp
  | cons c rest =>
      by_cases slash : c = '/'
      · simp only [slash, List.takeWhile_cons, decide_true, if_true, List.length_cons,
          List.head?_cons, iff_true]
        split <;> simp
      · simp [slash]

/-- A path has a last part that leads down, and it ends in a letter. -/
def EndsIn (path : Path) (letter : Char) : Prop :=
  ∃ above name, path.parts = above ++ [name] ∧ name ≠ up ∧ name.toList.getLast? = some letter

/-- A text that goes on without a slash has the same parts above its last one. What goes on
must not end in a dot, so that the last part is neither left out nor leads up. -/
theorem parts_ofText_append (text : String) {rest : String} {letter : Char}
    (free : '/' ∉ rest.toList) (ends : rest.toList.getLast? = some letter)
    (noDot : letter ≠ '.') :
    ∃ name, (ofText (text ++ rest)).parts = above text ++ [name] ∧ name ≠ up ∧
      name.toList.getLast? = some letter := by
  obtain ⟨init, piece, pieces, longer⟩ := Text.splitOn_append_end free text.toList
  have final : (piece ++ rest.toList).getLast? = some letter := by
    rw [List.getLast?_append, ends, Option.some_or]
  have counted : counts (piece ++ rest.toList) = true := by
    simp only [counts, Bool.and_eq_true, Bool.not_eq_true', List.isEmpty_eq_false_iff,
      bne_iff_ne]
    constructor
    · intro none
      simp [none] at final
    · intro dot
      rw [dot] at final
      exact noDot (Option.some.inj final).symm
  refine ⟨String.ofList (piece ++ rest.toList), ?_, ?_, by simpa using final⟩
  · simp [ofText, String.toList_append, longer, above, pieces, counted]
  · intro dots
    have list := congrArg String.toList dots
    rw [String.toList_ofList] at list
    rw [list] at final
    exact noDot (Option.some.inj final).symm

theorem endsIn_ofText_append (text : String) {rest : String} {letter : Char}
    (free : '/' ∉ rest.toList) (ends : rest.toList.getLast? = some letter)
    (noDot : letter ≠ '.') : (ofText (text ++ rest)).EndsIn letter := by
  obtain ⟨name, parts⟩ := parts_ofText_append text free ends noDot
  exact ⟨above text, name, parts⟩

/-- Paths that lead to the same location end in the same letter. -/
theorem EndsIn.unique {first second : Path} {a b : Char} (firstEnds : first.EndsIn a)
    (secondEnds : second.EndsIn b) {directory : Location}
    (same : first.resolve directory = second.resolve directory) : a = b := by
  obtain ⟨_, firstName, firstParts, firstLeads, firstLast⟩ := firstEnds
  obtain ⟨_, secondName, secondParts, secondLeads, secondLast⟩ := secondEnds
  rw [resolve_eq, resolve_eq, firstParts, secondParts, walk_append, walk_append,
    walk_name _ firstLeads, walk_name _ secondLeads] at same
  obtain ⟨_, names⟩ := List.append_inj' same rfl
  rw [List.singleton_inj] at names
  rw [names, secondLast] at firstLast
  exact (Option.some.inj firstLast).symm

/-- A path below a directory leads where it leads from that directory. -/
theorem resolve_join (output path : Path) (directory : Location) :
    (output.join path).resolve directory = path.resolve (output.resolve directory) := by
  unfold join
  cases absolute : path.isAbsolute with
  | true => simp [resolve_eq, start, absolute]
  | false =>
      rw [if_neg Bool.false_ne_true, resolve_eq, resolve_eq path, start, start, absolute,
        walk_append]
      rfl

end Path

/-- The id of a function leads out of the directory that its source file is meant for. -/
def Outward (id : String) : Prop :=
  id.toList.head? = some '/' ∨ Path.Climbs (Path.above id)

instance (parts : List String) : Decidable (Path.Climbs parts) :=
  decidable_of_iff _ Path.mem_collapse_iff

instance (path : Path) : Decidable path.StaysBelow :=
  inferInstanceAs (Decidable (_ ∧ _ ∧ _))

instance (directory location : Location) : Decidable (Path.Inside directory location) :=
  inferInstanceAs (Decidable (_ ∧ _))

instance (id : String) : Decidable (Outward id) :=
  inferInstanceAs (Decidable (_ ∨ _))

namespace Runtime

variable {runtime : Runtime}

/-- What a source file has in its name after the id of its function. -/
theorem suffix_of_mem_all (supported : runtime ∈ all) :
    '/' ∉ ("." ++ runtime.ending).toList ∧
      (("." ++ runtime.ending).toList.getLast? = some 's' ∨
        ("." ++ runtime.ending).toList.getLast? = some 'y') := by
  revert runtime
  decide

theorem sourceFile_eq (function : Value) :
    runtime.sourceFile function = function.plain ++ ("." ++ runtime.ending) :=
  String.append_assoc ..

/-- A source file stays below unless the id of its function leads out. -/
theorem staysBelow_sourceFile_iff (supported : runtime ∈ all) (function : Value) :
    (Path.ofText (runtime.sourceFile function)).StaysBelow ↔ ¬Outward function.plain := by
  obtain ⟨free, last⟩ := suffix_of_mem_all supported
  have parts : ∃ name, (Path.ofText (runtime.sourceFile function)).parts =
      Path.above function.plain ++ [name] ∧ name ≠ Path.up := by
    rw [sourceFile_eq]
    rcases last with ends | ends
    · obtain ⟨name, parts, leads, _⟩ :=
        Path.parts_ofText_append function.plain free ends (by decide)
      exact ⟨name, parts, leads⟩
    · obtain ⟨name, parts, leads, _⟩ :=
        Path.parts_ofText_append function.plain free ends (by decide)
      exact ⟨name, parts, leads⟩
  obtain ⟨name, parts, leads⟩ := parts
  have head : (runtime.sourceFile function).toList.head? = some '/' ↔
      function.plain.toList.head? = some '/' := by
    rw [sourceFile_eq, String.toList_append]
    cases function.plain.toList <;> simp
  unfold Path.StaysBelow Outward
  rw [parts, Path.collapse_concat_name _ leads, ← Path.mem_collapse_iff, ← head,
    ← Path.isAbsolute_ofText]
  simp [leads.symm]

end Runtime

namespace Graph

/-- No function has an id that leads out. -/
def Inward (graph : Graph) : Prop :=
  ∀ node ∈ graph.nodeList, node.IsOf .function → ¬Outward (Value.atom node.id).plain

variable {graph : Graph} {order : Order} {files : Entries String String}

/-- All rendered names stay below exactly when no function has an id that leads out. -/
theorem render_staysBelow_iff (rendered : (graph.render order).result = .ok files) :
    (∀ name ∈ Entries.keys files, (Path.ofText name).StaysBelow) ↔ graph.Inward := by
  obtain ⟨runtime, descriptor, known, listed⟩ := mem_render rendered
  have supported := Runtime.mem_all_of_ofId known
  constructor
  · intro below node member isFunction
    have function : node ∈ functionsIn graph.nodeList :=
      mem_functionsIn.2 ⟨member, Node.kind?_eq_some_iff.2 isFunction⟩
    have stored := (listed _ _).2 (.inl (mem_scaffoldOf.2 (.inr ⟨node, function, rfl⟩)))
    exact (Runtime.staysBelow_sourceFile_iff supported _).1
      (below _ (Entries.mem_keys_iff.2 ⟨_, stored⟩))
  · intro inward name key
    obtain ⟨text, stored⟩ := Entries.mem_keys_iff.1 key
    rcases (listed name text).1 stored with scaffold | descriptor
    · rcases mem_scaffoldOf.1 scaffold with ⟨_, ignored⟩ | ⟨node, function, source⟩
      · cases ignored
        decide +kernel
      · obtain ⟨member, kindEq⟩ := mem_functionsIn.1 function
        cases source
        exact (Runtime.staysBelow_sourceFile_iff supported _).2
          (inward node member (Node.kind?_eq_some_iff.1 kindEq))
    · cases descriptor
      decide +kernel

/-- The letter that the place of a rendered file ends in decides its text. -/
theorem text_of_letter (rendered : (graph.render order).result = .ok files) :
    ∃ textOf : Char → String, ∀ name text, (name, text) ∈ files →
      ∃ letter, (Path.ofText name).EndsIn letter ∧ text = textOf letter := by
  obtain ⟨runtime, descriptor, known, listed⟩ := mem_render rendered
  obtain ⟨free, ends⟩ := Runtime.suffix_of_mem_all (Runtime.mem_all_of_ofId known)
  refine ⟨fun letter => if letter = 'l' then descriptor else if letter = 'e' then runtime.ignored
    else runtime.startingCode, fun name text stored => ?_⟩
  rcases (listed name text).1 stored with scaffold | last
  · rcases mem_scaffoldOf.1 scaffold with ⟨_, ignored⟩ | ⟨node, _, source⟩
    · cases ignored
      exact ⟨'e', ⟨[], ignoreFile, by decide, by decide, by decide⟩, by simp⟩
    · cases source
      rw [Runtime.sourceFile_eq]
      rcases ends with ends | ends
      · exact ⟨'s', Path.endsIn_ofText_append _ free ends (by decide), by simp⟩
      · exact ⟨'y', Path.endsIn_ofText_append _ free ends (by decide), by simp⟩
  · cases last
    exact ⟨'l', ⟨[], descriptorFile, by decide, by decide, by decide⟩, by simp⟩

/-- Two rendered files with one place have the same text. -/
theorem text_unique (rendered : (graph.render order).result = .ok files) {output : Path}
    {directory : Location} {first second firstText secondText : String}
    (one : (first, firstText) ∈ files) (other : (second, secondText) ∈ files)
    (same : (output.join (Path.ofText first)).resolve directory =
      (output.join (Path.ofText second)).resolve directory) : firstText = secondText := by
  obtain ⟨textOf, texts⟩ := text_of_letter rendered
  obtain ⟨a, firstEnds, rfl⟩ := texts _ _ one
  obtain ⟨b, secondEnds, rfl⟩ := texts _ _ other
  rw [Path.resolve_join, Path.resolve_join] at same
  rw [firstEnds.unique secondEnds same]

end Graph

end CloudGraph
