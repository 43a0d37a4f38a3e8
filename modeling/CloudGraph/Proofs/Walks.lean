import CloudGraph.Files.Tree
import CloudGraph.Proofs.Entries
import Mathlib.Data.List.Induction

/-!
# Walks through file trees

A path leads to one location or to none: `Tree.locate_eq_resolve` says that where it leads
does not depend on the tree, only whether it leads anywhere does.

`Tree.Extends` is what every operation on files keeps: directories stay directories and files
stay files, whatever they hold. A walk that succeeds goes on to succeed
(`Tree.Extends.locate`), and a walk that fails for anything but a missing directory goes on to
fail (`Tree.Extends.locate_error`). A missing directory is therefore the only reason why a
path can lead nowhere now and somewhere later.
-/

namespace CloudGraph

/-- Whether a fault is explained to the user. -/
def Fault.explained : Fault → Bool
  | .problem _ | .defect _ => true
  | _ => false

theorem Entries.exact_location (location : Location) :
    Entries.Exact Tree.sameLocation location := by
  intro other
  simp [Tree.sameLocation]

namespace Path

@[simp]
theorem walk_nil (here : Location) : walk here [] = here := rfl

theorem walk_cons (here : Location) (part : String) (parts : List String) :
    walk here (part :: parts) = walk (walk here [part]) parts := rfl

theorem walk_append (here : Location) (first second : List String) :
    walk here (first ++ second) = walk (walk here first) second :=
  List.foldl_append

@[simp]
theorem walk_up (here : Location) : walk here [up] = here.dropLast := by
  simp [walk]

theorem walk_name (here : Location) {part : String} (name : part ≠ up) :
    walk here [part] = here ++ [part] := by
  simp [walk, name]

/-- Without two dots, a walk leads down alone. -/
theorem walk_of_names (here : Location) {parts : List String} (names : up ∉ parts) :
    walk here parts = here ++ parts := by
  induction parts generalizing here with
  | nil => rw [walk_nil, List.append_nil]
  | cons part parts ih =>
      rw [List.mem_cons, not_or] at names
      rw [walk_cons, walk_name here (Ne.symm names.1), ih _ names.2, List.append_assoc,
        List.singleton_append]

/-- The location that the parts of a path are followed from. -/
def start (path : Path) (directory : Location) : Location :=
  if path.isAbsolute then [] else directory

theorem resolve_eq (path : Path) (directory : Location) :
    path.resolve directory = walk (path.start directory) path.parts := rfl

end Path

namespace Tree

variable {tree before middle after : Tree} {directory here location other : Location}
  {path : Path} {part : String} {parts : List String} {fault : Fault}

@[simp]
theorem find?_root (tree : Tree) : tree.find? [] = some .directory := by
  simp [find?]

/-- What is put where no directory is, is there afterwards, and nothing else changes. -/
theorem find?_put (free : tree.find? location ≠ some .directory) (item : Item)
    (other : Location) :
    (tree.put location item).find? other =
      if other = location then some item else tree.find? other := by
  have below : location ≠ [] := by
    rintro rfl
    exact free (find?_root tree)
  unfold find? put
  rw [Entries.find?_put (Entries.exact_location location) (Entries.exact_location other)]
  by_cases root : other = []
  · rw [if_pos root, if_pos root, if_neg]
    exact fun equal => below (equal.symm.trans root)
  · rw [if_neg root, if_neg root]

section Follow

/-- A walk goes through a directory, by a name that the file system takes or back. -/
theorem follow_cons_eq_ok : tree.follow here (part :: parts) = .ok location ↔
    tree.find? here = some .directory ∧ (part = Path.up ∨ part.utf8ByteSize ≤ maxName) ∧
      tree.follow (Path.walk here [part]) parts = .ok location := by
  rw [follow]
  cases found : tree.find? here with
  | none => simp
  | some item =>
      cases item with
      | file contents => simp
      | directory =>
          by_cases back : part = Path.up
          · simp [back]
          · by_cases long : maxName < part.utf8ByteSize
            · simp [back, long, Nat.not_le.2 long]
            · simp [back, long, Nat.not_lt.1 long, Path.walk_name here back]

/-- Where a walk leads does not depend on the tree. -/
theorem follow_eq_walk (leads : tree.follow here parts = .ok location) :
    location = Path.walk here parts := by
  induction parts generalizing here with
  | nil =>
      rw [follow, Except.ok.injEq] at leads
      exact leads.symm
  | cons part parts ih =>
      obtain ⟨_, _, rest⟩ := follow_cons_eq_ok.1 leads
      rw [Path.walk_cons]
      exact ih rest

theorem follow_unexplained (fails : tree.follow here parts = .error fault) :
    fault.explained = false := by
  induction parts generalizing here with
  | nil => simp [follow] at fails
  | cons part parts ih =>
      rw [follow] at fails
      split at fails
      · cases fails
        rfl
      · cases fails
        rfl
      · split at fails
        · exact ih fails
        · split at fails
          · cases fails
            rfl
          · exact ih fails

end Follow

/-- What the text of a path alone decides: whether the file system takes it at all. -/
theorem locate_eq_ok : tree.locate directory path = .ok location ↔
    path.parts.any (fun part => part.toList.contains '\x00') = false ∧
      path.text.utf8ByteSize ≤ maxPath ∧
      tree.follow (path.start directory) path.parts = .ok location := by
  unfold locate Path.start
  cases path.parts.any fun part => part.toList.contains '\x00' with
  | true => simp
  | false =>
      by_cases long : maxPath < path.text.utf8ByteSize
      · simp [long, Nat.not_le.2 long]
      · simp [long, Nat.not_lt.1 long]

/-- The location that a path leads to is told by the path and the directory alone. -/
theorem locate_eq_resolve (leads : tree.locate directory path = .ok location) :
    location = path.resolve directory :=
  follow_eq_walk (locate_eq_ok.1 leads).2.2

theorem locate_unexplained (fails : tree.locate directory path = .error fault) :
    fault.explained = false := by
  unfold locate at fails
  split at fails
  · cases fails
    rfl
  · split at fails
    · cases fails
      rfl
    · exact follow_unexplained fails

/-- All directories and files of one tree are there in another, where files may hold other
contents. -/
structure Extends (before after : Tree) : Prop where
  directory : ∀ location, before.find? location = some .directory →
    after.find? location = some .directory
  file : ∀ location contents, before.find? location = some (.file contents) →
    ∃ held, after.find? location = some (.file held)

namespace Extends

theorem refl (tree : Tree) : Extends tree tree where
  directory := fun _ found => found
  file := fun _ contents found => ⟨contents, found⟩

theorem trans (first : Extends before middle) (second : Extends middle after) :
    Extends before after where
  directory := fun location found => second.directory location (first.directory location found)
  file := by
    intro location contents found
    obtain ⟨held, there⟩ := first.file location contents found
    exact second.file location held there

/-- A location that is free in the end was free before. -/
theorem find?_eq_none (grown : Extends before after) (free : after.find? location = none) :
    before.find? location = none := by
  cases found : before.find? location with
  | none => rfl
  | some item =>
      cases item with
      | directory =>
          rw [grown.directory location found] at free
          cases free
      | file contents =>
          obtain ⟨held, there⟩ := grown.file location contents found
          rw [there] at free
          cases free

/-- A walk that succeeds still succeeds. -/
theorem follow (grown : Extends before after) (leads : before.follow here parts = .ok location) :
    after.follow here parts = .ok location := by
  induction parts generalizing here with
  | nil => exact leads
  | cons part parts ih =>
      obtain ⟨there, taken, rest⟩ := follow_cons_eq_ok.1 leads
      exact follow_cons_eq_ok.2 ⟨grown.directory here there, taken, ih rest⟩

/-- A walk that fails still fails in the same way, unless a directory was missing. -/
theorem follow_error (grown : Extends before after)
    (fails : before.follow here parts = .error fault) (present : fault ≠ .fileNotFound) :
    after.follow here parts = .error fault := by
  induction parts generalizing here with
  | nil => simp [Tree.follow] at fails
  | cons part parts ih =>
      rw [Tree.follow] at fails ⊢
      cases found : before.find? here with
      | none =>
          rw [found] at fails
          cases fails
          exact absurd rfl present
      | some item =>
          cases item with
          | file contents =>
              obtain ⟨held, there⟩ := grown.file here contents found
              rw [found] at fails
              rw [there]
              exact fails
          | directory =>
              rw [found] at fails
              rw [grown.directory here found]
              by_cases back : part = Path.up
              · rw [back] at fails ⊢
                exact ih fails
              · by_cases long : maxName < part.utf8ByteSize
                · simpa [back, long] using fails
                · simp only [back, long, if_false] at fails ⊢
                  exact ih fails

theorem locate (grown : Extends before after)
    (leads : before.locate directory path = .ok location) :
    after.locate directory path = .ok location := by
  obtain ⟨clear, short, walks⟩ := locate_eq_ok.1 leads
  exact locate_eq_ok.2 ⟨clear, short, grown.follow walks⟩

theorem locate_error (grown : Extends before after)
    (fails : before.locate directory path = .error fault) (present : fault ≠ .fileNotFound) :
    after.locate directory path = .error fault := by
  unfold Tree.locate at fails ⊢
  split
  next nul =>
    rw [if_pos nul] at fails
    exact fails
  next clear =>
    rw [if_neg clear] at fails
    split
    next long =>
      rw [if_pos long] at fails
      exact fails
    next short =>
      rw [if_neg short] at fails
      exact grown.follow_error fails present

end Extends

/-- Everything in a tree stands in a directory that is there. -/
def Sound (tree : Tree) : Prop :=
  ∀ location, tree.find? location ≠ none → tree.find? location.dropLast = some .directory

/-- All that stands above something is a directory. -/
theorem Sound.above (sound : tree.Sound) (there : tree.find? (here ++ part :: parts) ≠ none) :
    tree.find? here = some .directory := by
  induction parts using List.reverseRecOn with
  | nil => simpa using sound _ there
  | append_singleton parts last ih =>
      rw [← List.cons_append, ← List.append_assoc] at there
      have directory := sound _ there
      rw [List.dropLast_concat] at directory
      exact ih (by rw [directory]; simp)

/-- In a sound tree, a walk that only leads down finds whatever is there. -/
theorem Sound.follow_of_names (sound : tree.Sound) (names : Path.up ∉ parts)
    (there : tree.find? (here ++ parts) ≠ none) :
    tree.follow here parts ≠ .error .fileNotFound := by
  induction parts generalizing here with
  | nil => simp [follow]
  | cons part parts ih =>
      rw [List.mem_cons, not_or] at names
      rw [follow, sound.above there, if_neg (Ne.symm names.1)]
      by_cases long : maxName < part.utf8ByteSize
      · simp [long]
      · rw [← List.singleton_append, ← List.append_assoc] at there
        simpa [long] using ih names.2 there

/-- In a sound tree, a path without two dots finds whatever is at its location. -/
theorem Sound.locate_of_names (sound : tree.Sound) (names : Path.up ∉ path.parts)
    (there : tree.find? (path.resolve directory) ≠ none) :
    tree.locate directory path ≠ .error .fileNotFound := by
  rw [Path.resolve_eq, Path.walk_of_names _ names] at there
  unfold locate
  split
  · simp
  · split
    · simp
    · exact sound.follow_of_names names there

end Tree

end CloudGraph
