import CloudGraph.Command.Run
import CloudGraph.Proofs.Walks

/-!
# Storing files

What is left of a file tree when files are written into it one after another, each after the
directories above it have been made: `Stores` relates the tree before, the files, the way in
which the writing ends and the tree after. The writing can stop at any file, and then what has
been written before stays.

`Fate` lists all that can have become of a location (`Stores.fate`): it is as it was, it holds
the text of a file whose place leads to it, or it is a directory that was made on the way to
such a place. Faults met while storing are never explained to the user
(`Stores.fault_unexplained`).
-/

namespace CloudGraph

/-- A path passes through a location, which may be its end. -/
def Path.Passes (path : Path) (directory location : Location) : Prop :=
  ∃ parts, parts <+: path.parts ∧ location = Path.walk (path.start directory) parts

namespace Path

variable {path : Path} {directory location : Location}

theorem passes_resolve (path : Path) (directory : Location) :
    path.Passes directory (path.resolve directory) :=
  ⟨path.parts, List.prefix_rfl, rfl⟩

theorem Passes.of_parent (passes : path.parent.Passes directory location) :
    path.Passes directory location := by
  obtain ⟨parts, shorter, leads⟩ := passes
  exact ⟨parts, shorter.trans (List.dropLast_prefix _), leads⟩

end Path

namespace Tree

variable {tree before middle after made : Tree} {directory location : Location} {path : Path}
  {contents : ByteArray} {fault : Fault}

section Writing

/-- A file is written where a path leads, unless a directory is there. -/
theorem write_eq_ok : tree.write directory path contents = .ok after ↔
    ∃ location, tree.locate directory path = .ok location ∧
      tree.find? location ≠ some .directory ∧ tree.put location (.file contents) = after := by
  unfold write
  cases leads : tree.locate directory path with
  | error fault => simp [bind, Except.bind]
  | ok location =>
      cases found : tree.find? location with
      | none => simp [bind, Except.bind, pure, Except.pure, found]
      | some item => cases item <;> simp [bind, Except.bind, pure, Except.pure, found]

theorem write_unexplained (fails : tree.write directory path contents = .error fault) :
    fault.explained = false := by
  unfold write at fails
  cases leads : tree.locate directory path with
  | error cause =>
      rw [leads] at fails
      cases fails
      exact locate_unexplained leads
  | ok location =>
      rw [leads] at fails
      cases found : tree.find? location with
      | none => simp [bind, Except.bind, pure, Except.pure, found] at fails
      | some item =>
          cases item with
          | file held => simp [bind, Except.bind, pure, Except.pure, found] at fails
          | directory =>
              simp only [bind, Except.bind, found] at fails
              cases fails
              rfl

theorem extends_put_file (free : tree.find? location ≠ some .directory) :
    tree.Extends (tree.put location (.file contents)) where
  directory := by
    intro other found
    rw [find?_put free]
    by_cases same : other = location
    · rw [same] at found
      exact absurd found free
    · rw [if_neg same]
      exact found
  file := by
    intro other held found
    rw [find?_put free]
    by_cases same : other = location
    · exact ⟨contents, if_pos same⟩
    · exact ⟨held, by rw [if_neg same]; exact found⟩

end Writing

section Directories

/-- A directory is made where a path leads, if nothing is there. -/
theorem makeDirectory_eq_ok : tree.makeDirectory directory path = .ok made ↔
    ∃ location, tree.locate directory path = .ok location ∧
      tree.find? location = none ∧ tree.put location .directory = made := by
  unfold makeDirectory
  cases leads : tree.locate directory path with
  | error fault => simp [bind, Except.bind]
  | ok location =>
      cases found : tree.find? location <;>
        simp [bind, Except.bind, pure, Except.pure, found]

theorem makeDirectory_unexplained (fails : tree.makeDirectory directory path = .error fault) :
    fault.explained = false := by
  unfold makeDirectory at fails
  cases leads : tree.locate directory path with
  | error cause =>
      rw [leads] at fails
      cases fails
      exact locate_unexplained leads
  | ok location =>
      rw [leads] at fails
      cases found : tree.find? location with
      | none => simp [bind, Except.bind, pure, Except.pure, found] at fails
      | some item =>
          simp only [bind, Except.bind, found] at fails
          cases fails
          rfl

/-- Only a path that the file system does not take makes a look fail. -/
theorem item?_error (fails : tree.item? directory path = .error fault) : fault = .badPath := by
  unfold item? at fails
  split at fails
  · cases fails
  · cases fails
    rfl
  · cases fails

theorem ensureDirectory_eq_ok (ensured : tree.ensureDirectory directory path = .ok made) :
    made = tree ∨ tree.makeDirectory directory path = .ok made := by
  unfold ensureDirectory at ensured
  split at ensured
  next new =>
    cases ensured
    exact .inr new
  next => cases ensured
  next =>
    split at ensured
    · cases ensured
      exact .inl rfl
    · cases ensured
    · cases ensured

theorem ensureDirectory_unexplained (fails : tree.ensureDirectory directory path = .error fault) :
    fault.explained = false := by
  unfold ensureDirectory at fails
  split at fails
  next => cases fails
  next =>
    cases fails
    rfl
  next refused =>
    split at fails
    next => cases fails
    next =>
      cases fails
      exact makeDirectory_unexplained refused
    next looked =>
      cases fails
      rw [item?_error looked]
      rfl

/-- All that changes from one tree to another is that directories on the way of a path are
made where nothing was. -/
def Furnished (path : Path) (directory : Location) (before after : Tree) : Prop :=
  ∀ location, after.find? location = before.find? location ∨
    before.find? location = none ∧ after.find? location = some .directory ∧
      path.Passes directory location

namespace Furnished

theorem refl (path : Path) (directory : Location) (tree : Tree) :
    Furnished path directory tree tree :=
  fun _ => .inl rfl

theorem toExtends (furnished : Furnished path directory before after) : before.Extends after where
  directory := by
    intro location found
    rcases furnished location with kept | ⟨free, _, _⟩
    · rw [kept]
      exact found
    · rw [free] at found
      cases found
  file := by
    intro location contents found
    rcases furnished location with kept | ⟨free, _, _⟩
    · exact ⟨contents, by rw [kept]; exact found⟩
    · rw [free] at found
      cases found

theorem trans (first : Furnished path directory before middle)
    (second : Furnished path directory middle after) : Furnished path directory before after := by
  intro location
  rcases second location with kept | ⟨free, made, passes⟩
  · rw [kept]
    exact first location
  · exact .inr ⟨first.toExtends.find?_eq_none free, made, passes⟩

theorem of_parent (furnished : Furnished path.parent directory before after) :
    Furnished path directory before after :=
  fun location => (furnished location).imp_right
    fun ⟨free, made, passes⟩ => ⟨free, made, passes.of_parent⟩

end Furnished

theorem ensureDirectory_furnishes (ensured : tree.ensureDirectory directory path = .ok made) :
    Furnished path directory tree made := by
  rcases ensureDirectory_eq_ok ensured with rfl | new
  · exact .refl path directory made
  · obtain ⟨location, leads, free, rfl⟩ := makeDirectory_eq_ok.1 new
    intro other
    have vacant : tree.find? location ≠ some .directory := by simp [free]
    rw [find?_put vacant]
    by_cases same : other = location
    · rw [if_pos same, same]
      refine .inr ⟨free, rfl, ?_⟩
      rw [locate_eq_resolve leads]
      exact Path.passes_resolve path directory
    · rw [if_neg same]
      exact .inl rfl

/-- Whether or not all directories can be made, nothing else changes. -/
theorem makeDirectories_furnishes (tree : Tree) (directory : Location) (path : Path) :
    Furnished path directory tree (tree.makeDirectories directory path).1 := by
  fun_induction makeDirectories tree directory path with
  | case1 path made ensured => exact ensureDirectory_furnishes ensured
  | case2 path _ _ => exact .refl path directory tree
  | case3 path _ _ made fault above ih =>
      rw [above] at ih
      exact ih.of_parent
  | case4 path _ _ middle made ensured above ih =>
      rw [above] at ih
      exact ih.of_parent.trans (ensureDirectory_furnishes ensured)
  | case5 path _ _ middle fault _ above ih =>
      rw [above] at ih
      exact ih.of_parent
  | case6 path _ _ _ => exact .refl path directory tree

theorem Furnished.of_makeDirectories {result : Except Fault Unit}
    (ended : before.makeDirectories directory path = (after, result)) :
    Furnished path directory before after := by
  have furnished := makeDirectories_furnishes before directory path
  rw [ended] at furnished
  exact furnished

theorem makeDirectories_unexplained
    (fails : (tree.makeDirectories directory path).2 = .error fault) :
    fault.explained = false := by
  fun_induction makeDirectories tree directory path with
  | case1 => cases fails
  | case2 =>
      cases fails
      rfl
  | case3 path _ _ made cause above ih =>
      rw [above] at ih
      exact ih fails
  | case4 => cases fails
  | case5 path _ _ middle cause refused above ih =>
      cases fails
      exact ensureDirectory_unexplained refused
  | case6 path cause _ refused =>
      cases fails
      exact ensureDirectory_unexplained refused

end Directories

end Tree

namespace Command

/-- How files are written into an output directory, one after another: each after the
directories above it, and none after a fault. -/
inductive Stores (output : Path) (directory : Location) :
    Tree → Entries String String → Except Fault Unit → Tree → Prop where
  | done {tree : Tree} : Stores output directory tree [] (.ok ()) tree
  /-- The directories above a file cannot all be made. -/
  | blocked {before middle : Tree} {name text : String} {files : Entries String String}
      {fault : Fault}
      (cut : before.makeDirectories directory (placeOf output name).parent =
        (middle, .error fault)) :
      Stores output directory before ((name, text) :: files) (.error fault) middle
  /-- A file cannot be written. -/
  | refused {before middle : Tree} {name text : String} {files : Entries String String}
      {fault : Fault}
      (furnished : before.makeDirectories directory (placeOf output name).parent =
        (middle, .ok ()))
      (fails : middle.write directory (placeOf output name) text.toUTF8 = .error fault) :
      Stores output directory before ((name, text) :: files) (.error fault) middle
  | written {before middle next after : Tree} {name text : String}
      {files : Entries String String} {result : Except Fault Unit}
      (furnished : before.makeDirectories directory (placeOf output name).parent =
        (middle, .ok ()))
      (put : middle.write directory (placeOf output name) text.toUTF8 = .ok next)
      (rest : Stores output directory next files result after) :
      Stores output directory before ((name, text) :: files) result after

/-- What can have become of a location when files have been stored. -/
inductive Fate (output : Path) (directory : Location) (files : Entries String String)
    (before after : Tree) (location : Location) : Prop where
  | kept (same : after.find? location = before.find? location)
  /-- The place of a file leads there, and it holds the text of that file. -/
  | written (name text : String) (listed : (name, text) ∈ files)
      (leads : after.locate directory (placeOf output name) = .ok location)
      (vacant : before.find? location ≠ some .directory)
      (holds : after.find? location = some (.file text.toUTF8))
  /-- It is on the way to the place of a file. -/
  | made (name : String) (listed : name ∈ Entries.keys files)
      (passes : (placeOf output name).parent.Passes directory location)
      (free : before.find? location = none)
      (there : after.find? location = some .directory)

namespace Stores

variable {output : Path} {directory : Location} {before middle after : Tree}
  {files : Entries String String} {result : Except Fault Unit} {fault : Fault}
  {name text : String}

/-- The step that all runs are made of: one file leaves everything that is there in its
place. -/
theorem extends_written
    (furnished : before.makeDirectories directory (placeOf output name).parent =
      (middle, .ok ()))
    (put : middle.write directory (placeOf output name) text.toUTF8 = .ok after) :
    before.Extends after := by
  obtain ⟨location, _, vacant, rfl⟩ := Tree.write_eq_ok.1 put
  exact (Tree.Furnished.of_makeDirectories furnished).toExtends.trans
    (Tree.extends_put_file vacant)

theorem toExtends (stores : Stores output directory before files result after) :
    before.Extends after := by
  induction stores with
  | done => exact .refl _
  | blocked cut => exact (Tree.Furnished.of_makeDirectories cut).toExtends
  | refused furnished _ => exact (Tree.Furnished.of_makeDirectories furnished).toExtends
  | written furnished put _ ih => exact (extends_written furnished put).trans ih

/-- A fault that is met while storing is not explained to the user. -/
theorem fault_unexplained (stores : Stores output directory before files (.error fault) after) :
    fault.explained = false := by
  generalize ended : (Except.error fault : Except Fault Unit) = result at stores
  induction stores with
  | done => cases ended
  | blocked cut =>
      cases ended
      exact Tree.makeDirectories_unexplained (congrArg Prod.snd cut)
  | refused _ fails =>
      cases ended
      exact Tree.write_unexplained fails
  | written _ _ _ ih => exact ih ended

/-- Making the directories above a file leaves each location as it was or makes a directory
of it. -/
theorem fate_furnished (listed : name ∈ Entries.keys files)
    (furnished : before.makeDirectories directory (placeOf output name).parent =
      (after, result)) (location : Location) :
    Fate output directory files before after location := by
  rcases Tree.Furnished.of_makeDirectories furnished location with same | ⟨free, there, passes⟩
  · exact .kept same
  · exact .made name listed passes free there

/-- Everything that is stored is at a location that the place of a file leads to, and nothing
else changes but directories that are made on the way. -/
theorem fate (stores : Stores output directory before files result after)
    (location : Location) : Fate output directory files before after location := by
  induction stores with
  | done => exact .kept rfl
  | blocked cut => exact fate_furnished List.mem_cons_self cut location
  | refused furnished _ => exact fate_furnished List.mem_cons_self furnished location
  | @written before middle next after name text files result furnished put rest ih =>
      have grown := extends_written furnished put
      have ways := Tree.Furnished.of_makeDirectories furnished
      -- The last change of a location decides: first the files that come later.
      cases ih with
      | written other contents listed leads vacant holds =>
          refine .written other contents (List.mem_cons_of_mem _ listed) leads ?_ holds
          exact fun found => vacant (grown.directory location found)
      | made other listed passes free there =>
          exact .made other (List.mem_cons_of_mem _ listed) passes
            (grown.find?_eq_none free) there
      | kept same =>
          obtain ⟨target, leads, vacant, rfl⟩ := Tree.write_eq_ok.1 put
          rw [Tree.find?_put vacant] at same
          by_cases here : location = target
          · rw [if_pos here] at same
            subst here
            have later := (Tree.extends_put_file vacant).trans rest.toExtends
            exact .written name text List.mem_cons_self (later.locate leads)
              (fun found => vacant (ways.toExtends.directory location found)) same
          · rw [if_neg here] at same
            rcases ways location with still | ⟨free, there, passes⟩
            · exact .kept (same.trans still)
            · exact .made name List.mem_cons_self passes free (same.trans there)

/-- When all files are stored, each place leads to the text of a file with that place. -/
theorem complete (stores : Stores output directory before files (.ok ()) after)
    (listed : (name, text) ∈ files) :
    ∃ location other contents, after.locate directory (placeOf output name) = .ok location ∧
      (other, contents) ∈ files ∧
      after.locate directory (placeOf output other) = .ok location ∧
      after.find? location = some (.file contents.toUTF8) := by
  generalize ended : (Except.ok () : Except Fault Unit) = result at stores
  induction stores with
  | done => cases listed
  | blocked => cases ended
  | refused => cases ended
  | @written before middle next after first words files result furnished put rest ih =>
      rcases List.mem_cons.1 listed with head | listed
      · cases head
        obtain ⟨location, leads, vacant, rfl⟩ := Tree.write_eq_ok.1 put
        have leads := ((Tree.extends_put_file vacant).trans rest.toExtends).locate leads
        have stored := Tree.find?_put vacant (.file text.toUTF8) location
        rw [if_pos rfl] at stored
        -- A later file with the same location replaces the text.
        cases rest.fate location with
        | kept same =>
            exact ⟨location, name, text, leads, List.mem_cons_self, leads, same.trans stored⟩
        | written other contents listed again _ holds =>
            exact ⟨location, other, contents, leads, List.mem_cons_of_mem _ listed, again, holds⟩
        | made other _ _ free _ =>
            rw [stored] at free
            cases free
      · obtain ⟨location, other, contents, leads, among, again, holds⟩ := ih listed ended
        exact ⟨location, other, contents, leads, List.mem_cons_of_mem _ among, again, holds⟩

end Stores

end Command

end CloudGraph
