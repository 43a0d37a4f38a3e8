import CloudGraph.Proofs.Overwriting

/-!
# Where a compilation writes

A compilation creates and changes files only at the places of the files that it renders. They
are below the output directory when no function has an id that leads out of it
(`Command.invoke_stays_inside`), and otherwise there is an output directory which some of them
are not below. Neither the reading of a graph nor the storing of files asks for more than
that, so an id with a slash in front or with two dots writes elsewhere
(`Command.detour_leaves_output`).
-/

namespace CloudGraph

namespace Command

variable {directory : Location} {before after : Tree} {line : CommandLine} {location : Location}

/-- A file that a compilation creates or changes is at the place of one that it renders. -/
theorem Compilation.placed {result : Except Fault Unit} {contents : ByteArray}
    (compilation : Compilation line directory before result after)
    (found : after.find? location = some (.file contents))
    (changed : before.find? location ≠ some (.file contents)) :
    ∃ job : Job line directory before, ∃ name ∈ Entries.keys job.files,
      (job.place name).resolve directory = location := by
  cases compilation with
  | stopped => exact absurd found changed
  | stored job vacant stores =>
      cases stores.fate location with
      | kept same => exact absurd (same.symm.trans found) changed
      | written name text listed leads _ _ =>
          exact ⟨job, name, List.mem_map_of_mem listed, (Tree.locate_eq_resolve leads).symm⟩
      | made _ _ _ _ there =>
          rw [found] at there
          cases there

/-- The places of an inward graph are below the output directory. -/
theorem Job.inside_of_inward (job : Job line directory before) (inward : job.graph.Inward)
    {name : String} (key : name ∈ Entries.keys job.files) :
    Path.Inside ((outputPath line job.settings).resolve directory)
      ((job.place name).resolve directory) := by
  have below := (Graph.render_staysBelow_iff job.rendered).2 inward name key
  rw [Job.place, placeOf, Path.resolve_join]
  exact below.inside _

/-- The names that a graph is rendered to stay below their base, for one directory as for all,
exactly when no function has an id that leads out. A file that a compilation creates or changes
is at the place of such a name; for a graph without an id that leads out, it is below the output
directory. -/
theorem invoke_stays_inside {graph : Graph} {order : Order} {files : Entries String String}
    (rendered : (graph.render order).result = .ok files) :
    ((∀ name ∈ Entries.keys files, (Path.ofText name).StaysBelow) ↔ graph.Inward) ∧
    ((∀ name ∈ Entries.keys files, ∀ directory,
      Path.Inside directory ((Path.ofText name).resolve directory)) ↔ graph.Inward) ∧
    ∀ (elapsed : String) (details? : Option String) (arguments : List String)
      (start left : Workspace) (shown : Ending) (line : CommandLine),
      invoke elapsed details? arguments start = (shown, left) →
      CommandLine.read arguments = .ok line → line.action = .compile →
      ∀ location contents, left.tree.find? location = some (.file contents) →
        start.tree.find? location ≠ some (.file contents) →
        ∃ job : Job line start.directory start.tree,
          (∃ name ∈ Entries.keys job.files, (job.place name).resolve start.directory = location) ∧
          (job.graph = graph → graph.Inward →
            Path.Inside ((outputPath line job.settings).resolve start.directory) location) := by
  have below := Graph.render_staysBelow_iff rendered
  refine ⟨below, ?_, ?_⟩
  · rw [← below]
    exact forall₂_congr fun name _ => Path.staysBelow_iff.symm
  · intro elapsed details? arguments start left shown line ran read compiles location contents
      found changed
    obtain ⟨_, compilation, _⟩ := compilation_of_invoke ran read compiles
    obtain ⟨job, name, key, rfl⟩ := compilation.placed found changed
    refine ⟨job, ⟨name, key, rfl⟩, ?_⟩
    rintro rfl inward
    exact job.inside_of_inward inward key

theorem sketch_stays_inside : ∃ shown left,
    invoke "0.00" none ["compile"] sketch = (shown, left) ∧ shown.code = 0 ∧
      ∀ location contents, left.tree.find? location = some (.file contents) →
        sketch.tree.find? location ≠ some (.file contents) →
        Path.Inside ["work", "build"] location := by
  have read : CommandLine.read ["compile"] = .ok { action := .compile } := by cbv
  refine ⟨_, _, rfl, by decide +kernel, fun location contents found changed => ?_⟩
  obtain ⟨_, compilation, _⟩ := compilation_of_invoke rfl read rfl
  obtain ⟨job, _⟩ := compilation.placed found changed
  obtain ⟨inward, _, runs⟩ := invoke_stays_inside job.rendered
  obtain ⟨again, _, inside⟩ := runs _ _ _ _ _ _ _ rfl read rfl location contents found changed
  have names := job.of_checked (fun _ files =>
    ∀ name ∈ Entries.keys files, (Path.ofText name).StaysBelow) (by decide +kernel)
  have output := job.of_checked (fun settings _ =>
    (outputPath { action := .compile } settings).resolve sketch.directory = ["work", "build"])
    (by decide +kernel)
  rw [Subsingleton.elim again job] at inside
  rw [← output]
  exact inside rfl (inward.1 names)

/-- The file that is written over is not below the output directory, which its name is meant
to be relative to. -/
theorem detour_leaves_output : ∃ shown left,
    invoke "0.00" none ["compile", "-o", "out"] detour = (shown, left) ∧ shown.code = 0 ∧
      (detour.tree.read detour.directory (.ofText "keep.js")).toOption = some "mine".toUTF8 ∧
      (left.tree.read detour.directory (.ofText "keep.js")).toOption =
        some Runtime.nodeCode.toUTF8 ∧
      ¬(Path.ofText "../keep.js").StaysBelow ∧
      ¬Path.Inside ((Path.ofText "out").resolve detour.directory)
        ((Path.ofText "keep.js").resolve detour.directory) := by
  -- Lists of bytes are compared faster than arrays of them.
  have bytes : Function.Injective fun contents : ByteArray => contents.data.toList :=
    fun _ _ same => ByteArray.ext (Array.toList_inj.1 same)
  refine ⟨_, _, rfl, by decide +kernel, by decide +kernel, ?_, by decide +kernel⟩
  apply Option.map_injective bytes
  decide +kernel

end Command

end CloudGraph
