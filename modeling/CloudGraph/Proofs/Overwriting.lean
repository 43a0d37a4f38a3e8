import CloudGraph.Proofs.Runs

/-!
# What a compilation writes over

A compilation that may not replace files looks at all places first and stores afterwards, and
it makes directories on the way. A place that leads through a directory which is missing when
it is looked at, and back again by two dots, is not seen to be taken: `Job.Exposes`. Files at
such places are written over (`Command.detour_overwrites`), and no others
(`Command.invoke_keeps_unexposed`).
-/

namespace CloudGraph

namespace Command

variable {directory : Location} {tree before after : Tree} {line : CommandLine}
  {location : Location}

/-- What a command line has worked out is settled by the tree. -/
instance : Subsingleton (Job line directory tree) where
  allEq := by
    rintro ⟨settings, graph, files, settingsFound, graphFound, rendered⟩
      ⟨settings', graph', files', settingsFound', graphFound', rendered'⟩
    obtain rfl := Except.ok.inj (settingsFound.symm.trans settingsFound')
    obtain rfl := Except.ok.inj (graphFound.symm.trans graphFound')
    obtain rfl := Except.ok.inj (rendered.symm.trans rendered')
    rfl

/-- The place of a file leads to a location, but by a way on which a directory is missing. -/
def Job.Exposes (job : Job line directory tree) (location : Location) : Prop :=
  ∃ name ∈ Entries.keys job.files, (job.place name).resolve directory = location ∧
    tree.locate directory (job.place name) = .error .fileNotFound

/-- Nothing is seen at a place when nothing is there, or when it leads nowhere. -/
theorem locate_of_vacant {path : Path} (vacant : tree.holds directory path = .ok false)
    (leads : tree.locate directory path = .ok location) : tree.find? location = none := by
  cases found : tree.find? location with
  | none => rfl
  | some item =>
      rw [holds_of_locate leads found] at vacant
      cases vacant

/-- Files are stored only where no file was, unless the place led through a missing
directory. -/
theorem Compilation.keeps_unexposed {result : Except Fault Unit} {contents : ByteArray}
    (compilation : Compilation line directory before result after) (keeps : line.force = false)
    (found : before.find? location = some (.file contents)) :
    after.find? location = some (.file contents) ∨
      ∃ job : Job line directory before, job.Exposes location := by
  cases compilation with
  | stopped => exact .inl found
  | stored job vacant stores =>
      cases stores.fate location with
      | kept same => exact .inl (same.trans found)
      | made _ _ _ free _ =>
          rw [found] at free
          cases free
      | written name text listed leads _ _ =>
          right
          have key : name ∈ Entries.keys job.files := List.mem_map_of_mem listed
          refine ⟨job, name, key, (Tree.locate_eq_resolve leads).symm, ?_⟩
          have here := Tree.locate_eq_resolve leads
          -- The place leads somewhere later, so only a missing directory can have hidden it.
          cases looked : before.locate directory (job.place name) with
          | ok other =>
              have free := locate_of_vacant (vacant keeps name key) looked
              rw [Tree.locate_eq_resolve looked, Job.place, ← here, found] at free
              cases free
          | error fault =>
              by_cases missing : fault = .fileNotFound
              · rw [missing]
              · have still := stores.toExtends.locate_error looked missing
                rw [Job.place, leads] at still
                cases still

/-- A place that exposes something in a sound tree has two dots in it. -/
theorem Job.Exposes.up_mem {job : Job line directory tree} (exposes : job.Exposes location)
    (sound : tree.Sound) (there : tree.find? location ≠ none) :
    ∃ name ∈ Entries.keys job.files, (job.place name).resolve directory = location ∧
      Path.up ∈ (job.place name).parts := by
  obtain ⟨name, key, here, missing⟩ := exposes
  refine ⟨name, key, here, ?_⟩
  by_contra names
  exact sound.locate_of_names names (here.symm ▸ there) missing

variable {arguments : List String} {start left : Workspace} {elapsed : String}
  {details? : Option String} {shown : Ending}

/-- Without leave to replace files, a compilation changes a file only where the place of one of
its own leads there through a directory that is missing, and then it does. In a sound tree such
a place has two dots in it. -/
theorem invoke_keeps_unexposed (ran : invoke elapsed details? arguments start = (shown, left))
    (read : CommandLine.read arguments = .ok line) (compiles : line.action = .compile)
    (keeps : line.force = false) :
    (∀ location contents, start.tree.find? location = some (.file contents) →
      left.tree.find? location = some (.file contents) ∨
        ∃ job : Job line start.directory start.tree, job.Exposes location) ∧
    ∀ job : Job line start.directory start.tree, ∀ location, job.Exposes location →
      (shown.code = 0 → ∃ name text, (name, text) ∈ job.files ∧
        (job.place name).resolve start.directory = location ∧
        left.tree.find? location = some (.file text.toUTF8)) ∧
      (start.tree.Sound → start.tree.find? location ≠ none →
        ∃ name ∈ Entries.keys job.files,
          (job.place name).resolve start.directory = location ∧
            Path.up ∈ (job.place name).parts) := by
  obtain ⟨result, compilation, _, ends⟩ := compilation_of_invoke ran read compiles
  refine ⟨fun location contents found => compilation.keeps_unexposed keeps found, ?_⟩
  intro job location exposes
  refine ⟨fun succeeded => ?_, exposes.up_mem⟩
  obtain ⟨_, rfl⟩ | ⟨failed, _⟩ := ends
  · cases compilation with
    | stored stored _ stores =>
        obtain rfl := Subsingleton.elim stored job
        obtain ⟨name, key, rfl, _⟩ := exposes
        obtain ⟨text, listed⟩ := Entries.mem_keys_iff.1 key
        obtain ⟨location, leads, held⟩ := read_eq_ok.1 ((stored.done stores).stored _ _ listed)
        exact ⟨name, text, listed, rfl, Tree.locate_eq_resolve leads ▸ held⟩
  · rw [succeeded] at failed
    cases failed

theorem sketch_keeps_unexposed : ∃ shown left,
    invoke "0.00" none ["compile"] sketch = (shown, left) ∧
      ∀ location contents, sketch.tree.find? location = some (.file contents) →
        left.tree.find? location = some (.file contents) ∨
          ∃ job : Job { action := .compile } sketch.directory sketch.tree,
            job.Exposes location := by
  have read : CommandLine.read ["compile"] = .ok { action := .compile } := by cbv
  exact ⟨_, _, rfl, (invoke_keeps_unexposed rfl read rfl rfl).1⟩

/-- A directory that holds a model and a file, to which the place of the only function leads
back from an output directory. -/
def detour : Workspace where
  tree := ⟨[(["work"], .directory), (["work", "model.json"], .file
    "\x7b\"nodes\": [\x7b\"id\": \"../keep\", \"type\": \"fn\"\x7d]\x7d".toUTF8),
    (["work", "keep.js"], .file "mine".toUTF8)]⟩
  directory := ["work"]

/-- When the output directory is missing, the file is not seen, and it is written over. -/
theorem detour_overwrites : ∃ line shown left,
    CommandLine.read ["compile", "-o", "out"] = .ok line ∧ line.force = false ∧
      invoke "0.00" none ["compile", "-o", "out"] detour = (shown, left) ∧ shown.code = 0 ∧
      (detour.tree.read detour.directory (.ofText "keep.js")).toOption = some "mine".toUTF8 ∧
      (left.tree.read detour.directory (.ofText "keep.js")).toOption ≠ some "mine".toUTF8 := by
  have asked : ((CommandLine.read ["compile", "-o", "out"]).toOption.any fun line =>
      !line.force) = true := by decide +kernel
  cases read : CommandLine.read ["compile", "-o", "out"] with
  | error stop =>
      rw [read] at asked
      cases asked
  | ok line =>
      rw [read] at asked
      have kept : line.force = false := by simpa [Except.toOption] using asked
      exact ⟨line, _, _, rfl, kept, rfl, by decide +kernel⟩

end Command

end CloudGraph
