import CloudGraph.Proofs.Inventory
import CloudGraph.Proofs.Writes

/-!
# The files of a graph

Which files a graph is rendered to, for every graph and not only for one whose ids are texts.
A visit of a function edits two files, the ignore file and its own source file, and no other
visit edits any: `Graph.fileEdits_planNode`. The files of a whole graph are therefore the
scaffold of its functions (`Graph.files_of_compile`), with a text for each name that the name
alone decides (`Graph.mem_render`).
-/

namespace CloudGraph

/-- The files after an edit. -/
def Edit.onFiles (files : Entries String String) : Edit → Entries String String
  | .write name contents => Entries.put Project.sameName files name contents
  | .provide name contents =>
    match Entries.find? Project.sameName files name with
    | some _ => files
    | none => Entries.put Project.sameName files name contents
  | .note _ | .assign .. | .default .. | .append .. | .include .. => files

/-- The edits of files that a function's own visit makes. -/
def Runtime.fileEdits (runtime : Runtime) (function : Node) : List Edit := [
  .provide ignoreFile runtime.ignored,
  .write (runtime.sourceFile (.atom function.id)) runtime.startingCode]

namespace Plan

variable {α β : Type}

/-- The edits of files in a plan. -/
def fileEdits (plan : Plan α) : List Edit :=
  plan.steps.filter Edit.isFile

theorem fileEdits_bind_ok {first : Plan α} {next : α → Plan β} {value : α}
    (ended : first.result = .ok value) :
    fileEdits (first >>= next) = fileEdits first ++ fileEdits (next value) := by
  unfold fileEdits
  rw [Trace.steps_bind_ok ended, List.filter_append]

theorem fileEdits_bind_nil {first : Plan α} {next : α → Plan β}
    (firstNone : fileEdits first = []) (nextNone : ∀ value, fileEdits (next value) = []) :
    fileEdits (first >>= next) = [] := by
  cases ended : first.result with
  | ok value => rw [fileEdits_bind_ok ended, firstNone, nextNone value, List.append_nil]
  | error fault => rw [fileEdits, Trace.steps_bind_error ended, ← fileEdits, firstNone]

/-- What is left when a plan was carried out with a result. -/
theorem made_of_carryOut {plan : Plan α} {project : Project} {value : α}
    (ended : (carryOut plan project).result = .ok value) :
    (project.editAll plan.steps).result = .ok () ∧
      (carryOut plan project).project = (project.editAll plan.steps).project := by
  unfold carryOut at ended ⊢
  cases made : (project.editAll plan.steps).result with
  | error fault => simp [made] at ended
  | ok => exact ⟨rfl, by simp [made]⟩

/-- A plan of inner edits edits no file. -/
theorem fileEdits_of_inner {plan : Plan α} (inner : Every Edit.IsInner plan) :
    fileEdits plan = [] :=
  List.filter_eq_nil_iff.2 fun edit member => by simp [(inner edit member).2]

end Plan

namespace Graph

open Plan

variable (graph : Graph)

theorem fileEdits_visitActions (node : Node) (stored : Bool) (actions targets : List Value) :
    fileEdits (graph.visitActions node stored actions targets) = [] := by
  have store : ∀ (again : Bool) (resource : Value),
      fileEdits (if again = true then Plan.putResource node.id resource else pure ()) = [] := by
    intro again resource
    cases again <;> rfl
  induction targets generalizing stored actions with
  | nil => rfl
  | cons target targets ih =>
      refine fileEdits_bind_nil rfl fun type => fileEdits_bind_nil rfl fun _ => ?_
      dsimp only
      split
      · exact fileEdits_bind_nil (store _ _) fun _ => ih _ _
      · split
        · exact fileEdits_bind_nil rfl fun roleId => fileEdits_bind_nil (store _ _) fun _ =>
            fileEdits_bind_nil rfl fun _ => ih _ _
        · rfl

/-- A visit of a node that is no function edits no file. -/
theorem fileEdits_visit (runtimeId : Value) (kind : Kind) (node : Node)
    (noFunction : kind ≠ .function) : fileEdits (graph.visit runtimeId kind node) = [] := by
  cases kind with
  | bucket | table | api | stream | schedule | topic | stepFunction => rfl
  | function => exact absurd rfl noFunction
  | deliveryStream =>
      refine fileEdits_bind_nil rfl fun bucket? => fileEdits_bind_nil rfl fun function? => ?_
      cases bucket? with
      | none => rfl
      | some bucket =>
          exact fileEdits_bind_nil rfl fun _ => fileEdits_bind_nil rfl fun _ =>
            fileEdits_bind_nil rfl fun _ => fileEdits_bind_nil rfl fun _ => rfl
  | analyticsStream =>
      exact fileEdits_bind_nil rfl fun _ => fileEdits_bind_nil rfl fun _ =>
        fileEdits_bind_nil rfl fun _ => fileEdits_bind_nil rfl fun _ =>
          fileEdits_bind_nil rfl fun _ => fileEdits_bind_nil rfl fun _ =>
            fileEdits_bind_nil rfl fun _ => fileEdits_bind_nil rfl fun _ => rfl
  | identityPool =>
      exact fileEdits_bind_nil rfl fun _ => fileEdits_bind_nil rfl fun _ =>
        fileEdits_bind_nil rfl fun _ => fileEdits_bind_nil rfl fun _ =>
          fileEdits_bind_nil (fileEdits_of_inner (graph.inner_statements _ _)) fun _ => rfl
  | topicRule => exact fileEdits_bind_nil rfl fun _ => graph.fileEdits_visitActions _ _ _ _

variable {runtimeId : Value} {runtime : Runtime}

/-- A visit of a function provides the ignore file and writes its source file. -/
theorem fileEdits_visitFunction (known : Runtime.ofId runtimeId = .ok runtime) (node : Node) :
    fileEdits (graph.visitFunction runtimeId node) = runtime.fileEdits node := by
  unfold Graph.visitFunction
  rw [known, fileEdits_bind_ok rfl, fileEdits_bind_ok rfl, fileEdits_bind_ok rfl,
    fileEdits_bind_ok rfl]
  rw [fileEdits_bind_nil (fileEdits_of_inner (graph.inner_visitSources node)) fun _ =>
    fileEdits_of_inner (graph.inner_visitTargets node)]
  rfl

theorem fileEdits_planNode (known : Runtime.ofId runtimeId = .ok runtime) {node : Node}
    (visited : (graph.planNode runtimeId node).result = .ok ()) :
    fileEdits (graph.planNode runtimeId node) =
      (functionsIn [node]).flatMap runtime.fileEdits := by
  obtain ⟨_, _, visited⟩ := Trace.result_bind_eq_ok.1 visited
  obtain ⟨kind, named, _⟩ := Trace.result_bind_eq_ok.1 visited
  have visit : fileEdits (graph.planNode runtimeId node) =
      fileEdits (graph.visit runtimeId kind node) := by
    unfold Graph.planNode
    rw [fileEdits_bind_ok rfl, fileEdits_bind_ok named]
    rfl
  have kindEq : node.kind? = some kind :=
    Node.kind?_eq_some_iff.2 (Kind.ofValue_eq_ok_iff.1 named)
  rw [visit, functionsIn, List.filter_singleton, kindEq]
  by_cases isFunction : kind = .function
  · subst isFunction
    simpa [Graph.visit] using graph.fileEdits_visitFunction known node
  · simpa [isFunction] using graph.fileEdits_visit runtimeId kind node isFunction

theorem fileEdits_planNodes (known : Runtime.ofId runtimeId = .ok runtime) {nodes : List Node}
    (visited : (graph.planNodes runtimeId nodes).result = .ok ()) :
    fileEdits (graph.planNodes runtimeId nodes) =
      (functionsIn nodes).flatMap runtime.fileEdits := by
  induction nodes with
  | nil => rfl
  | cons node nodes ih =>
      obtain ⟨_, first, rest⟩ := Trace.result_bind_eq_ok.1 visited
      have split : functionsIn (node :: nodes) = functionsIn [node] ++ functionsIn nodes :=
        List.filter_append [node] nodes
      unfold Graph.planNodes
      rw [fileEdits_bind_ok first, graph.fileEdits_planNode known first, ih rest, split,
        List.flatMap_append]

end Graph

namespace Project

variable {project after : Project}

theorem files_edit {edit : Edit} (edited : project.edit edit = .ok after) :
    after.files = edit.onFiles project.files := by
  have changing : ∀ {path : List Atom} {change : Value → Except Fault Value},
      project.changing path change = .ok after → after.files = project.files := by
    intro path change changed
    unfold Project.changing at changed
    cases made : Value.modifyAt change project.document path with
    | error fault => simp [made, bind, Except.bind] at changed
    | ok document =>
        simp only [made, bind, Except.bind, pure, Except.pure, Except.ok.injEq] at changed
        rw [← changed]
  cases edit with
  | note record | write name contents =>
      cases edited
      rfl
  | assign path key value | default path key value | append path item | «include» path item =>
      exact changing edited
  | provide name contents =>
      simp only [Project.edit] at edited
      simp only [Edit.onFiles]
      cases held : Entries.find? sameName project.files name <;> rw [held] at edited <;>
        cases edited <;> rfl

/-- Of edits that all succeed, those of files decide which files there are. -/
theorem files_editAll {edits : List Edit} (made : (project.editAll edits).result = .ok ()) :
    (project.editAll edits).project.files =
      (edits.filter Edit.isFile).foldl Edit.onFiles project.files := by
  induction edits generalizing project with
  | nil => rfl
  | cons edit edits ih =>
      cases edited : project.edit edit with
      | error fault => simp [editAll, edited] at made
      | ok next =>
          have rest : (next.editAll edits).result = .ok () := by simpa [editAll, edited] using made
          have left : (project.editAll (edit :: edits)).project = (next.editAll edits).project := by
            simp [editAll, edited]
          rw [left, ih rest, files_edit edited]
          cases edit <;> rfl

end Project

section Scaffold

variable {runtime : Runtime}

/-- Where the ignore file is there, each function sets its source file. -/
theorem foldl_fileEdits {files : Entries String String} (present : ignoreFile ∈ Entries.keys files)
    (functions : List Node) :
    (functions.flatMap runtime.fileEdits).foldl Edit.onFiles files =
      Entries.putAll Project.sameName files (functions.map fun node =>
        (runtime.sourceFile (.atom node.id), runtime.startingCode)) := by
  induction functions generalizing files with
  | nil => rfl
  | cons node functions ih =>
      obtain ⟨held, found⟩ :=
        (Entries.mem_keys_iff_find? (Entries.exact_name ignoreFile)).1 present
      have kept : ignoreFile ∈ Entries.keys (Entries.put Project.sameName files
          (runtime.sourceFile (.atom node.id)) runtime.startingCode) :=
        (Entries.mem_keys_put (Entries.exact_name _)).2 (.inr present)
      rw [List.flatMap_cons, List.foldl_append, List.map_cons, Entries.putAll_cons, ← ih kept]
      simp [Runtime.fileEdits, Edit.onFiles, found]

/-- From no files, functions lead to their scaffold. -/
theorem foldl_fileEdits_nil (functions : List Node) :
    (functions.flatMap runtime.fileEdits).foldl Edit.onFiles [] =
      Entries.ofPairs Project.sameName (scaffoldOf runtime functions) := by
  cases functions with
  | nil => rfl
  | cons node functions =>
      have first : ((node :: functions).flatMap runtime.fileEdits).foldl Edit.onFiles [] =
          ((node :: functions).flatMap runtime.fileEdits).foldl Edit.onFiles
            [(ignoreFile, runtime.ignored)] := rfl
      rw [first, foldl_fileEdits List.mem_cons_self]
      rfl

/-- The name of a file decides its text. -/
theorem scaffoldOf_unique (supported : runtime ∈ Runtime.all) {functions : List Node}
    {name first second : String} (one : (name, first) ∈ scaffoldOf runtime functions)
    (other : (name, second) ∈ scaffoldOf runtime functions) : first = second := by
  have apart := fun function => (Runtime.sourceFile_ne supported function).1
  rcases mem_scaffoldOf.1 one with ⟨_, oneEq⟩ | ⟨node, _, oneEq⟩ <;>
    rcases mem_scaffoldOf.1 other with ⟨_, otherEq⟩ | ⟨node', _, otherEq⟩ <;>
    cases oneEq <;> rw [Prod.mk.injEq] at otherEq
  · exact otherEq.2.symm
  · exact absurd otherEq.1.symm (apart _)
  · exact absurd otherEq.1 (apart _)
  · exact otherEq.2.symm

theorem mem_ofPairs_scaffoldOf (supported : runtime ∈ Runtime.all) {functions : List Node}
    {name text : String} :
    (name, text) ∈ Entries.ofPairs Project.sameName (scaffoldOf runtime functions) ↔
      (name, text) ∈ scaffoldOf runtime functions := by
  have exact : Entries.AllExact Project.sameName (scaffoldOf runtime functions) :=
    fun pair _ => Entries.exact_name pair.1
  constructor
  · exact Entries.mem_of_mem_ofPairs exact
  · intro member
    have key : name ∈ Entries.keys (Entries.ofPairs Project.sameName
        (scaffoldOf runtime functions)) := by
      rw [Entries.ofPairs_eq_putAll, Entries.mem_keys_putAll exact]
      exact .inr (List.mem_map_of_mem member)
    obtain ⟨held, there⟩ := Entries.mem_keys_iff.1 key
    exact scaffoldOf_unique supported (Entries.mem_of_mem_ofPairs exact there) member ▸ there

end Scaffold

namespace Graph

variable {graph : Graph} {order : Order}

/-- The files of a compiled graph are the scaffold of its functions. -/
theorem files_of_compile {project : Project}
    (compiled : (graph.compile order).result = .ok project) :
    ∃ runtime, Runtime.ofId order.runtime = .ok runtime ∧
      project.files =
        Entries.ofPairs Project.sameName (scaffoldOf runtime (functionsIn graph.nodeList)) := by
  unfold Graph.compile at compiled
  obtain ⟨_, ended, summed⟩ := Trace.result_bind_eq_ok.1 compiled
  obtain ⟨runtime, known, visited⟩ :=
    Trace.result_bind_eq_ok.1 (Plan.result_of_carryOut ended)
  obtain ⟨made, left⟩ := Plan.made_of_carryOut ended
  obtain ⟨_, _, summed⟩ := Trace.result_bind_eq_ok.1 summed
  obtain ⟨_, _, last⟩ := Trace.result_bind_eq_ok.1 summed
  rw [Trace.result_pure, Except.ok.injEq] at last
  have edits : Plan.fileEdits (graph.plan order.runtime) =
      (functionsIn graph.nodeList).flatMap runtime.fileEdits := by
    unfold Graph.plan
    rw [Plan.fileEdits_bind_ok known]
    exact graph.fileEdits_planNodes known visited
  refine ⟨runtime, known, ?_⟩
  rw [← last, left, Project.files_editAll made, ← foldl_fileEdits_nil, ← edits]
  rfl

/-- A graph is rendered to its scaffold and the descriptor. -/
theorem mem_render {files : Entries String String}
    (rendered : (graph.render order).result = .ok files) :
    ∃ runtime descriptor, Runtime.ofId order.runtime = .ok runtime ∧
      ∀ name text, (name, text) ∈ files ↔
        (name, text) ∈ scaffoldOf runtime (functionsIn graph.nodeList) ∨
          (name, text) = (descriptorFile, descriptor) := by
  obtain ⟨project, compiled, _⟩ := Trace.result_bind_eq_ok.1 rendered
  obtain ⟨runtime, known, filesEq⟩ := files_of_compile compiled
  have supported := Runtime.mem_all_of_ofId known
  have among : ∀ name text, (name, text) ∈ project.files ↔
      (name, text) ∈ scaffoldOf runtime (functionsIn graph.nodeList) := by
    intro name text
    rw [filesEq]
    exact mem_ofPairs_scaffoldOf supported
  have separate : descriptorFile ∉ Entries.keys project.files := by
    intro member
    obtain ⟨text, stored⟩ := Entries.mem_keys_iff.1 member
    rcases mem_scaffoldOf.1 ((among _ _).1 stored) with ⟨_, equal⟩ | ⟨node, _, equal⟩
    · revert equal
      simp [descriptorFile, ignoreFile]
    · exact (Runtime.sourceFile_ne supported _).2 (congrArg Prod.fst equal).symm
  rw [render_result compiled, render_of_separate separate] at rendered
  cases free : order.obstacle? with
  | some fault => simp [free] at rendered
  | none =>
      cases written : Yaml.descriptorText project.document with
      | error fault => simp [free, written, Except.map] at rendered
      | ok descriptor =>
          have filesEq : project.files ++ [(descriptorFile, descriptor)] = files := by
            simpa [free, written, Except.map] using rendered
          refine ⟨runtime, descriptor, known, fun name text => ?_⟩
          rw [← filesEq, List.mem_append, List.mem_singleton, among]

end Graph

end CloudGraph
