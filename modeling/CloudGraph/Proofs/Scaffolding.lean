import CloudGraph.Proofs.Operations

/-!
# What stands behind a function

Functions are defined by visits alone, and the other operations reach into definitions without
touching what stands behind them. In every state that a run of operations can reach, a function is
one of the graph, its handler is in a source file of the project, the ignore file is there with the
first function, and the plugin that reads statements is declared exactly when some function has
statements: `Graph.performAll_scaffolded`.

A visit that fails leaves a definition without statements, also where there were some before. That
the plugin is not left behind rests on the graph, which does not change: visits of one node all
leave the same statements.
-/

namespace CloudGraph

open Relation (ReflTransGen)

namespace Draft

variable {draft : Draft} {name contents : String}

/-- A file that is there stays as it is when another is provided. -/
theorem find?_providing {other held : String}
    (found : Entries.find? Project.sameName draft.files other = some held) :
    Entries.find? Project.sameName (draft.providing name contents).files other = some held := by
  unfold providing
  split
  · exact found
  next missing =>
    have different : other ≠ name := by
      rintro rfl
      rw [found] at missing
      cases missing
    exact (Entries.find?_put_other (Entries.exact_name _) (Entries.exact_name _) different).trans
      found

theorem mem_keys_providing (draft : Draft) (name contents : String) :
    name ∈ Entries.keys (draft.providing name contents).files := by
  rw [Entries.mem_keys_iff_find? (Entries.exact_name name)]
  unfold providing
  split
  next held found => exact ⟨held, found⟩
  · exact ⟨contents, Entries.find?_put_self (Entries.exact_name name)⟩

theorem item_plugins (draft : Draft) : draft.project.document.item (.text "plugins") =
    match draft.plugins? with
    | some plugins => .ok (.list plugins)
    | none => .error (.missingKey (.text "plugins")) := by
  cases plugins : draft.plugins? <;> simp only [project, fields, plugins] <;> rfl

end Draft

namespace Graph

variable (graph : Graph)

theorem item_handler (runtime : Runtime) {node : Node} {name : String}
    (idEq : node.id = .text name) : (graph.leftDefinition runtime node).item (.text "handler") =
      .ok (.text (name ++ "." ++ runtime.handler)) := by
  have written : runtime.handlerRef (.text name) = name ++ "." ++ runtime.handler := rfl
  simp [leftDefinition, ownFields, Value.record, Value.item, Value.content, Entries.find?_cons,
    idEq, written]

/-- The statements that a visit leaves are in the definition, if there are any. -/
theorem item_statements (runtime : Runtime) (node : Node) :
    (graph.leftDefinition runtime node).item (.text "iamRoleStatements") =
      if (graph.attached node).isEmpty then .error (.missingKey (.text "iamRoleStatements"))
      else .ok (.list (graph.attached node)) := by
  have absent := (Entries.find?_eq_none_iff (Entries.exact_text "iamRoleStatements")).2
    (graph.statements_not_mem_firedFields runtime node)
  unfold leftDefinition
  rw [record_eq, recordEntries_append]
  simp only [Value.item, Value.content, Entries.find?_append, absent, Option.none_or]
  cases (graph.attached node).isEmpty <;> rfl

/-- A definition is that of a function, as a visit of it has left it or with other triggers, and
the source file that its handler is in is there. -/
structure Backs (runtimeId : Value) (files : Entries String String) (node : Node)
    (definition : Value) : Prop where
  isFunction : node.IsOf .function
  behind : ∃ runtime name, Runtime.ofId runtimeId = .ok runtime ∧ node.id = .text name ∧
    definition.item (.text "handler") = .ok (.text (name ++ "." ++ runtime.handler)) ∧
    Entries.find? Project.sameName files (name ++ "." ++ runtime.ending) =
      some runtime.startingCode
  statements : definition.item (.text "iamRoleStatements") =
    if (graph.attached node).isEmpty then .error (.missingKey (.text "iamRoleStatements"))
    else .ok (.list (graph.attached node))

/-- Some of the functions are left with statements by their visits. -/
def Granting (functions : Entries Atom Value) : Prop :=
  ∃ node ∈ graph.nodeList, node.id ∈ Entries.keys functions ∧ graph.attached node ≠ []

/-- What holds of the functions, the files and the plugins in every state. -/
structure Sound (runtimeId : Value) (draft : Draft) : Prop where
  distinct : (Entries.keys draft.functions).Nodup
  backed : ∀ entry ∈ draft.functions, ∃ node ∈ graph.nodeList, node.id = entry.1 ∧
    graph.Backs runtimeId draft.files node entry.2
  ignored : ignoreFile ∈ Entries.keys draft.files ↔ Entries.keys draft.functions ≠ []
  plugged : graph.Granting draft.functions → draft.plugins? = some [.text rolesPlugin]
  unplugged : ¬graph.Granting draft.functions → draft.plugins? = none

variable {graph} {runtimeId : Value} {draft after : Draft}

theorem sound_empty (service provider : Value) :
    graph.Sound runtimeId (Draft.empty service runtimeId provider) where
  distinct := List.nodup_nil
  backed := by simp [Draft.empty]
  ignored := by simp [Draft.empty, Entries.keys]
  plugged := by simp [Draft.empty, Granting, Entries.keys]
  unplugged := fun _ => rfl

/-- One function more is the only one that can be granting besides those that are. -/
theorem Keyed.granting_put (keyed : graph.Keyed) {node : Node} (member : node ∈ graph.nodeList)
    {functions : Entries Atom Value} {definition : Value} :
    graph.Granting (Entries.put Atom.same functions node.id definition) ↔
      graph.attached node ≠ [] ∨ graph.Granting functions := by
  obtain ⟨id, idEq⟩ := keyed.ids node member
  have exact : Entries.Exact Atom.same node.id := idEq ▸ Entries.exact_text id
  constructor
  · rintro ⟨other, otherMember, key, attached⟩
    rcases (Entries.mem_keys_put exact).1 key with sameId | old
    · exact .inl (keyed.eq_of_id member otherMember sameId ▸ attached)
    · exact .inr ⟨other, otherMember, old, attached⟩
  · rintro (attached | ⟨other, otherMember, old, attached⟩)
    · exact ⟨node, member, (Entries.mem_keys_put exact).2 (.inl rfl), attached⟩
    · exact ⟨other, otherMember, (Entries.mem_keys_put exact).2 (.inr old), attached⟩

namespace Sound

variable (sound : graph.Sound runtimeId draft)

include sound

/-- Other resources change nothing about it. -/
theorem with_resources (resources : Entries Atom Value) :
    graph.Sound runtimeId { draft with resources := resources } :=
  ⟨sound.distinct, sound.backed, sound.ignored, sound.plugged, sound.unplugged⟩

/-- Neither do other triggers in a definition. -/
theorem with_events {id : String} {definition changed : Value}
    (found : Entries.find? Atom.same draft.functions (.text id) = some definition)
    (same : ∀ name, name ≠ "events" → changed.item (.text name) = definition.item (.text name)) :
    graph.Sound runtimeId (draft.withFunction (.text id) changed) := by
  have exact := Entries.exact_text id
  have held := Entries.mem_of_find? exact found
  have keys : Entries.keys (draft.withFunction (.text id) changed).functions =
      Entries.keys draft.functions := by
    rw [Draft.withFunction, Entries.keys_put exact, if_pos (Entries.mem_keys_iff.2 ⟨_, held⟩)]
  have granting : graph.Granting (draft.withFunction (.text id) changed).functions ↔
      graph.Granting draft.functions := by
    rw [Granting, Granting, keys]
  constructor
  case distinct => exact keys ▸ sound.distinct
  case backed =>
    intro entry member
    rcases Entries.mem_put exact member with rfl | old
    · obtain ⟨node, nodeMember, idEq, backs⟩ := sound.backed _ held
      obtain ⟨runtime, name, known, named, handler, source⟩ := backs.behind
      refine ⟨node, nodeMember, idEq, backs.isFunction,
        ⟨runtime, name, known, named, ?_, source⟩, ?_⟩
      · rw [same _ (by decide), handler]
      · rw [same _ (by decide), backs.statements]
    · exact sound.backed entry old
  case ignored =>
    rw [keys]
    exact sound.ignored
  case plugged => exact fun some => sound.plugged (granting.1 some)
  case unplugged => exact fun none => sound.unplugged fun some => none (granting.2 some)

/-- A visit of a function puts its definition in the place of any other, and its files and the
plugin beside those that are there. -/
theorem entering (keyed : graph.Keyed) {runtime : Runtime}
    (known : Runtime.ofId runtimeId = .ok runtime) {node : Node} (member : node ∈ graph.nodeList)
    (isFunction : node.IsOf .function) :
    graph.Sound runtimeId (graph.entering runtime node draft) := by
  obtain ⟨id, idEq⟩ := keyed.ids node member
  have exact : Entries.Exact Atom.same node.id := idEq ▸ Entries.exact_text id
  have fileEq : runtime.sourceFile (.atom node.id) = id ++ "." ++ runtime.ending := by
    rw [idEq]
    rfl
  have source : Entries.find? Project.sameName (graph.entering runtime node draft).files
      (id ++ "." ++ runtime.ending) = some runtime.startingCode := by
    rw [entering_eq, ← fileEq]
    exact Entries.find?_put_self (Entries.exact_name _)
  have granting : graph.Granting (graph.entering runtime node draft).functions ↔
      graph.attached node ≠ [] ∨ graph.Granting draft.functions := by
    rw [entering_eq]
    exact keyed.granting_put member
  constructor
  case distinct =>
    rw [entering_eq]
    exact Entries.nodup_keys_put exact sound.distinct
  case backed =>
    intro entry entered
    rw [entering_eq] at entered
    rcases Entries.mem_put exact entered with rfl | old
    · exact ⟨node, member, rfl, isFunction,
        ⟨runtime, id, known, idEq, item_handler _ _ idEq, source⟩, item_statements _ _ _⟩
    · obtain ⟨other, otherMember, otherId, backs⟩ := sound.backed entry old
      obtain ⟨_, name, again, named, handler, found⟩ := backs.behind
      obtain rfl := Except.ok.inj (known.symm.trans again)
      refine ⟨other, otherMember, otherId, backs.isFunction,
        ⟨runtime, name, known, named, handler, ?_⟩, backs.statements⟩
      by_cases sameFile : name ++ "." ++ runtime.ending = id ++ "." ++ runtime.ending
      · rw [sameFile, source]
      · rw [entering_eq, fileEq]
        exact (Entries.find?_put_other (Entries.exact_name _) (Entries.exact_name _) sameFile).trans
          (Draft.find?_providing found)
  case ignored =>
    rw [entering_eq]
    refine iff_of_true ?_ ?_
    · exact (Entries.mem_keys_put (Entries.exact_name _)).2 (.inr (Draft.mem_keys_providing ..))
    · exact List.ne_nil_of_mem ((Entries.mem_keys_put exact).2 (.inl rfl))
  case plugged =>
    intro some
    rw [granting] at some
    rw [entering_eq]
    have one : Draft.pluginsWithRoles (draft.plugins?.getD []) = [.text rolesPlugin] := by
      by_cases old : graph.Granting draft.functions
      · rw [sound.plugged old]
        rfl
      · rw [sound.unplugged old]
        rfl
    by_cases none : graph.attached node = []
    · simpa [none] using sound.plugged (some.resolve_left (not_not_intro none))
    · simp [none, one]
  case unplugged =>
    intro none
    rw [granting, not_or, not_not] at none
    rw [entering_eq]
    simpa [none.1] using sound.unplugged none.2

/-- Every step keeps it. -/
theorem step (keyed : graph.Keyed) (moved : graph.Step runtimeId draft after) :
    graph.Sound runtimeId after := by
  rcases moved with ⟨node, member, rfl⟩ | rewired
  · unfold entered
    split
    · exact sound
    next isFunction =>
      split
      · exact sound
      next runtime known =>
        exact sound.entering keyed known member (Node.kind?_eq_some_iff.1 isFunction)
    · exact sound.with_resources _
  · cases rewired with
    | events found same => exact sound.with_events found same
    | resources resources => exact sound.with_resources resources

end Sound

/-- Every function of a project is one of the graph, and what belongs to it is there. -/
structure Scaffolded (graph : Graph) (runtimeId : Value) (project : Project)
    (functions : Entries Atom Value) : Prop where
  listed : project.functions = .ok (.map functions)
  distinct : (Entries.keys functions).Nodup
  /-- The handler of a function is in its source file, which has the starting code. -/
  backed : ∀ id definition, (id, definition) ∈ functions →
    ∃ node ∈ graph.nodeList, node.id = id ∧ node.IsOf .function ∧
      ∃ runtime name, Runtime.ofId runtimeId = .ok runtime ∧ node.id = .text name ∧
        definition.item (.text "handler") = .ok (.text (name ++ "." ++ runtime.handler)) ∧
        Entries.find? Project.sameName project.files (name ++ "." ++ runtime.ending) =
          some runtime.startingCode
  ignored : ".gitignore" ∈ Entries.keys project.files ↔ functions ≠ []
  plugged : (∃ plugins, project.document.item (.text "plugins") = .ok plugins) ↔
    ∃ id definition statements, (id, definition) ∈ functions ∧
      definition.item (.text "iamRoleStatements") = .ok statements
  onePlugin : ∀ plugins, project.document.item (.text "plugins") = .ok plugins →
    plugins = .list [.text "serverless-iam-roles-per-function"]
  granting : ∀ id definition statements, (id, definition) ∈ functions →
    definition.item (.text "iamRoleStatements") = .ok statements →
      ∃ first rest, statements = .list (first :: rest)

/-- A node that is left with statements is there when a definition has some, and only then. -/
theorem Sound.granting_iff (sound : graph.Sound runtimeId draft) (keyed : graph.Keyed) :
    graph.Granting draft.functions ↔ ∃ id definition statements,
      (id, definition) ∈ draft.functions ∧
        definition.item (.text "iamRoleStatements") = .ok statements := by
  constructor
  · rintro ⟨node, member, key, attached⟩
    obtain ⟨definition, entry⟩ := Entries.mem_keys_iff.1 key
    obtain ⟨other, otherMember, sameId, backs⟩ := sound.backed _ entry
    obtain rfl := keyed.eq_of_id otherMember member sameId.symm
    refine ⟨node.id, definition, .list (graph.attached node), entry, ?_⟩
    simpa [attached] using backs.statements
  · rintro ⟨id, definition, statements, entry, held⟩
    obtain ⟨node, member, rfl, backs⟩ := sound.backed _ entry
    refine ⟨node, member, Entries.mem_keys_iff.2 ⟨definition, entry⟩, fun none => ?_⟩
    rw [backs.statements, none] at held
    cases held

/-- What is sound is scaffolded. -/
theorem Sound.scaffolded (sound : graph.Sound runtimeId draft) (keyed : graph.Keyed) :
    graph.Scaffolded runtimeId draft.project draft.functions where
  listed := draft.functions_project
  distinct := sound.distinct
  backed := by
    intro id definition member
    obtain ⟨node, nodeMember, rfl, backs⟩ := sound.backed _ member
    exact ⟨node, nodeMember, rfl, backs.isFunction, backs.behind⟩
  ignored := sound.ignored.trans (by simp [Entries.keys])
  plugged := by
    rw [← sound.granting_iff keyed, draft.item_plugins]
    by_cases granting : graph.Granting draft.functions
    · simp [sound.plugged granting, granting]
    · simp [sound.unplugged granting, granting]
  onePlugin := by
    intro plugins held
    rw [draft.item_plugins] at held
    by_cases granting : graph.Granting draft.functions
    · rw [sound.plugged granting] at held
      exact (Except.ok.inj held).symm
    · rw [sound.unplugged granting] at held
      cases held
  granting := by
    intro id definition statements member held
    obtain ⟨node, nodeMember, rfl, backs⟩ := sound.backed _ member
    rw [backs.statements] at held
    cases attached : graph.attached node with
    | nil => simp [attached] at held
    | cons first rest => exact ⟨first, rest, by simpa [attached] using held.symm⟩

/-- In every state that operations can reach from an empty project, whether they fail or not, every
function is one of the graph, its handler and its source file are there, the ignore file is there
with the first function, and the plugin that reads statements is declared exactly when a function
has some. -/
theorem performAll_scaffolded {value : Value} (loaded : Graph.ofValue value = .ok graph)
    (ids : ∀ node ∈ graph.nodeList, ∃ id, node.id = .text id)
    (service runtimeId provider : Value) (operations : List Operation) :
    ∃ functions, graph.Scaffolded runtimeId
      (graph.performAll runtimeId (Project.create service runtimeId provider) operations)
      functions := by
  have keyed := keyed_of_ofValue loaded ids
  obtain ⟨draft, reached, left⟩ := keyed.performAll_steps operations
    (Draft.empty service runtimeId provider)
  have sound : graph.Sound runtimeId draft := by
    clear left
    induction reached with
    | refl => exact sound_empty service provider
    | tail _ moved ih => exact ih.step keyed moved
  have created : Project.create service runtimeId provider =
      (Draft.empty service runtimeId provider).project := rfl
  rw [created, left]
  exact ⟨draft.functions, sound.scaffolded keyed⟩

/-- The function that makes thumbnails is visited, set off once more by hand and visited again,
among operations on a node that is not there. -/
theorem thumbnails_scaffolded :
    let project := thumbnails.performAll (.text "python3.7")
      (Project.create (.text "pictures") (.text "python3.7") (.text "aws"))
      [.visit (.text "resize"), .visit (.text "lost"), .wire (.text "resize") (.text "photos"),
        .wire (.text "lost") (.text "photos"), .statements (.text "resize") [.text "index"],
        .visit (.text "resize")]
    (∃ functions, thumbnails.Scaffolded (.text "python3.7") project functions) ∧
      project.document.itemAt [.text "functions", .text "resize", .text "handler"] =
        .ok (.text "resize.handler") ∧
      project.files =
        [(".gitignore", Runtime.pythonIgnored), ("resize.py", Runtime.pythonCode)] ∧
      project.document.itemAt [.text "plugins"] =
        .ok (.list [.text "serverless-iam-roles-per-function"]) :=
  ⟨performAll_scaffolded thumbnails_loaded thumbnails_textual.ids _ _ _ _, rfl, rfl, rfl⟩

end Graph

end CloudGraph
