import CloudGraph.Build.Compile
import CloudGraph.Proofs.Carrying
import CloudGraph.Proofs.Entries

/-!
# Drafts

A draft holds what a project under construction is made of: the functions, the
resources, the plugins and the files. `Draft.project` is the project of a draft, and the
lemmas on edits say which draft each edit of a plan leads to. A plan that only stores
resources is summed up by `Plan.Adds`, and `Plan.Adds.ends` says what it leads to.
-/

namespace CloudGraph

/-- What a project is made of. -/
structure Draft where
  service : Value
  runtime : Value
  provider : Value
  functions : Entries Atom Value
  resources : Entries Atom Value
  /-- The plugins, once there are any. -/
  plugins? : Option (List Value)
  files : Entries String String

namespace Draft

/-- The draft of an empty project. -/
def empty (service runtime provider : Value) : Draft where
  service := service
  runtime := runtime
  provider := provider
  functions := []
  resources := []
  plugins? := none
  files := []

/-- The fields of the document of a draft. -/
def fields (draft : Draft) : List (String × Value) :=
  [("service", draft.service),
    ("provider", .record [("name", draft.provider), ("runtime", draft.runtime)]),
    ("functions", .map draft.functions),
    ("resources", .record [("Resources", .map draft.resources), ("Outputs", .map [])])] ++
  (draft.plugins?.map fun plugins => ("plugins", Value.list plugins)).toList

/-- The project of a draft. -/
def project (draft : Draft) : Project where
  document := .record draft.fields
  files := draft.files

theorem functions_project (draft : Draft) : draft.project.functions = .ok (.map draft.functions) :=
  rfl

theorem resources_project (draft : Draft) : draft.project.resources = .ok (.map draft.resources) :=
  rfl

theorem plugins_project (draft : Draft) :
    draft.project.document.field? "plugins" = draft.plugins?.map Value.list := by
  cases plugins : draft.plugins? <;> simp only [project, fields, plugins] <;> rfl

/-- The draft with a function. -/
def withFunction (draft : Draft) (id : Atom) (definition : Value) : Draft :=
  { draft with functions := Entries.put Atom.same draft.functions id definition }

/-- The draft with some resources stored in turn. -/
def storing (draft : Draft) (resources : List (Atom × Value)) : Draft :=
  { draft with resources := Entries.putAll Atom.same draft.resources resources }

/-- The draft with a file in any case. -/
def withFile (draft : Draft) (name contents : String) : Draft :=
  { draft with files := Entries.put Project.sameName draft.files name contents }

/-- The draft with a file, which stays as it is if it is there. -/
def providing (draft : Draft) (name contents : String) : Draft :=
  match Entries.find? Project.sameName draft.files name with
  | some _ => draft
  | none => draft.withFile name contents

theorem providing_of_present {draft : Draft} {name contents held : String}
    (present : Entries.find? Project.sameName draft.files name = some held) :
    draft.providing name contents = draft := by
  simp [providing, present]

theorem providing_of_missing {draft : Draft} {name contents : String}
    (missing : Entries.find? Project.sameName draft.files name = none) :
    draft.providing name contents = draft.withFile name contents := by
  simp [providing, missing]

/-- Providing a file changes the files alone. -/
theorem providing_eq (draft : Draft) (name contents : String) :
    draft.providing name contents =
      { draft with files := (draft.providing name contents).files } := by
  unfold providing
  split <;> rfl

/-- Whether a plugin is the one that reads statements. -/
def isRoles (plugin : Value) : Bool :=
  match plugin with
  | .atom (.text other) => other == rolesPlugin
  | _ => false

/-- Some plugins with the one that reads statements, which is in them once. -/
def pluginsWithRoles (plugins : List Value) : List Value :=
  if plugins.any isRoles then plugins else plugins ++ [.text rolesPlugin]

/-- The draft with the plugin that reads statements. -/
def plugged (draft : Draft) : Draft :=
  { draft with plugins? := some (pluginsWithRoles (draft.plugins?.getD [])) }

@[simp]
theorem storing_nil (draft : Draft) : draft.storing [] = draft := rfl

variable (draft : Draft)

theorem edit_putFunction (id : Atom) (definition : Value) :
    draft.project.edit (.assign Project.functionsPath id definition) =
      .ok (draft.withFunction id definition).project := rfl

theorem edit_write (name contents : String) :
    draft.project.edit (.write name contents) = .ok (draft.withFile name contents).project := rfl

theorem edit_provide (name contents : String) :
    draft.project.edit (.provide name contents) = .ok (draft.providing name contents).project := by
  simp only [Project.edit, project, providing]
  cases Entries.find? Project.sameName draft.files name <;> rfl

/-- The plugins are there after a default is given for them. -/
theorem edit_defaultPlugins :
    draft.project.edit (.default [] (.text "plugins") (.list [])) =
      .ok { draft with plugins? := some (draft.plugins?.getD []) }.project := by
  cases plugins : draft.plugins? with
  | none => simp only [project, fields, plugins]; rfl
  | some items => simp only [project, fields, plugins]; rfl

omit draft in
theorem holdsText_roles (plugins : List Value) :
    (Value.list plugins).holdsText rolesPlugin = .ok (plugins.any isRoles) := rfl

omit draft in
theorem including_roles (plugins : List Value) :
    (Value.list plugins).including rolesPlugin = .ok (.list (pluginsWithRoles plugins)) := by
  unfold Value.including pluginsWithRoles
  rw [holdsText_roles]
  cases plugins.any isRoles <;> rfl

theorem edit_includePlugin {plugins : List Value} (present : draft.plugins? = some plugins) :
    draft.project.edit (.include [.text "plugins"] rolesPlugin) = .ok draft.plugged.project := by
  have part : draft.project.document.item (.text "plugins") = .ok (.list plugins) := by
    simp only [project, fields, present]
    rfl
  have changed : draft.project.document.withItem (.text "plugins")
      (.list (pluginsWithRoles plugins)) = .ok draft.plugged.project.document := by
    simp only [project, fields, plugged, present]
    rfl
  simp only [Project.edit, Project.changing, Value.modifyAt, part, including_roles, changed, bind,
    Except.bind]
  rfl

variable {draft}

theorem withFunction_again {id : String} {first second : Value} :
    (draft.withFunction (.text id) first).withFunction (.text id) second =
      draft.withFunction (.text id) second := by
  simp [withFunction, Entries.put_put (Entries.exact_text id)]

theorem find?_withFunction {id : String} {definition : Value} :
    Entries.find? Atom.same (draft.withFunction (.text id) definition).functions (.text id) =
      some definition :=
  Entries.find?_put_self (Entries.exact_text id)

/-- A change inside the definition of a function leaves everything else as it is. -/
theorem changing_function {id : Atom} {path : List Atom} {change : Value → Except Fault Value}
    {definition changed : Value}
    (found : Entries.find? Atom.same draft.functions id = some definition)
    (change_eq : Value.modifyAt change definition path = .ok changed) :
    draft.project.changing (Project.functionsPath ++ id :: path) change =
      .ok (draft.withFunction id changed).project := by
  have item : (Value.map draft.functions).item id = .ok definition := by
    simp [Value.item, Value.content, found]
  have inner : Value.modifyAt change (.map draft.functions) (id :: path) =
      .ok (.map (Entries.put Atom.same draft.functions id changed)) := by
    simp [Value.modifyAt, item, change_eq, Value.withItem, Value.content, bind, Except.bind]
  have outer : Value.modifyAt change draft.project.document
      (.text "functions" :: id :: path) = .ok (draft.withFunction id changed).project.document := by
    rw [Value.modifyAt]
    have whole : draft.project.document.item (.text "functions") = .ok (.map draft.functions) := rfl
    simp only [whole, inner, bind, Except.bind]
    rfl
  unfold Project.changing
  simp only [Project.functionsPath, List.cons_append, List.nil_append, outer, bind, Except.bind]
  rfl

/-- A change inside a definition that was given before leads to the changed definition. -/
theorem changing_definition {id : String} {path : List Atom}
    {change : Value → Except Fault Value} {definition changed : Value}
    (change_eq : Value.modifyAt change definition path = .ok changed) :
    (draft.withFunction (.text id) definition).project.changing
        (Project.functionsPath ++ .text id :: path) change =
      .ok (draft.withFunction (.text id) changed).project := by
  rw [changing_function find?_withFunction change_eq, withFunction_again]

end Draft

/-- The resource that an edit stores. -/
def Edit.resource? : Edit → Option (Atom × Value)
  | .assign path key value => if path = Project.resourcesPath then some (key, value) else none
  | _ => none

/-- Whether an edit stores a resource or leaves a record, and does nothing else. -/
def Edit.IsStore : Edit → Prop
  | .note _ => True
  | .assign path _ _ => path = Project.resourcesPath
  | _ => False

namespace Plan

variable {α β : Type}

/-- The resources that a plan stores, in order. -/
def stored (plan : Plan α) : List (Atom × Value) :=
  plan.steps.filterMap Edit.resource?

/-- A plan that only stores resources: which ones, and how it ends by itself. -/
structure Adds (plan : Plan α) (resources : List (Atom × Value)) (result : Except Fault α) :
    Prop where
  only : ∀ edit ∈ plan.steps, edit.IsStore
  stored : stored plan = resources
  result : plan.result = result

namespace Adds

theorem pure {value : α} : Adds (Pure.pure value) [] (.ok value) :=
  ⟨by simp, rfl, rfl⟩

theorem lift {result : Except Fault α} : Adds (liftM result) [] result :=
  ⟨by simp, rfl, rfl⟩

theorem fail {fault : Fault} : Adds (Trace.fail fault : Plan α) [] (.error fault) :=
  ⟨by simp [Trace.fail], rfl, rfl⟩

theorem note {level : Level} {source : Source} {message : String} :
    Adds (Plan.note level source message) [] (.ok ()) :=
  ⟨by simp [Plan.note, Trace.step, Edit.IsStore], rfl, rfl⟩

theorem put {id : Atom} {resource : Value} :
    Adds (putResource id resource) [(id, resource)] (.ok ()) :=
  ⟨by simp [putResource, Trace.step, Edit.IsStore], by
    simp [Plan.stored, putResource, Trace.step, Edit.resource?], rfl⟩

theorem bind {first : Plan α} {next : α → Plan β} {value : α} {result : Except Fault β}
    {earlier later : List (Atom × Value)} (firstAdds : Adds first earlier (.ok value))
    (nextAdds : Adds (next value) later result) :
    Adds (first >>= next) (earlier ++ later) result where
  only := by
    rw [Trace.steps_bind_ok firstAdds.result]
    intro edit member
    rcases List.mem_append.1 member with old | new
    · exact firstAdds.only edit old
    · exact nextAdds.only edit new
  stored := by
    unfold Plan.stored
    rw [Trace.steps_bind_ok firstAdds.result, List.filterMap_append]
    exact congrArg₂ (· ++ ·) firstAdds.stored nextAdds.stored
  result := by
    rw [Trace.result_bind, firstAdds.result]
    exact nextAdds.result

/-- Looking something up that is there adds nothing. -/
theorem after_lift {value : α} {next : α → Plan β} {resources : List (Atom × Value)}
    {result : Except Fault β} (adds : Adds (next value) resources result) :
    Adds (liftM (Except.ok value : Except Fault α) >>= next) resources result :=
  bind lift adds

theorem after_note {level : Level} {source : Source} {message : String} {next : Unit → Plan β}
    {resources : List (Atom × Value)} {result : Except Fault β}
    (adds : Adds (next ()) resources result) :
    Adds (Plan.note level source message >>= next) resources result :=
  bind note adds

theorem after_put {id : Atom} {resource : Value} {next : Unit → Plan β}
    {resources : List (Atom × Value)} {result : Except Fault β}
    (adds : Adds (next ()) resources result) :
    Adds (putResource id resource >>= next) ((id, resource) :: resources) result :=
  bind put adds

theorem bind_fault {first : Plan α} {next : α → Plan β} {fault : Fault}
    {resources : List (Atom × Value)} (firstAdds : Adds first resources (.error fault)) :
    Adds (first >>= next) resources (.error fault) where
  only := by
    rw [Trace.steps_bind_error firstAdds.result]
    exact firstAdds.only
  stored := by
    unfold Plan.stored
    rw [Trace.steps_bind_error firstAdds.result]
    exact firstAdds.stored
  result := Trace.result_bind_error firstAdds.result

end Adds

/-- Edits that only store resources all succeed, and the resources are there afterwards. -/
theorem editAll_of_stores (edits : List Edit) (draft : Draft)
    (only : ∀ edit ∈ edits, edit.IsStore) :
    (draft.project.editAll edits).result = .ok () ∧
      (draft.project.editAll edits).project =
        (draft.storing (edits.filterMap Edit.resource?)).project := by
  induction edits generalizing draft with
  | nil => exact ⟨rfl, rfl⟩
  | cons edit edits ih =>
      have store := only edit List.mem_cons_self
      have ih := fun next => ih next fun edit member => only edit (List.mem_cons_of_mem _ member)
      cases edit with
      | note record => exact ih draft
      | assign path key value =>
          obtain rfl : path = Project.resourcesPath := store
          have shown : Edit.resource? (.assign Project.resourcesPath key value) =
              some (key, value) :=
            by simp [Edit.resource?]
          rw [List.filterMap_cons_some shown]
          exact ih (draft.storing [(key, value)])
      | default | append | «include» | write | provide => exact store.elim

/-- Every edit of a plan that only stores resources succeeds. -/
theorem Adds.ends {plan : Plan α} {resources : List (Atom × Value)} {result : Except Fault α}
    (adds : Adds plan resources result) (draft : Draft) :
    Ends plan draft.project result (draft.storing resources).project := by
  obtain ⟨made, project⟩ := editAll_of_stores plan.steps draft adds.only
  exact ⟨made, project.trans (congrArg (fun resources => (draft.storing resources).project)
    adds.stored), adds.result⟩

end Plan

end CloudGraph
