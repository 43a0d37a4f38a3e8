import CloudGraph.Proofs.Sharing

/-!
# What a compilation shares

The edits that a compilation is made of change no collection that is a shared part or inside of one:
`Edit.Builds.step`. They reach into functions alone, whose fields are their own, and into the
mappings that the document starts with. `Graph.Proper.plan_assembles` adds which parts they bring.
-/

namespace CloudGraph

open Yaml (uses)

/-- Whether a value is no shared part. -/
def Value.Unshared (value : Value) : Prop :=
  ∀ part, value ≠ .shared part

theorem Value.find?_of_item {entries : List (Atom × Value)} {key : Atom} {part : Value}
    (found : (Value.map entries).item key = .ok part) :
    Entries.find? Atom.same entries key = some part := by
  unfold Value.item at found
  simp only [Value.content] at found
  split at found
  next held looked => exact looked.trans (congrArg some (Except.ok.inj found))
  next => cases found

/-- The edits that a compilation is made of. Only functions are changed once they are there, and
only in a field or in the list of their triggers. -/
inductive Edit.Builds : Edit → Prop where
  | note {record} : Builds (.note record)
  | write {name contents} : Builds (.write name contents)
  | provide {name contents} : Builds (.provide name contents)
  | define {id fields} (unshared : ∀ field ∈ fields, field.2.Unshared) :
      Builds (.assign Project.functionsPath id (.map fields))
  | setField {id name items} :
      Builds (.assign (Project.functionsPath ++ [id]) (.text name) (.list items))
  | defaultEvents {id} :
      Builds (.default (Project.functionsPath ++ [id]) (.text "events") (.list []))
  | addEvent {id event} : Builds (.append (Project.functionsPath ++ [id] ++ [.text "events"]) event)
  | store {id resource} : Builds (.assign Project.resourcesPath id resource)
  | defaultPlugins : Builds (.default [] (.text "plugins") (.list []))
  | addPlugin : Builds (.include [.text "plugins"] rolesPlugin)

namespace Draft

/-- Every function is a mapping with fields of its own. -/
def Solid (draft : Draft) : Prop :=
  ∀ entry ∈ draft.functions, ∃ fields, entry.2 = .map fields ∧ ∀ field ∈ fields, field.2.Unshared

variable {draft : Draft} {after : Project} {id : Atom}

theorem Solid.withFunction {fields : List (Atom × Value)} (solid : draft.Solid)
    (unshared : ∀ field ∈ fields, field.2.Unshared) :
    (draft.withFunction id (.map fields)).Solid := by
  have own : ∃ held, Value.map fields = .map held ∧ ∀ field ∈ held, field.2.Unshared :=
    ⟨fields, rfl, unshared⟩
  exact Entries.forall_mem_put solid own fun _ _ _ => own

theorem opens_functions : draft.project.document.Opens Project.functionsPath (.map draft.functions) :=
  .entry rfl .here

theorem opens_resources : draft.project.document.Opens Project.resourcesPath (.map draft.resources) :=
  .entry rfl (.entry rfl .here)

/-- A change inside a function that succeeds has found its definition. -/
theorem exists_of_changing (path : List Atom) {change : Value → Except Fault Value}
    (solid : draft.Solid)
    (edited : draft.project.changing (Project.functionsPath ++ id :: path) change = .ok after) :
    ∃ fields definition, Entries.find? Atom.same draft.functions id = some (.map fields) ∧
      (∀ field ∈ fields, field.2.Unshared) ∧
      Value.modifyAt change (.map fields) path = .ok definition ∧
      after = (draft.withFunction id definition).project := by
  obtain ⟨document, modified, -⟩ := Project.changing_eq_ok.1 edited
  obtain ⟨functions, _, foundFunctions, inner, -⟩ := Value.modifyAt_cons_eq_ok.1 modified
  have whole : draft.project.document.item (.text "functions") = .ok (.map draft.functions) := rfl
  obtain rfl := Except.ok.inj (whole.symm.trans foundFunctions)
  obtain ⟨definition, changed, foundItem, made, -⟩ := Value.modifyAt_cons_eq_ok.1 inner
  have found := Value.find?_of_item foundItem
  obtain ⟨entry, listed, rfl⟩ := Option.map_eq_some_iff.1 found
  obtain ⟨fields, isMap, unshared⟩ := solid entry (List.mem_of_find?_eq_some listed)
  rw [isMap] at found made
  exact ⟨fields, changed, found, unshared, made,
    (Except.ok.inj ((changing_function found made).symm.trans edited)).symm⟩

end Draft

namespace Edit.Builds

open Draft (Solid)

variable {draft : Draft} {after : Project} {edit : Edit}

theorem unshared_put {fields : List (Atom × Value)} {value : Value}
    (unshared : ∀ field ∈ fields, field.2.Unshared) (own : value.Unshared) (key : Atom) :
    ∀ field ∈ Entries.put Atom.same fields key value, field.2.Unshared :=
  Entries.forall_mem_put unshared own fun _ _ _ => own

theorem unshared_list (items : List Value) : (Value.list items).Unshared :=
  fun _ same => nomatch same

/-- An edit of a compilation spares the shared parts, and leaves functions whose fields are their
own. -/
theorem step (builds : edit.Builds) (solid : draft.Solid)
    (edited : draft.project.edit edit = .ok after) :
    edit.Spares draft.project.document ∧ ∃ next : Draft, after = next.project ∧ next.Solid := by
  cases builds with
  | note =>
      cases edited
      exact ⟨trivial, draft, rfl, solid⟩
  | @write name contents =>
      cases edited
      exact ⟨trivial, draft.withFile name contents, rfl, solid⟩
  | @provide name contents =>
      rw [Draft.edit_provide] at edited
      cases edited
      refine ⟨trivial, draft.providing name contents, rfl, ?_⟩
      rw [Draft.providing_eq]
      exact solid
  | @define id fields unshared =>
      cases edited
      exact ⟨⟨_, Draft.opens_functions⟩, draft.withFunction id (.map fields), rfl,
        solid.withFunction unshared⟩
  | @setField id name items =>
      obtain ⟨fields, definition, found, unshared, made, rfl⟩ :=
        Draft.exists_of_changing [] solid edited
      cases made
      refine ⟨⟨fields, .entry rfl (.entry found .here)⟩, _, rfl, solid.withFunction ?_⟩
      exact unshared_put unshared (unshared_list items) _
  | @defaultEvents id =>
      obtain ⟨fields, definition, found, unshared, made, rfl⟩ :=
        Draft.exists_of_changing [] solid edited
      refine ⟨⟨fields, .entry rfl (.entry found .here)⟩, _, rfl, ?_⟩
      simp only [Value.modifyAt, Value.withDefault, Value.content] at made
      split at made
      · cases made
        exact solid.withFunction unshared
      · cases made
        exact solid.withFunction (unshared_put unshared (unshared_list []) _)
  | @addEvent id event =>
      obtain ⟨fields, definition, found, unshared, made, rfl⟩ :=
        Draft.exists_of_changing [.text "events"] solid edited
      obtain ⟨events, changed, foundItem, appended, put⟩ := Value.modifyAt_cons_eq_ok.1 made
      have foundEvents := Value.find?_of_item foundItem
      obtain ⟨entry, listed, rfl⟩ := Option.map_eq_some_iff.1 foundEvents
      -- The events are a field of the function, and no field of a function is a shared part.
      have own := unshared entry (List.mem_of_find?_eq_some listed)
      cases held : entry.2 with
      | shared part => exact absurd held (own part)
      | atom | map =>
          rw [held] at appended
          cases appended
      | list items =>
          rw [held] at appended foundEvents
          cases appended
          cases put
          refine ⟨⟨items, .entry rfl (.entry found (.entry foundEvents .here))⟩, _, rfl,
            solid.withFunction ?_⟩
          exact unshared_put unshared (unshared_list _) _
  | @store id resource =>
      cases edited
      exact ⟨⟨_, Draft.opens_resources⟩, draft.storing [(id, resource)], rfl, solid⟩
  | defaultPlugins =>
      rw [Draft.edit_defaultPlugins] at edited
      cases edited
      exact ⟨⟨_, .here⟩, _, rfl, solid⟩
  | addPlugin =>
      cases present : draft.plugins? with
      | none =>
          obtain ⟨document, modified, -⟩ := Project.changing_eq_ok.1 edited
          obtain ⟨plugins, _, found, -⟩ := Value.modifyAt_cons_eq_ok.1 modified
          have missing : draft.project.document.item (.text "plugins") =
              .error (.missingKey (.text "plugins")) := by
            simp only [Draft.project, Draft.fields, present]
            rfl
          rw [missing] at found
          cases found
      | some plugins =>
          rw [Draft.edit_includePlugin draft present] at edited
          cases edited
          refine ⟨⟨plugins, .entry ?_ .here⟩, _, rfl, solid⟩
          simp only [Draft.fields, present]
          rfl

end Edit.Builds

namespace Graph

open Plan (Every Adds)
open Value (SharesOnly)

/-- An edit that puts no shared parts into the document but those of the graph. -/
structure Assembles (graph : Graph) (edit : Edit) : Prop where
  builds : edit.Builds
  shares : ∀ part ∈ edit.uses, graph.SharedPart part

variable {graph : Graph} {node : Node} {runtimeId : Value}

/-- An edit that brings no shared part. -/
theorem assembles_plain {edit : Edit} (builds : edit.Builds) (none : edit.uses = []) :
    Every graph.Assembles (Trace.step edit) :=
  Every.step ⟨builds, by simp [none]⟩

theorem assembles_note {level : Level} {source : Source} {message : String} :
    Every graph.Assembles (Plan.note level source message) :=
  assembles_plain .note rfl

/-- A plan that only stores resources assembles the document from them. -/
theorem assembles_of_adds {α : Type} {plan : Plan α} {stores : List (Atom × Value)}
    {result : Except Fault α} (adds : Adds plan stores result)
    (shares : ∀ pair ∈ stores, SharesOnly graph.SharedPart pair.2) :
    Every graph.Assembles plan := by
  intro edit member
  have only := adds.only edit member
  cases edit with
  | note record => exact ⟨.note, by simp [Edit.uses]⟩
  | assign path key value =>
      obtain rfl : path = Project.resourcesPath := only
      have stored : (key, value) ∈ stores := by
        rw [← adds.stored]
        exact List.mem_filterMap.2 ⟨_, member, by simp [Edit.resource?]⟩
      exact ⟨.store, shares _ stored⟩
  | default | append | «include» | write | provide => exact only.elim

namespace Proper

variable (proper : graph.Proper) (typed : graph.Typed) (member : node ∈ graph.nodeList)

section Function

variable (isFunction : node.IsOf .function)

include proper member isFunction

theorem wireSources_assembles {sources : List Value}
    (texts : ∀ source ∈ sources, ∃ name, source = .text name) :
    Every graph.Assembles (graph.wireSources (.atom node.id) sources) := by
  induction sources with
  | nil => exact Every.pure
  | cons source sources ih =>
      obtain ⟨⟨name, rfl⟩, later⟩ := List.forall_mem_cons.1 texts
      refine Every.bind assembles_note fun _ => Every.bind Every.lift fun kind =>
        Every.bind ?_ fun _ => ih later
      rw [proper.wire_eq_triggerFunction member isFunction, Plan.triggerFunction]
      cases fires : trigger kind (.text name) with
      | none => exact assembles_note
      | some event =>
          exact Every.bind (assembles_plain .defaultEvents rfl) fun _ =>
            Every.step ⟨.addEvent, sharesOnly_trigger fires⟩

include typed

omit isFunction in
theorem visitTargets_assembles : Every graph.Assembles (graph.visitTargets node) := by
  have targets := proper.targets_text member
  have adds := proper.statements_adds typed node (.atom node.id) node.targets targets
  unfold Graph.visitTargets
  split
  · exact Every.pure
  · refine Every.bind_of_result (assembles_of_adds adds (by simp)) fun statements collected => ?_
    have granted : ∀ statement ∈ statements, SharesOnly graph.SharedPart statement := by
      rw [adds.result] at collected
      unfold unlessFault at collected
      split at collected
      · cases collected
      · obtain rfl := Except.ok.inj collected
        intro statement inGrants
        obtain ⟨target, leads, kind, -, granted⟩ := mem_grants.1 inGrants
        obtain ⟨name, rfl⟩ := targets target leads
        exact sharesOnly_grant .region .accountId granted
    unfold Plan.attachStatements
    split
    · exact Every.pure
    · have shares : ∀ part ∈ uses (.list statements), graph.SharedPart part :=
        (Value.sharesOnly_list statements).2 granted
      exact Every.bind (Every.step ⟨.setField, shares⟩) fun _ =>
        Every.bind (assembles_plain .defaultPlugins rfl) fun _ => assembles_plain .addPlugin rfl

theorem visitFunction_assembles (described : ∃ text, node.description = .text text) :
    Every graph.Assembles (graph.visitFunction runtimeId node) := by
  obtain ⟨text, textEq⟩ := described
  refine Every.bind Every.lift fun runtime => Every.bind (assembles_plain .provide rfl) fun _ =>
    Every.bind ?_ fun _ => Every.bind (assembles_plain .write rfl) fun _ => Every.bind ?_ fun _ =>
      proper.visitTargets_assembles typed member
  · refine assembles_plain (.define ?_) ?_
    · rw [textEq, List.forall_mem_map]
      unfold describedAs
      split <;> simp [Value.Unshared]
    · rw [textEq]
      unfold describedAs
      split <;> rfl
  · unfold Graph.visitSources
    split
    · exact Every.pure
    · exact Every.bind (assembles_plain .setField rfl) fun _ =>
        proper.wireSources_assembles member isFunction (proper.sources_text member)

end Function

include proper typed member

/-- A visit that ends well assembles the document from the shared parts of the graph. -/
theorem planNode_assembles (described : ∃ text, node.description = .text text) {kind : Kind}
    (isOf : node.IsOf kind) (visited : (graph.visit runtimeId kind node).result = .ok ()) :
    Every graph.Assembles (graph.planNode runtimeId node) := by
  refine Every.bind assembles_note fun _ => ?_
  rw [Kind.ofValue_eq_ok_iff.2 isOf]
  by_cases isFunction : kind = .function
  · subst isFunction
    exact proper.visitFunction_assembles typed member isOf described
  · obtain ⟨resources, adds, complete⟩ := proper.visit_adds typed runtimeId member isFunction
    have clear : graph.firstFault? node (node.lookups kind) = none := by
      rw [adds.result] at visited
      unfold unlessFault at visited
      split at visited
      · cases visited
      · assumption
    refine assembles_of_adds (Adds.after_lift adds) fun pair stored => ?_
    rw [complete clear, ← stores_of_isOf isOf] at stored
    exact proper.sharesOnly_stores member described stored

omit proper typed member in
/-- So does a whole compilation. -/
theorem plan_assembles {order : Order} {project : Project} (proper : graph.Proper)
    (described : ∀ node ∈ graph.nodeList, ∃ text, node.description = .text text)
    (compiled : (graph.compile order).result = .ok project) :
    Every graph.Assembles (graph.plan order.runtime) := by
  obtain ⟨typed, _⟩ := typed_of_compile compiled
  obtain ⟨_, _, visits⟩ := visits_of_compile compiled
  refine Every.bind Every.lift fun _ => ?_
  have each : ∀ nodes : List Node, (∀ node ∈ nodes, node ∈ graph.nodeList) →
      Every graph.Assembles (graph.planNodes order.runtime nodes) := by
    intro nodes members
    induction nodes with
    | nil => exact Every.pure
    | cons node nodes ih =>
        obtain ⟨member, later⟩ := List.forall_mem_cons.1 members
        obtain ⟨kind, isOf, visited⟩ := visits node member
        exact Every.bind (proper.planNode_assembles typed member (described node member)
          (Node.kind?_eq_some_iff.1 isOf) visited) fun _ => ih later
  exact each graph.nodeList fun _ member => member

end Proper

end Graph

end CloudGraph
