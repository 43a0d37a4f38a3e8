import CloudGraph.Proofs.Compiled

/-!
# Where edits change a document

An edit changes a document at one place and leaves every part that is neither above nor below
that place as it is: `Project.itemAt_edit`, and `Plan.itemAt_carryOut` for a whole plan.
`Node.Owns` lists the places that belong to a visit of a node, and
`Graph.Proper.planNode_owns` says that the visit changes no other. A visit never goes inside a
resource: it stores resources as a whole.
-/

namespace CloudGraph

/-- The place in the document that an edit changes, if it changes one. -/
def Edit.place? : Edit → Option (List Atom)
  | .assign path key _ => some (path ++ [key])
  | .default path key _ => some (path ++ [key])
  | .append path _ => some path
  | .include path _ => some path
  | .note _ | .write .. | .provide .. => none

/-- One of two places is the other or a part of it. -/
def Along (first second : List Atom) : Prop :=
  first <+: second ∨ second <+: first

/-- A place that is told by texts alone. -/
def TextPath (path : List Atom) : Prop :=
  ∀ key ∈ path, ∃ name, key = .text name

theorem along_cons {key : Atom} {first second : List Atom} :
    Along (key :: first) (key :: second) ↔ Along first second := by
  simp [Along, List.cons_prefix_cons]

theorem Along.of_nil {path : List Atom} : Along [] path :=
  .inl List.nil_prefix

theorem Along.to_nil {path : List Atom} : Along path [] :=
  .inr List.nil_prefix

theorem Entries.find?_put_unlike {κ α : Type} {same : κ → κ → Bool} {entries : Entries κ α}
    {key other : κ} {value : α} (exactOther : Exact same other)
    (unlike : same other key = false) :
    find? same (put same entries key value) other = find? same entries other := by
  have apart : ∀ head, same head key = true → same head other = false := by
    intro head equal
    rw [Bool.eq_false_iff]
    intro isOther
    rw [(exactOther head).1 isOther, unlike] at equal
    cases equal
  have keyApart : same key other = false := by
    rw [Bool.eq_false_iff]
    intro isOther
    have keyEq := (exactOther key).1 isOther
    rw [keyEq, exactOther.same_self] at unlike
    cases unlike
  induction entries with
  | nil => simp [put, find?, keyApart]
  | cons head rest ih =>
      by_cases equal : same head.1 key = true
      · simp [put, equal, find?_cons, apart head.1 equal]
      · simp [put, equal, find?_cons, ih]

namespace Value

variable {value changed part : Value} {key : Atom} {name : String}

/-- A part that was set is found. -/
theorem item_withItem_self (set : value.withItem (.text name) part = .ok changed) :
    changed.item (.text name) = .ok part := by
  unfold withItem at set
  split at set
  next entries =>
    cases set
    simp [item, content, Entries.find?_put_self (Entries.exact_text name)]
  next => cases set
  next => cases set

/-- Setting a part leaves the other parts as they are. -/
theorem item_withItem_other (different : key ≠ .text name)
    (set : value.withItem key part = .ok changed) :
    changed.item (.text name) = value.item (.text name) := by
  have unlike : Atom.same (.text name) key = false := by
    rw [Bool.eq_false_iff]
    exact fun equal => different (Atom.eq_text_of_same equal)
  unfold withItem at set
  unfold item
  split at set
  next entries isMap =>
    cases set
    rw [isMap]
    simp only [content, Entries.find?_put_unlike (Entries.exact_text name) unlike]
  next items isList =>
    rw [isList]
    split at set
    · cases set
    · split at set
      · cases set
        rfl
      · cases set
  next => cases set

/-- Giving a default for a part leaves the other parts as they are. -/
theorem item_withDefault_other (different : key ≠ .text name)
    (set : value.withDefault key part = .ok changed) :
    changed.item (.text name) = value.item (.text name) := by
  have unlike : Atom.same (.text name) key = false := by
    rw [Bool.eq_false_iff]
    exact fun equal => different (Atom.eq_text_of_same equal)
  unfold withDefault at set
  unfold item
  split at set
  next entries isMap =>
    rw [isMap]
    split at set
    · cases set
      rfl
    · cases set
      simp only [content, Entries.find?_put_unlike (Entries.exact_text name) unlike]
  next => cases set

theorem itemAt_cons (value : Value) (key : Atom) (path : List Atom) :
    value.itemAt (key :: path) = value.item key >>= fun part => part.itemAt path := rfl

/-- A change at the end of a path leaves every part alone that it leaves alone there. -/
theorem itemAt_modifyAt {change : Value → Except Fault Value} {last : List Atom}
    (leaves : ∀ value changed other, change value = .ok changed → TextPath other →
      ¬Along last other → changed.itemAt other = value.itemAt other)
    {path other : List Atom} (texts : TextPath other) (apart : ¬Along (path ++ last) other)
    (made : modifyAt change value path = .ok changed) :
    changed.itemAt other = value.itemAt other := by
  induction path generalizing value changed other with
  | nil => exact leaves value changed other made texts apart
  | cons key path ih =>
      cases other with
      | nil => exact absurd Along.to_nil apart
      | cons head rest =>
          obtain ⟨name, rfl⟩ := texts head List.mem_cons_self
          cases found : value.item key with
          | error fault => simp [modifyAt, found, bind, Except.bind] at made
          | ok part =>
              cases inner : modifyAt change part path with
              | error fault => simp [modifyAt, found, inner, bind, Except.bind] at made
              | ok next =>
                  have set : value.withItem key next = .ok changed := by
                    simpa [modifyAt, found, inner, bind, Except.bind] using made
                  by_cases equal : key = .text name
                  · subst equal
                    rw [List.cons_append, along_cons] at apart
                    have below := ih (fun key member => texts key (List.mem_cons_of_mem _ member))
                      apart inner
                    simp only [itemAt_cons, item_withItem_self set, found, bind, Except.bind,
                      below]
                  · rw [itemAt_cons, itemAt_cons, item_withItem_other equal set]

/-- A change of a whole part leaves alone what is beside the part. -/
theorem leaves_of_whole {change : Value → Except Fault Value} :
    ∀ value changed other, change value = .ok changed → TextPath other →
      ¬Along [] other → changed.itemAt other = value.itemAt other :=
  fun _ _ _ _ _ apart => absurd Along.of_nil apart

/-- A change of one key leaves alone what is under the other keys. -/
theorem leaves_of_key {change : Value → Except Fault Value}
    (keeps : ∀ value changed name, key ≠ .text name → change value = .ok changed →
      changed.item (.text name) = value.item (.text name)) :
    ∀ value changed other, change value = .ok changed → TextPath other →
      ¬Along [key] other → changed.itemAt other = value.itemAt other := by
  intro value changed other made texts apart
  cases other with
  | nil => exact absurd Along.to_nil apart
  | cons head rest =>
      obtain ⟨name, rfl⟩ := texts head List.mem_cons_self
      have different : key ≠ .text name := by
        rintro rfl
        exact apart (along_cons.2 Along.of_nil)
      rw [itemAt_cons, itemAt_cons, keeps value changed name different made]

end Value

namespace Project

variable {project after : Project} {other : List Atom} {edit : Edit}

theorem itemAt_changing {path last : List Atom} {change : Value → Except Fault Value}
    (leaves : ∀ value changed other, change value = .ok changed → TextPath other →
      ¬Along last other → changed.itemAt other = value.itemAt other)
    (texts : TextPath other) (apart : ¬Along (path ++ last) other)
    (changed : project.changing path change = .ok after) :
    after.document.itemAt other = project.document.itemAt other := by
  unfold changing at changed
  cases made : Value.modifyAt change project.document path with
  | error fault => simp [made, bind, Except.bind] at changed
  | ok document =>
      simp only [made, bind, Except.bind, pure, Except.pure, Except.ok.injEq] at changed
      subst changed
      exact Value.itemAt_modifyAt leaves texts apart made

/-- An edit leaves every part of the document as it is that is not along its place. -/
theorem itemAt_edit (texts : TextPath other)
    (apart : ∀ place, edit.place? = some place → ¬Along place other)
    (edited : project.edit edit = .ok after) :
    after.document.itemAt other = project.document.itemAt other := by
  cases edit with
  | note record =>
      cases edited
      rfl
  | write name contents =>
      cases edited
      rfl
  | provide name contents =>
      simp only [Project.edit] at edited
      cases held : Entries.find? sameName project.files name <;> rw [held] at edited <;>
        cases edited <;> rfl
  | assign path key value =>
      exact itemAt_changing (Value.leaves_of_key fun _ _ _ => Value.item_withItem_other) texts
        (apart _ rfl) edited
  | default path key value =>
      exact itemAt_changing (Value.leaves_of_key fun _ _ _ => Value.item_withDefault_other) texts
        (apart _ rfl) edited
  | append path item =>
      exact itemAt_changing Value.leaves_of_whole texts
        (by simpa using apart path rfl) edited
  | «include» path item =>
      exact itemAt_changing Value.leaves_of_whole texts
        (by simpa using apart path rfl) edited

/-- So do several edits, also when one of them fails. -/
theorem itemAt_editAll (texts : TextPath other) (edits : List Edit)
    (apart : ∀ edit ∈ edits, ∀ place, edit.place? = some place → ¬Along place other) :
    (project.editAll edits).project.document.itemAt other = project.document.itemAt other := by
  induction edits generalizing project with
  | nil => rfl
  | cons edit edits ih =>
      have ih := fun next => @ih next fun edit member => apart edit (List.mem_cons_of_mem _ member)
      unfold editAll
      cases edited : project.edit edit with
      | error fault => rfl
      | ok next =>
          exact (ih next).trans (itemAt_edit texts (apart edit List.mem_cons_self) edited)

end Project

namespace Plan

variable {α β : Type}

/-- A plan leaves a part of the document as it is that is along no place of its edits. -/
theorem itemAt_carryOut {plan : Plan α} {project : Project} {other : List Atom}
    (texts : TextPath other)
    (apart : ∀ edit ∈ plan.steps, ∀ place, edit.place? = some place → ¬Along place other) :
    (carryOut plan project).project.document.itemAt other = project.document.itemAt other := by
  have left : (project.editAll plan.steps).project.document.itemAt other =
      project.document.itemAt other := Project.itemAt_editAll texts plan.steps apart
  unfold carryOut
  cases made : (project.editAll plan.steps).result <;> simpa only [made] using left

/-- Every place that a plan changes is of one sort. -/
def Within (sort : List Atom → Prop) (plan : Plan α) : Prop :=
  ∀ edit ∈ plan.steps, ∀ place, edit.place? = some place → sort place

namespace Within

variable {sort : List Atom → Prop}

theorem pure {value : α} : Within sort (Pure.pure value : Plan α) :=
  Every.pure

theorem lift {result : Except Fault α} : Within sort (liftM result : Plan α) :=
  Every.lift

theorem note {level : Level} {source : Source} {message : String} :
    Within sort (Plan.note level source message) := by
  simp [Within, Plan.note, Trace.step, Edit.place?]

theorem step {edit : Edit} (own : ∀ place, edit.place? = some place → sort place) :
    Within sort (Trace.step edit : Plan Unit) :=
  Every.step own

theorem bind {first : Plan α} {next : α → Plan β} (firstWithin : Within sort first)
    (nextWithin : ∀ value, Within sort (next value)) : Within sort (first >>= next) :=
  Every.bind firstWithin nextWithin

end Within

/-- A plan that only stores resources changes the resources as a whole. -/
theorem Adds.within {plan : Plan α} {resources : List (Atom × Value)} {result : Except Fault α}
    {sort : List Atom → Prop} (adds : Adds plan resources result)
    (own : ∀ key, sort (Project.resourcesPath ++ [key])) : Within sort plan := by
  intro edit member place placed
  have store := adds.only edit member
  cases edit with
  | note => cases placed
  | assign path key value =>
      obtain rfl : path = Project.resourcesPath := store
      cases placed
      exact own key
  | default | append | «include» | write | provide => exact store.elim

end Plan

/-- The places that belong to a visit of a node: the definition of a function and what is in it,
resources as a whole, and the plugins. -/
inductive Node.Owns (node : Node) : List Atom → Prop where
  | definition {place} (isFunction : node.IsOf .function)
      (inside : Project.functionsPath ++ [node.id] <+: place) : Owns node place
  | resource (key) : Owns node (Project.resourcesPath ++ [key])
  | plugins : Owns node [.text "plugins"]

/-- A visit that stays with its own node does not come near the definition of another. -/
theorem Node.Owns.apart {node other : Node} {place : List Atom} (owns : other.Owns place)
    (different : other.id ≠ node.id) : ¬Along place (Project.functionsPath ++ [node.id]) := by
  cases owns with
  | definition isFunction inside =>
      obtain ⟨rest, rfl⟩ := inside
      rintro (before | after)
      · simp [Project.functionsPath, List.cons_prefix_cons, different] at before
      · simp [Project.functionsPath, List.cons_prefix_cons, Ne.symm different] at after
  | resource key =>
      rintro (before | after)
      · simp [Project.functionsPath, Project.resourcesPath, List.cons_prefix_cons] at before
      · simp [Project.functionsPath, Project.resourcesPath, List.cons_prefix_cons] at after
  | plugins =>
      rintro (before | after)
      · simp [Project.functionsPath, List.cons_prefix_cons] at before
      · simp [Project.functionsPath, List.cons_prefix_cons] at after

/-- The only places among the resources that a visit changes are resources as a whole. -/
theorem Node.Owns.eq_resource {node : Node} {place : List Atom} (owns : node.Owns place)
    (inside : Project.resourcesPath <+: place) :
    ∃ key, place = Project.resourcesPath ++ [key] := by
  cases owns with
  | resource key => exact ⟨key, rfl⟩
  | definition isFunction own =>
      obtain ⟨rest, rfl⟩ := own
      simp [Project.functionsPath, Project.resourcesPath, List.cons_prefix_cons] at inside
  | plugins => simp [Project.resourcesPath, List.cons_prefix_cons] at inside

namespace Plan

variable {node : Node} (isFunction : node.IsOf .function)

include isFunction

/-- Setting a field of its definition stays with a function. -/
theorem within_setFunctionField (name : String) (value : Value) :
    Within node.Owns (setFunctionField node.id name value) := by
  refine Within.step fun place placed => ?_
  cases placed
  exact .definition isFunction (List.prefix_append _ _)

/-- Putting a trigger into its definition stays with a function. -/
theorem within_addTrigger (event : Value) : Within node.Owns (addTrigger node.id event) := by
  refine Within.bind (Within.step fun place placed => ?_) fun _ =>
    Within.step fun place placed => ?_
  · cases placed
    exact .definition isFunction (List.prefix_append _ _)
  · cases placed
    exact .definition isFunction (List.prefix_append _ _)

theorem within_attachStatements (statements : List Value) :
    Within node.Owns (attachStatements node.id statements) := by
  unfold attachStatements
  split
  · exact Within.pure
  · refine Within.bind (within_setFunctionField isFunction _ _) fun _ =>
      Within.bind (Within.step fun place placed => ?_) fun _ =>
        Within.step fun place placed => ?_
    · cases placed
      exact .plugins
    · cases placed
      exact .plugins

end Plan

/-- Puts what an edge sets off into a function; nothing, if its source triggers no functions. -/
def Plan.triggerFunction (kind : Kind) (target : Atom) (source : Value) : Plan Unit :=
  match trigger kind source with
  | none => Plan.note .debug .wiring (kind.name ++ " doesn't trigger functions")
  | some event => Plan.addTrigger target event

namespace Graph.Proper

open Plan (Within)

variable {graph : Graph} (proper : graph.Proper) {node : Node} (member : node ∈ graph.nodeList)

include proper member

section Function

variable (isFunction : node.IsOf .function)

include isFunction

/-- An edge into a function is wired as a trigger, whatever its source. -/
theorem wire_eq_triggerFunction (kind : Kind) (source : Value) :
    graph.wire kind (.atom node.id) source = Plan.triggerFunction kind node.id source := by
  obtain ⟨id, idEq⟩ := proper.textual.ids node member
  have named : graph.named? id = some node := proper.named?_iff.2 ⟨member, idEq⟩
  have asked := proper.isFunction_eq (proper.isOfKind_iff.2
    ⟨node, named, Node.kind?_eq_some_iff.2 isFunction⟩)
  unfold Graph.wire
  rw [idEq, asked]
  rfl

theorem wireSources_owns (sources : List Value) :
    Within node.Owns (graph.wireSources (.atom node.id) sources) := by
  induction sources with
  | nil => exact Within.pure
  | cons source sources ih =>
      refine Within.bind Within.note fun _ => Within.bind Within.lift fun kind =>
        Within.bind ?_ fun _ => ih
      rw [proper.wire_eq_triggerFunction member isFunction, Plan.triggerFunction]
      cases trigger kind source with
      | none => exact Within.note
      | some event => exact Plan.within_addTrigger isFunction event

end Function

variable (typed : graph.Typed)

include typed

/-- A visit of a function stays with the function and the plugins. -/
theorem visitFunction_owns (isFunction : node.IsOf .function) (runtimeId : Value) :
    Within node.Owns (graph.visitFunction runtimeId node) := by
  have noPlace : ∀ {edit : Edit}, edit.place? = none → Within node.Owns (Trace.step edit) :=
    fun unplaced => Within.step fun _ placed => by simp [unplaced] at placed
  refine Within.bind Within.lift fun runtime => Within.bind (noPlace rfl) fun _ =>
    Within.bind (Within.step fun place placed => ?_) fun _ => Within.bind (noPlace rfl) fun _ =>
      Within.bind ?_ fun _ => ?_
  · cases placed
    exact .definition isFunction List.prefix_rfl
  · unfold Graph.visitSources
    split
    · exact Within.pure
    · exact Within.bind (Plan.within_setFunctionField isFunction _ _) fun _ =>
        proper.wireSources_owns member isFunction node.sources
  · unfold Graph.visitTargets
    split
    · exact Within.pure
    · have collected := proper.statements_adds typed node (.atom node.id) node.targets
        (proper.targets_text member)
      exact Within.bind (collected.within .resource) fun statements =>
        Plan.within_attachStatements isFunction statements

/-- A visit of a node changes only places that belong to it. -/
theorem planNode_owns (runtimeId : Value) :
    Within node.Owns (graph.planNode runtimeId node) := by
  refine Within.bind Within.note fun _ => ?_
  cases kindEq : node.kind? with
  | none =>
      obtain ⟨type, typeEq⟩ := typed node member
      rw [Node.ofValue_of_no_kind typeEq kindEq]
      intro edit edited
      cases edited
  | some kind =>
      have isOf := Node.kind?_eq_some_iff.1 kindEq
      rw [Kind.ofValue_eq_ok_iff.2 isOf]
      by_cases isFunction : kind = .function
      · subst isFunction
        exact proper.visitFunction_owns member typed isOf runtimeId
      · obtain ⟨resources, adds, _⟩ := proper.visit_adds typed runtimeId member isFunction
        exact (Plan.Adds.after_lift adds).within .resource

end Graph.Proper

namespace Graph.Proper

open Plan (Within)

variable {graph : Graph} (proper : graph.Proper) (typed : graph.Typed)

include proper typed

theorem planNodes_owned (runtimeId : Value) (nodes : List Node)
    (members : ∀ node ∈ nodes, node ∈ graph.nodeList) :
    Within (fun place => ∃ node ∈ graph.nodeList, node.Owns place)
      (graph.planNodes runtimeId nodes) := by
  induction nodes with
  | nil => exact Within.pure
  | cons node nodes ih =>
      have member := members node List.mem_cons_self
      refine Within.bind ?_ fun _ => ih fun node later =>
        members node (List.mem_cons_of_mem _ later)
      intro edit edited place placed
      exact ⟨node, member, proper.planNode_owns member typed runtimeId edit edited place placed⟩

/-- Every place that a compilation changes belongs to some node. -/
theorem plan_owned (runtimeId : Value) :
    Within (fun place => ∃ node ∈ graph.nodeList, node.Owns place) (graph.plan runtimeId) :=
  Within.bind Within.lift fun _ =>
    proper.planNodes_owned typed runtimeId graph.nodeList fun _ member => member

/-- A visit of another node leaves the definition of a function as it is, whatever the project
is. -/
theorem itemAt_after_other {node other : Node} (member : node ∈ graph.nodeList)
    (otherMember : other ∈ graph.nodeList) (different : other ≠ node) (runtimeId : Value)
    (project : Project) :
    (Plan.carryOut (graph.planNode runtimeId other) project).project.document.itemAt
        (Project.functionsPath ++ [node.id]) =
      project.document.itemAt (Project.functionsPath ++ [node.id]) := by
  obtain ⟨id, idEq⟩ := proper.textual.ids node member
  have idsDiffer : other.id ≠ node.id := fun equal =>
    different (List.inj_on_of_nodup_map proper.nodup_ids otherMember member equal)
  have texts : TextPath (Project.functionsPath ++ [node.id]) := by
    simp [TextPath, Project.functionsPath, idEq]
  refine Plan.itemAt_carryOut texts fun edit edited place placed => ?_
  exact (proper.planNode_owns otherMember typed runtimeId edit edited place placed).apart idsDiffer

end Graph.Proper

end CloudGraph
