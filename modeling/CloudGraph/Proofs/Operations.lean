import CloudGraph.Build.Operation
import CloudGraph.Proofs.OwnedEdges
import CloudGraph.Proofs.Parts
import CloudGraph.Proofs.StoredKeys
import Mathlib.Logic.Relation

/-!
# Runs of operations

Operations are taken one by one, in any order, and one that fails keeps what it has done. Every
state on the way is a draft, and there are only two ways in which an operation changes one
(`Graph.Step`): a visit leaves what `Graph.entered` says, whether it fails or not, and an edge that
is wired changes the triggers of a function or something inside a resource.

`Graph.Keyed.performAll_steps` says so for every run, so that what holds at the start and is kept
by every step holds in every state that can be reached.
-/

namespace CloudGraph

open Relation (ReflTransGen)

/-- Operations one after the other. One that fails keeps what it has done, and the next one goes on
from there. -/
def Graph.performAll (graph : Graph) (runtimeId : Value) (project : Project)
    (operations : List Operation) : Project :=
  operations.foldl
    (fun project operation => (Plan.carryOut (graph.perform runtimeId operation) project).project)
    project

theorem Graph.performAll_cons (graph : Graph) (runtimeId : Value) (project : Project)
    (operation : Operation) (operations : List Operation) :
    graph.performAll runtimeId project (operation :: operations) =
      graph.performAll runtimeId
        (Plan.carryOut (graph.perform runtimeId operation) project).project operations := rfl

namespace Draft

/-- One edit that an edge makes when it is wired into its target: it changes the triggers in a
definition that is there, or the resources. -/
inductive Rewired (draft : Draft) : Draft → Prop where
  | events {id : String} {definition changed : Value}
      (found : Entries.find? Atom.same draft.functions (.text id) = some definition)
      (same : ∀ name, name ≠ "events" → changed.item (.text name) = definition.item (.text name)) :
      Rewired draft (draft.withFunction (.text id) changed)
  | resources (resources : Entries Atom Value) :
      Rewired draft { draft with resources := resources }

variable {draft : Draft} {id : Atom} {path : List Atom} {change : Value → Except Fault Value}
  {after : Project}

/-- A change inside the definition of a function that succeeds has found the definition. -/
theorem changing_function_eq_ok
    (made : draft.project.changing (Project.functionsPath ++ id :: path) change = .ok after) :
    ∃ definition changed, Entries.find? Atom.same draft.functions id = some definition ∧
      Value.modifyAt change definition path = .ok changed ∧
      after = (draft.withFunction id changed).project := by
  obtain ⟨document, whole, rfl⟩ := Project.changing_eq_ok.1 made
  obtain ⟨functions, _, functionsEq, inner, outer⟩ := Value.modifyAt_cons_eq_ok.1 whole
  obtain rfl : functions = .map draft.functions := (Except.ok.inj functionsEq).symm
  obtain ⟨definition, changed, item, change_eq, put⟩ := Value.modifyAt_cons_eq_ok.1 inner
  have found : Entries.find? Atom.same draft.functions id = some definition := by
    simp only [Value.item, Value.content] at item
    split at item
    next held => rw [held, Except.ok.inj item]
    next => cases item
  rw [← Except.ok.inj outer, ← Except.ok.inj put]
  exact ⟨definition, changed, found, change_eq, rfl⟩

/-- A change inside a resource that succeeds leaves everything but the resources as it is. -/
theorem changing_resource_eq_ok
    (made : draft.project.changing (Project.resourcesPath ++ id :: path) change = .ok after) :
    ∃ resources, after = { draft with resources := resources }.project := by
  obtain ⟨document, whole, rfl⟩ := Project.changing_eq_ok.1 made
  obtain ⟨both, _, bothEq, inner, outer⟩ := Value.modifyAt_cons_eq_ok.1 whole
  obtain rfl := Except.ok.inj bothEq
  obtain ⟨resources, _, resourcesEq, inmost, put⟩ := Value.modifyAt_cons_eq_ok.1 inner
  obtain rfl := Except.ok.inj resourcesEq
  obtain ⟨_, changed, _, _, again⟩ := Value.modifyAt_cons_eq_ok.1 inmost
  rw [← Except.ok.inj outer, ← Except.ok.inj put, ← Except.ok.inj again]
  exact ⟨Entries.put Atom.same draft.resources id changed, rfl⟩

end Draft

/-- Whether an edit of a draft leads to a draft, in steps of one sort, unless it fails. -/
def Edit.Moves (step : Draft → Draft → Prop) (edit : Edit) : Prop :=
  ∀ (draft : Draft) after, draft.project.edit edit = .ok after →
    ∃ next, ReflTransGen step draft next ∧ after = next.project

namespace Edit

variable {step : Draft → Draft → Prop} {edit : Edit} {id : Atom} {name : String}
  {path : List Atom} {change : Value → Except Fault Value}

theorem IsNote.moves (note : edit.IsNote) : edit.Moves step := by
  intro draft after edited
  cases edit with
  | note record => exact ⟨draft, .refl, (Except.ok.inj edited).symm⟩
  | _ => exact note.elim

theorem moves_of_function (path : List Atom)
    (inside : ∀ project : Project, project.edit edit =
      project.changing (Project.functionsPath ++ .text name :: path) change)
    (keeps : ∀ definition changed other, Value.modifyAt change definition path = .ok changed →
      other ≠ "events" → changed.item (.text other) = definition.item (.text other)) :
    edit.Moves Draft.Rewired := by
  intro draft after edited
  rw [inside] at edited
  obtain ⟨definition, changed, found, change_eq, rfl⟩ := Draft.changing_function_eq_ok edited
  exact ⟨_, .single (.events found fun other => keeps definition changed other change_eq), rfl⟩

theorem moves_of_resource
    (inside : ∀ project : Project, project.edit edit =
      project.changing (Project.resourcesPath ++ id :: path) change) :
    edit.Moves Draft.Rewired := by
  intro draft after edited
  rw [inside] at edited
  obtain ⟨resources, rfl⟩ := Draft.changing_resource_eq_ok edited
  exact ⟨_, .single (.resources resources), rfl⟩

end Edit

namespace Plan

variable {α : Type} {step : Draft → Draft → Prop}

/-- A plan of such edits leads from a draft to a draft, also when one of them fails. -/
theorem Every.moves {plan : Plan α} (every : Every (Edit.Moves step) plan) (draft : Draft) :
    ∃ next, ReflTransGen step draft next ∧
      (carryOut plan draft.project).project = next.project := by
  have all : ∀ (edits : List Edit) (draft : Draft), (∀ edit ∈ edits, edit.Moves step) →
      ∃ next, ReflTransGen step draft next ∧
        (draft.project.editAll edits).project = next.project := by
    intro edits
    induction edits with
    | nil => exact fun draft _ => ⟨draft, .refl, rfl⟩
    | cons edit edits ih =>
        intro draft moves
        obtain ⟨first, rest⟩ := List.forall_mem_cons.1 moves
        unfold Project.editAll
        cases edited : draft.project.edit edit with
        | error fault => exact ⟨draft, .refl, rfl⟩
        | ok after =>
            obtain ⟨middle, reached, rfl⟩ := first draft after edited
            obtain ⟨next, further, left⟩ := ih middle rest
            exact ⟨next, reached.trans further, left⟩
  obtain ⟨next, reached, left⟩ := all plan.steps draft every
  refine ⟨next, reached, ?_⟩
  unfold carryOut
  cases made : (draft.project.editAll plan.steps).result <;> simpa only [made] using left

theorem addTrigger_moves (name : String) (event : Value) :
    Every (Edit.Moves Draft.Rewired) (addTrigger (.text name) event) := by
  refine Every.bind (Every.step (Edit.moves_of_function [] (fun _ => rfl) ?_)) fun _ =>
    Every.step (Edit.moves_of_function [.text "events"] (fun _ => rfl) ?_)
  · intro definition changed other change_eq different
    refine Value.item_withDefault_other ?_ change_eq
    simpa using different.symm
  · intro definition changed other change_eq different
    obtain ⟨_, _, _, _, set⟩ := Value.modifyAt_cons_eq_ok.1 change_eq
    refine Value.item_withItem_other ?_ set
    simpa using different.symm

theorem addInlineEvent_moves (target : Atom) (start : String) (source event : Value) :
    Every (Edit.Moves Draft.Rewired) (addInlineEvent target start source event) := by
  refine Every.bind (Every.step (Edit.moves_of_resource fun _ => rfl)) fun _ =>
    Every.bind (Every.step (Edit.moves_of_resource fun _ => rfl)) fun _ =>
      Every.bind Every.lift fun _ => Every.step (Edit.moves_of_resource fun _ => rfl)

theorem allowReading_moves (target : Atom) :
    Every (Edit.Moves Draft.Rewired) (allowReading target) :=
  Every.bind (Every.step (Edit.moves_of_resource fun _ => rfl)) fun _ =>
    Every.step (Edit.moves_of_resource fun _ => rfl)

end Plan

namespace Graph

open Plan (Ends Every)

variable {graph : Graph} {runtimeId : Value}

/-- In a graph that was read, nodes stand under their ids when these are texts. -/
theorem keyed_of_ofValue {value : Value} (loaded : Graph.ofValue value = .ok graph)
    (ids : ∀ node ∈ graph.nodeList, ∃ id, node.id = .text id) : graph.Keyed :=
  ⟨(keys_of_ofValue loaded ids).1, (keys_of_ofValue loaded ids).2, ids⟩

theorem typeOf_of_node {id : Value} {node : Node} (found : graph.node id = .ok node) :
    graph.typeOf id = .ok node.type := by
  simp [typeOf, found, bind, Except.bind, pure, Except.pure]

theorem kindOf_of_node {id : Value} {node : Node} (found : graph.node id = .ok node) :
    graph.kindOf id = Kind.ofValue node.type := by
  simp [kindOf, typeOf_of_node found, bind, Except.bind]

theorem isFunction_of_node {id : Value} {node : Node} (found : graph.node id = .ok node) :
    graph.isFunction id = .ok (Kind.function.isNamedBy node.type) := by
  simp [isFunction, typeOf_of_node found, bind, Except.bind, pure, Except.pure]

theorem node_of_isFunction {id : Value} {answer : Bool}
    (asked : graph.isFunction id = .ok answer) : ∃ node, graph.node id = .ok node := by
  cases typed : graph.typeOf id with
  | ok type => exact node_of_typeOf typed
  | error fault => simp [Graph.isFunction, typed, bind, Except.bind] at asked

variable (graph runtimeId) in
/-- The draft that a visit of a node leaves, whether it fails or not. -/
def entered (node : Node) (draft : Draft) : Draft :=
  match node.kind? with
  | none => draft
  | some .function =>
    match Runtime.ofId runtimeId with
    | .error _ => draft
    | .ok runtime => graph.entering runtime node draft
  | some kind => draft.storing (Plan.stored (graph.visit runtimeId kind node))

variable (graph runtimeId) in
/-- What one operation does to a draft, step by step: it visits a node, or wires an edge. -/
def Step (draft after : Draft) : Prop :=
  (∃ node ∈ graph.nodeList, after = graph.entered runtimeId node draft) ∨ draft.Rewired after

namespace Keyed

variable (keyed : graph.Keyed)

include keyed

/-- An id is found when it is that of a node, and only then. -/
theorem node_eq_ok_iff {id : Value} {node : Node} :
    graph.node id = .ok node ↔ node ∈ graph.nodeList ∧ id = .atom node.id := by
  constructor
  · intro found
    have known : graph.Knows [id] := by simpa [Knows] using ⟨node, found⟩
    obtain ⟨name, rfl⟩ := keyed.text_of_knows known id List.mem_cons_self
    simp only [Graph.node] at found
    split at found
    next other held =>
      obtain rfl := Except.ok.inj found
      have member := Entries.mem_of_find? (Entries.exact_text name) held
      exact ⟨mem_nodeList.2 ⟨_, member⟩, congrArg Value.atom (keyed.keyed _ member)⟩
    next => cases found
  · rintro ⟨member, rfl⟩
    obtain ⟨key, entry⟩ := mem_nodeList.1 member
    obtain rfl : key = node.id := keyed.keyed _ entry
    obtain ⟨id, idEq⟩ := keyed.ids node member
    have exact : Entries.Exact Atom.same node.id := idEq ▸ Entries.exact_text id
    simp [Graph.node, Entries.find?_of_mem exact keyed.distinct entry]

/-- Two nodes of one id are one. -/
theorem eq_of_id {node other : Node} (member : node ∈ graph.nodeList)
    (otherMember : other ∈ graph.nodeList) (sameId : other.id = node.id) : other = node := by
  have found := keyed.node_eq_ok_iff.2 ⟨otherMember, rfl⟩
  rw [sameId, keyed.node_eq_ok_iff.2 ⟨member, rfl⟩] at found
  exact (Except.ok.inj found).symm

theorem wire_moves (kind : Kind) (target source : Value) :
    Every (Edit.Moves Draft.Rewired) (graph.wire kind target source) := by
  have note : ∀ message, Every (Edit.Moves Draft.Rewired) (Plan.note .debug .wiring message) :=
    fun _ => Every.step (Edit.IsNote.moves trivial)
  refine Every.after_lift fun isFunction asked => Every.after_lift fun targetId scalar => ?_
  obtain ⟨node, found⟩ := node_of_isFunction asked
  obtain ⟨member, rfl⟩ := keyed.node_eq_ok_iff.1 found
  obtain ⟨name, idEq⟩ := keyed.ids node member
  obtain rfl : targetId = .text name := by rw [← idEq]; exact (Except.ok.inj scalar).symm
  cases isFunction with
  | true =>
      cases trigger kind source with
      | none => exact note _
      | some event => exact Plan.addTrigger_moves name event
  | false =>
      cases inlineEvent kind source with
      | none => exact note _
      | some event =>
          refine Every.bind (Plan.addInlineEvent_moves _ _ _ _) fun _ => ?_
          split
          · exact Plan.allowReading_moves _
          · exact Every.pure

variable {node : Node}

/-- A visit leaves the draft that is told by the node. -/
theorem visit_ends (member : node ∈ graph.nodeList) {kind : Kind} (kindEq : node.kind? = some kind)
    (draft : Draft) :
    Ends (graph.visit runtimeId kind node) draft.project (graph.visit runtimeId kind node).result
      (graph.entered runtimeId node draft).project := by
  obtain ⟨id, idEq⟩ := keyed.ids node member
  unfold entered
  rw [kindEq]
  by_cases isFunction : kind = .function
  · subst isFunction
    have asked : graph.isFunction (.text id) = .ok true := by
      rw [isFunction_of_node (keyed.node_eq_ok_iff.2 ⟨member, by rw [idEq]⟩),
        Node.isNamedBy_iff.2 kindEq]
    cases known : Runtime.ofId runtimeId with
    | error fault =>
        have stops : Ends (graph.visitFunction runtimeId node) draft.project (.error fault)
            draft.project := by
          unfold visitFunction
          rw [known]
          exact Ends.bind_fault Ends.lift
        exact stops.own
    | ok runtime => exact graph.visitFunction_ends draft known asked idEq
  · have stores := (graph.visit_storesAt node runtimeId isFunction).mono fun _ =>
      Edit.StoresAt.isStore
    obtain ⟨made, left⟩ := Plan.editAll_of_stores _ draft stores
    have ends : Ends (graph.visit runtimeId kind node) draft.project
        (graph.visit runtimeId kind node).result
        (draft.storing (Plan.stored (graph.visit runtimeId kind node))).project :=
      ⟨made, left, rfl⟩
    cases kind with
    | function => exact absurd rfl isFunction
    | _ => exact ends

theorem perform_visit_ends (member : node ∈ graph.nodeList) (draft : Draft) :
    Ends (graph.perform runtimeId (.visit (.atom node.id))) draft.project
      (graph.perform runtimeId (.visit (.atom node.id))).result
      (graph.entered runtimeId node draft).project := by
  have found := keyed.node_eq_ok_iff.2 ⟨member, rfl⟩
  simp only [Graph.perform, kindOf_of_node found, found]
  cases named : Kind.ofValue node.type with
  | error fault =>
      have unkind : node.kind? = none := by
        rw [Option.eq_none_iff_forall_ne_some]
        intro kind kindEq
        rw [Kind.ofValue_eq_ok_iff.2 (Node.kind?_eq_some_iff.1 kindEq)] at named
        cases named
      unfold entered
      rw [unkind]
      exact (Ends.bind_fault Ends.lift).own
  | ok kind =>
      have kindEq := Node.kind?_eq_some_iff.2 (Kind.ofValue_eq_ok_iff.1 named)
      exact Ends.after_lift (Ends.after_lift ((keyed.visit_ends member kindEq draft).then_answer _))

/-- Every operation leads from a draft to a draft, whether it fails or not. -/
theorem perform_steps (operation : Operation) (draft : Draft) :
    ∃ next, ReflTransGen (graph.Step runtimeId) draft next ∧
      (Plan.carryOut (graph.perform runtimeId operation) draft.project).project =
        next.project := by
  cases operation with
  | visit id =>
      cases found : graph.node id with
      | error fault =>
          have unkind : graph.kindOf id = .error fault := by
            simp [Graph.kindOf, Graph.typeOf, found, bind, Except.bind]
          have stops : Ends (graph.perform runtimeId (.visit id)) draft.project (.error fault)
              draft.project := by
            simp only [Graph.perform, unkind]
            exact Ends.bind_fault Ends.lift
          exact ⟨draft, .refl, stops.carryOut_eq.2⟩
      | ok node =>
          obtain ⟨member, rfl⟩ := keyed.node_eq_ok_iff.1 found
          exact ⟨_, .single (.inl ⟨node, member, rfl⟩),
            (keyed.perform_visit_ends member draft).carryOut_eq.2⟩
  | wire target source =>
      have every :
          Every (Edit.Moves Draft.Rewired) (graph.perform runtimeId (.wire target source)) :=
        Every.bind Every.lift fun kind => Every.bind (keyed.wire_moves kind target source) fun _ =>
          Every.pure
      obtain ⟨next, reached, left⟩ := every.moves draft
      exact ⟨next, ReflTransGen.mono (fun _ _ => Or.inr) _ _ reached, left⟩
  | grant source target =>
      have notes : Every Edit.IsNote (graph.perform runtimeId (.grant source target)) :=
        Every.bind Every.lift fun _ => Every.pure
      exact ⟨draft, .refl, (notes.ends draft.project).carryOut_eq.2⟩
  | statements source targets =>
      have notes : Every Edit.IsNote (graph.perform runtimeId (.statements source targets)) :=
        Every.bind (graph.statements_notes source targets) fun _ => Every.pure
      exact ⟨draft, .refl, (notes.ends draft.project).carryOut_eq.2⟩

/-- So does every run of operations. -/
theorem performAll_steps (operations : List Operation) (draft : Draft) :
    ∃ next, ReflTransGen (graph.Step runtimeId) draft next ∧
      graph.performAll runtimeId draft.project operations = next.project := by
  induction operations generalizing draft with
  | nil => exact ⟨draft, .refl, rfl⟩
  | cons operation operations ih =>
      obtain ⟨middle, reached, left⟩ := keyed.perform_steps operation draft
      obtain ⟨next, further, done⟩ := ih middle
      refine ⟨next, reached.trans further, ?_⟩
      rw [performAll_cons, left, done]

end Keyed

end Graph

end CloudGraph
