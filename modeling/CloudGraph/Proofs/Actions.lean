import CloudGraph.Proofs.Failure

/-!
# What topic rules store

A topic rule stores itself again with each action, and a role for each topic rule that it
leads to. `Graph.ActionStores` says what this can be; which edges come first does not matter
to it. `Graph.actionResources_split` says that no role is left out or replaced.
-/

namespace CloudGraph

open Fragment

namespace Graph

variable (graph : Graph)

/-- The action that an edge to a target makes. -/
inductive ActionOf (target : Value) : Value → Prop where
  | invoke (isFunction : graph.isOfKind .function target = true) :
      ActionOf target (invokeAction target)
  | republish (isRule : graph.isOfKind .topicRule target = true) :
      ActionOf target (republishAction (target.plain ++ "PublishRole"))

/-- What edges from a topic rule to some targets store: the rule with actions, and roles. -/
inductive ActionStores (node : Node) (targets : List Value) : Atom × Value → Prop where
  | rule {actions} (each : ∀ action ∈ actions, ∃ target ∈ targets, graph.ActionOf target action) :
      ActionStores node targets (node.id, topicRuleResource node.description actions)
  | role {target} (member : target ∈ targets) (isRule : graph.isOfKind .topicRule target = true) :
      ActionStores node targets (.text (target.plain ++ "PublishRole"), republishRole outputTopics)

variable {graph}

theorem ActionStores.key {node : Node} {targets : List Value} {pair : Atom × Value}
    (stores : graph.ActionStores node targets pair) :
    pair.1 = node.id ∨ ∃ target ∈ targets, graph.isOfKind .topicRule target = true ∧
      pair.1 = .text (target.plain ++ "PublishRole") := by
  cases stores with
  | rule => exact .inl rfl
  | role member isRule => exact .inr ⟨_, member, isRule, rfl⟩

theorem actionStores_of_mem_ruleStored {node : Node} {whole actions : List Value} {stored : Bool}
    {pair : Atom × Value}
    (each : ∀ action ∈ actions, ∃ target ∈ whole, graph.ActionOf target action)
    (member : pair ∈ ruleStored node stored actions) : graph.ActionStores node whole pair := by
  cases stored with
  | false => simp [ruleStored] at member
  | true =>
      rw [ruleStored, if_pos rfl, List.mem_singleton] at member
      exact member ▸ .rule each

theorem actionStores_of_mem {node : Node} {whole actions targets : List Value} {stored : Bool}
    {pair : Atom × Value} (part : ∀ target ∈ targets, target ∈ whole)
    (each : ∀ action ∈ actions, ∃ target ∈ whole, graph.ActionOf target action)
    (member : pair ∈ graph.actionResources node stored actions targets) :
    graph.ActionStores node whole pair := by
  induction targets generalizing stored actions with
  | nil => simp [actionResources] at member
  | cons target targets ih =>
      have inWhole := part target List.mem_cons_self
      have part : ∀ target ∈ targets, target ∈ whole :=
        fun target later => part target (List.mem_cons_of_mem _ later)
      have more : ∀ {action}, graph.ActionOf target action →
          ∀ any ∈ actions ++ [action], ∃ target ∈ whole, graph.ActionOf target any := by
        intro action own any anyMember
        rcases List.mem_append.1 anyMember with old | new
        · exact each any old
        · exact ⟨target, inWhole, List.mem_singleton.1 new ▸ own⟩
      by_cases isFunction : graph.isOfKind .function target = true
      · have each := more (.invoke isFunction)
        rw [actionResources_of_function isFunction] at member
        rcases List.mem_append.1 member with own | later
        · exact actionStores_of_mem_ruleStored each own
        · exact ih part each later
      · by_cases isRule : graph.isOfKind .topicRule target = true
        · have each := more (.republish isRule)
          rw [actionResources_of_rule isRule] at member
          rcases List.mem_append.1 member with own | other
          · exact actionStores_of_mem_ruleStored each own
          · rcases List.mem_cons.1 other with role | later
            · exact role ▸ .role inWhole isRule
            · exact ih part each later
        · rw [actionResources_of_neither isFunction isRule] at member
          cases member

/-- Edges out of a topic rule that no longer is stored write roles alone. -/
theorem eq_role_of_mem {node : Node} {stored : Bool} {key : Atom}
    (gone : stored = true → node.id ≠ key) {actions targets : List Value} {pair : Atom × Value}
    (member : pair ∈ graph.actionResources node stored actions targets) (keyEq : pair.1 = key) :
    pair.2 = republishRole outputTopics := by
  induction targets generalizing stored actions with
  | nil => simp [actionResources] at member
  | cons target targets ih =>
      have notOwn : ∀ {actions}, pair ∉ ruleStored node stored actions := by
        intro actions own
        cases stored with
        | false => simp [ruleStored] at own
        | true =>
            rw [ruleStored, if_pos rfl, List.mem_singleton] at own
            rw [own] at keyEq
            exact gone rfl keyEq
      by_cases isFunction : graph.isOfKind .function target = true
      · rw [actionResources_of_function isFunction] at member
        exact ih gone ((List.mem_append.1 member).resolve_left notOwn)
      · by_cases isRule : graph.isOfKind .topicRule target = true
        · rw [actionResources_of_rule isRule] at member
          rcases List.mem_cons.1 ((List.mem_append.1 member).resolve_left notOwn) with role | later
          · rw [role]
          · refine ih (fun still => gone ?_) later
            rw [Bool.and_eq_true] at still
            exact still.1
        · rw [actionResources_of_neither isFunction isRule] at member
          cases member

/-- Every topic rule among the targets gets its role, when no target is in the way, and
nothing else is written in the place of the role afterwards. -/
theorem actionResources_split (node : Node) (stored : Bool) (actions : List Value)
    {targets : List Value} (kinds : ∀ target ∈ targets,
      graph.isOfKind .function target = true ∨ graph.isOfKind .topicRule target = true)
    {target : Value} (member : target ∈ targets)
    (isRule : graph.isOfKind .topicRule target = true) :
    ∃ earlier later, graph.actionResources node stored actions targets =
        earlier ++ (.text (target.plain ++ "PublishRole"), republishRole outputTopics) :: later ∧
      ∀ pair ∈ later, pair.1 = .text (target.plain ++ "PublishRole") →
        pair.2 = republishRole outputTopics := by
  induction targets generalizing stored actions with
  | nil => simp at member
  | cons head targets ih =>
      have ih := fun stored actions later => ih stored actions
        (fun target later => kinds target (List.mem_cons_of_mem _ later)) later
      rcases List.mem_cons.1 member with rfl | later
      · rw [actionResources_of_rule isRule]
        refine ⟨_, _, rfl, fun pair pairMember => eq_role_of_mem (fun still equal => ?_) pairMember⟩
        simp [equal, Atom.same_self] at still
      · rcases kinds head List.mem_cons_self with isFunction | headRule
        · rw [actionResources_of_function isFunction]
          obtain ⟨earlier, rest, split, repeated⟩ :=
            ih stored (actions ++ [invokeAction head]) later
          refine ⟨ruleStored node stored (actions ++ [invokeAction head]) ++ earlier,
            rest, ?_, repeated⟩
          rw [List.append_assoc, ← split]
        · rw [actionResources_of_rule headRule]
          obtain ⟨earlier, rest, split, repeated⟩ :=
            ih (stored && !Atom.same node.id (.text (head.plain ++ "PublishRole")))
              (actions ++ [republishAction (head.plain ++ "PublishRole")]) later
          refine ⟨ruleStored node stored
            (actions ++ [republishAction (head.plain ++ "PublishRole")]) ++
            (.text (head.plain ++ "PublishRole"), republishRole outputTopics) :: earlier,
            rest, ?_, repeated⟩
          rw [List.append_assoc, List.cons_append, ← split]

end Graph

namespace Graph.Proper

variable {graph : Graph} (proper : graph.Proper) {node : Node}

include proper

/-- The targets of a topic rule without a fault are functions and topic rules. -/
theorem target_kinds (member : node ∈ graph.nodeList) (isRule : node.IsOf .topicRule)
    (clear : graph.fault? node = none) : ∀ target ∈ node.targets,
      graph.isOfKind .function target = true ∨ graph.isOfKind .topicRule target = true := by
  intro target leads
  obtain ⟨id, rfl⟩ := proper.targets_text member target leads
  have looked := lookupFault?_of_clear clear isRule (Node.target_mem_lookups.2 ⟨rfl, leads⟩)
  obtain ⟨found, named⟩ := proper.has_iff.1 (proper.has_of_clear looked)
  rw [Lookup.id] at named
  rw [proper.targetFault?_of_named named] at looked
  by_contra neither
  rw [if_neg neither] at looked
  cases looked

end Graph.Proper

end CloudGraph
