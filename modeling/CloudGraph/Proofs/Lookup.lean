import CloudGraph.Proofs.Loaded

/-!
# What a visit looks up

The lookups that a node needs, in order, and why each of them fails. `Node.lookups` lists
them by the kind of the node: which ends of edges are looked up, and whether for the node
alone, for its rule or as the target of an action. `Graph.fault?` is the first failure.

The lemmas say that the lookups of a graph come to the same: `Graph.node`,
`Graph.kindOf` and `Graph.lastOfKind` fail exactly as the lookups do.
-/

namespace CloudGraph

/-- A lookup of the node of an id, and what it is looked up for. -/
inductive Lookup where
  /-- For its type alone, whatever that is. -/
  | type (id : String)
  /-- For the rule of its type. -/
  | rule (id : String)
  /-- As the target of an action, which has to be a function or a topic rule. -/
  | target (id : String)
  deriving DecidableEq

/-- The texts among some values. -/
def textsIn (values : List Value) : List String :=
  values.filterMap fun value =>
    match value with
    | .atom (.text text) => some text
    | _ => none

/-- The kind that a node's type names. -/
def Node.kind? (node : Node) : Option Kind :=
  match node.type with
  | .atom (.text name) => Kind.ofName? name
  | _ => none

/-- The type of a node is the name of a kind. -/
def Node.IsOf (node : Node) (kind : Kind) : Prop :=
  node.type = .text kind.name

/-- The lookups of a node of a kind, in order. Kinds that are not named look nothing up. -/
def Node.lookups (node : Node) : Kind → List Lookup
  | .function => (textsIn node.sources ++ textsIn node.targets).map .rule
  | .identityPool => (textsIn node.targets).map .rule
  | .topicRule => (textsIn node.targets).map .target
  | .deliveryStream => (textsIn node.targets).map .type
  | .analyticsStream => (textsIn node.sources ++ textsIn node.targets).map .type
  | .bucket | .table | .api | .stream | .schedule | .topic | .stepFunction => []

/-- A value, unless there is a fault. -/
def unlessFault {α : Type} (fault? : Option Fault) (value : α) : Except Fault α :=
  match fault? with
  | some fault => .error fault
  | none => .ok value

namespace Graph

variable (graph : Graph)

/-- The node of an id. -/
def named? (id : String) : Option Node :=
  graph.nodeList.find? fun node => node.id = .text id

/-- Whether an id is that of a node of a kind. -/
def isOfKind (kind : Kind) (id : Value) : Bool :=
  match graph.kindOf id with
  | .ok found => found = kind
  | .error _ => false

/-- The last of some ids that is that of a node of a kind. -/
def lastOf? (kind : Kind) (ids : List Value) : Option Value :=
  (ids.filter (graph.isOfKind kind)).getLast?

/-- Why a lookup for a node fails, if it does. -/
def lookupFault? (node : Node) : Lookup → Option Fault
  | .type id =>
    match graph.named? id with
    | none => some (.missingKey (.text id))
    | some _ => none
  | .rule id =>
    match graph.named? id with
    | none => some (.missingKey (.text id))
    | some found => if found.kind?.isSome then none else some (.defect (.noRule found.type))
  | .target id =>
    match graph.named? id with
    | none => some (.missingKey (.text id))
    | some found =>
      if found.kind? = some .function ∨ found.kind? = some .topicRule then none
      else some (.problem (.unsupportedTarget (.atom node.id) (.text id) found.type))

/-- Why the first of some lookups that fails does so. -/
def firstFault? (node : Node) (lookups : List Lookup) : Option Fault :=
  lookups.findSome? (graph.lookupFault? node)

/-- Why the visit of a node fails, if it does: its type names no kind, or the first of its
lookups that fails. -/
def fault? (node : Node) : Option Fault :=
  match node.kind? with
  | none => some (.defect (.noRule node.type))
  | some kind => graph.firstFault? node (node.lookups kind)

@[simp]
theorem firstFault?_nil (node : Node) : graph.firstFault? node [] = none := rfl

theorem firstFault?_cons (node : Node) (lookup : Lookup) (lookups : List Lookup) :
    graph.firstFault? node (lookup :: lookups) =
      (graph.lookupFault? node lookup).or (graph.firstFault? node lookups) := by
  unfold firstFault?
  cases failed : graph.lookupFault? node lookup <;> simp [failed]

theorem firstFault?_append (node : Node) (first second : List Lookup) :
    graph.firstFault? node (first ++ second) =
      (graph.firstFault? node first).or (graph.firstFault? node second) := by
  simp [firstFault?, List.findSome?_append]

end Graph

@[simp]
theorem textsIn_nil : textsIn [] = [] := rfl

@[simp]
theorem textsIn_cons_text (text : String) (values : List Value) :
    textsIn (.text text :: values) = text :: textsIn values := rfl

theorem Kind.ofName?_eq_some_iff {name : String} {kind : Kind} :
    Kind.ofName? name = some kind ↔ name = kind.name := by
  constructor
  · intro found
    unfold Kind.ofName? at found
    have named := List.find?_some found
    exact (beq_iff_eq.1 named).symm
  · rintro rfl
    exact Kind.ofName?_name kind

theorem Kind.name_injective {first second : Kind} (equal : first.name = second.name) :
    first = second := by
  have found := Kind.ofName?_name first
  rw [equal, Kind.ofName?_name] at found
  exact (Option.some.inj found).symm

theorem Node.kind?_eq_some_iff {node : Node} {kind : Kind} :
    node.kind? = some kind ↔ node.IsOf kind := by
  unfold Node.kind? Node.IsOf
  split
  next name typeEq => rw [typeEq, Kind.ofName?_eq_some_iff]; simp
  next other =>
    constructor
    · intro found
      cases found
    · intro typeEq
      exact absurd typeEq (other _)

/-- A type names a kind exactly when it is the kind of the node. -/
theorem Node.isNamedBy_iff {node : Node} {kind : Kind} :
    kind.isNamedBy node.type = true ↔ node.kind? = some kind := by
  rw [Node.kind?_eq_some_iff, Node.IsOf]
  unfold Kind.isNamedBy
  split
  next name typeEq => rw [typeEq]; simp
  next other =>
    constructor
    · intro named
      cases named
    · intro typeEq
      exact absurd typeEq (other _)

theorem Kind.ofValue_eq_ok_iff {type : Value} {kind : Kind} :
    Kind.ofValue type = .ok kind ↔ type = .text kind.name := by
  unfold Kind.ofValue
  split
  next name =>
    cases named : Kind.ofName? name with
    | none =>
        have different : name ≠ kind.name := fun equal => by
          rw [equal, Kind.ofName?_name] at named
          cases named
        simp [different]
    | some other =>
        rw [Kind.ofName?_eq_some_iff] at named
        simp only [named, Except.ok.injEq, Value.atom.injEq, Atom.text.injEq]
        exact ⟨congrArg Kind.name, Kind.name_injective⟩
  next scalar other => simpa using fun typeEq => other _ typeEq
  next other _ => simpa using fun typeEq => other _ typeEq

theorem Node.ofValue_of_no_kind {node : Node} {type : String} (typeEq : node.type = .text type)
    (none : node.kind? = none) : Kind.ofValue node.type = .error (.defect (.noRule node.type)) := by
  have unnamed : Kind.ofName? type = Option.none := by simpa [Node.kind?, typeEq] using none
  simp [typeEq, Kind.ofValue, unnamed]

namespace Graph

theorem isOfKind_unique {graph : Graph} {first second : Kind} {id : Value}
    (isFirst : graph.isOfKind first id = true) (isSecond : graph.isOfKind second id = true) :
    first = second := by
  unfold isOfKind at isFirst isSecond
  cases kindOf : graph.kindOf id with
  | error fault => simp [kindOf] at isFirst
  | ok kind =>
      simp only [kindOf, decide_eq_true_eq] at isFirst isSecond
      exact isFirst.symm.trans isSecond

theorem lastOf?_eq_none_iff {graph : Graph} {kind : Kind} {ids : List Value} :
    graph.lastOf? kind ids = none ↔ ∀ id ∈ ids, ¬graph.isOfKind kind id = true := by
  rw [lastOf?, List.getLast?_eq_none_iff, List.filter_eq_nil_iff]

theorem of_lastOf? {graph : Graph} {kind : Kind} {ids : List Value} {id : Value}
    (last : graph.lastOf? kind ids = some id) : id ∈ ids ∧ graph.isOfKind kind id = true :=
  List.mem_filter.1 (List.mem_of_getLast? last)

theorem exists_text_of_lastOf? {graph : Graph} {kind : Kind} {ids : List Value} {id : Value}
    (texts : ∀ id ∈ ids, ∃ name, id = .text name) (last : graph.lastOf? kind ids = some id) :
    ∃ name, id = .text name :=
  texts id (of_lastOf? last).1

namespace Proper

variable {graph : Graph} (proper : graph.Proper) {node found : Node} {id : String}

include proper

theorem named?_iff : graph.named? id = some node ↔ node ∈ graph.nodeList ∧ node.id = .text id := by
  constructor
  · intro named
    exact ⟨List.mem_of_find?_eq_some named, by simpa using List.find?_some named⟩
  · rintro ⟨member, idEq⟩
    cases named : graph.named? id with
    | none =>
        have unnamed := List.find?_eq_none.1 named node member
        simp [idEq] at unnamed
    | some other =>
        have otherMember : other ∈ graph.nodeList := List.mem_of_find?_eq_some named
        have otherId : other.id = .text id := by simpa using List.find?_some named
        have found := proper.find?_iff.2 ⟨member, idEq⟩
        rw [proper.find?_iff.2 ⟨otherMember, otherId⟩] at found
        exact found

/-- A lookup finds the node that has the id, or tells that the id is missing. -/
theorem node_text : graph.node (.text id) =
    match graph.named? id with
    | some node => .ok node
    | none => .error (.missingKey (.text id)) := by
  have same : Entries.find? Atom.same graph.nodes (.text id) = graph.named? id := by
    apply Option.ext
    intro node
    rw [proper.find?_iff, proper.named?_iff]
  cases named : graph.named? id <;> simp [Graph.node, same, named]

theorem node_of_named (named : graph.named? id = some found) :
    graph.node (.text id) = .ok found := by
  simp [proper.node_text, named]

theorem typeOf_of_named (named : graph.named? id = some found) :
    graph.typeOf (.text id) = .ok found.type := by
  simp [typeOf, proper.node_of_named named, bind, Except.bind, pure, Except.pure]

theorem typeOf_of_missing (missing : graph.named? id = none) :
    graph.typeOf (.text id) = .error (.missingKey (.text id)) := by
  simp [typeOf, proper.node_text, missing, bind, Except.bind]

/-- The kind of an id is that of the node which has the id. -/
theorem kindOf_iff {kind : Kind} : graph.kindOf (.text id) = .ok kind ↔
    ∃ node, graph.named? id = some node ∧ node.kind? = some kind := by
  cases named : graph.named? id with
  | none => simp [kindOf, proper.typeOf_of_missing named, bind, Except.bind]
  | some found =>
      simp only [kindOf, proper.typeOf_of_named named, bind, Except.bind, Option.some.injEq,
        exists_eq_left']
      rw [Kind.ofValue_eq_ok_iff, Node.kind?_eq_some_iff]
      rfl

/-- A lookup for a rule fails as the lookup of the kind does. -/
theorem kindOf_of_fault {fault : Fault} (typed : graph.Typed)
    (failed : graph.lookupFault? node (.rule id) = some fault) :
    graph.kindOf (.text id) = .error fault := by
  unfold lookupFault? at failed
  cases named : graph.named? id with
  | none =>
      simp only [named, Option.some.injEq] at failed
      simp [kindOf, proper.typeOf_of_missing named, failed, bind, Except.bind]
  | some found =>
      obtain ⟨type, typeEq⟩ := typed found (proper.named?_iff.1 named).1
      cases kindEq : found.kind? with
      | some kind => simp [named, kindEq] at failed
      | none =>
          simp only [named, kindEq, Option.isSome_none, Bool.false_eq_true, if_false,
            Option.some.injEq] at failed
          simp [kindOf, proper.typeOf_of_named named, Node.ofValue_of_no_kind typeEq kindEq, failed,
            bind, Except.bind]

theorem kindOf_of_clear (clear : graph.lookupFault? node (.rule id) = none) :
    ∃ kind, graph.kindOf (.text id) = .ok kind := by
  unfold lookupFault? at clear
  cases named : graph.named? id with
  | none => simp [named] at clear
  | some found =>
      cases kindEq : found.kind? with
      | none => simp [named, kindEq] at clear
      | some kind => exact ⟨kind, proper.kindOf_iff.2 ⟨found, named, kindEq⟩⟩

theorem isOfKind_iff {kind : Kind} : graph.isOfKind kind (.text id) = true ↔
    ∃ node, graph.named? id = some node ∧ node.kind? = some kind := by
  rw [← proper.kindOf_iff]
  unfold isOfKind
  cases graph.kindOf (.text id) with
  | ok other => simp
  | error fault => simp

/-- An id is that of a node of a kind exactly when such a node is there. -/
theorem isOfKind_iff_isOf {kind : Kind} {id : String} : graph.isOfKind kind (.text id) = true ↔
    ∃ found ∈ graph.nodeList, found.id = .text id ∧ found.IsOf kind := by
  rw [proper.isOfKind_iff]
  constructor
  · rintro ⟨found, named, kindEq⟩
    obtain ⟨member, idEq⟩ := proper.named?_iff.1 named
    exact ⟨found, member, idEq, Node.kind?_eq_some_iff.1 kindEq⟩
  · rintro ⟨found, member, idEq, isOf⟩
    exact ⟨found, proper.named?_iff.2 ⟨member, idEq⟩, Node.kind?_eq_some_iff.2 isOf⟩

theorem isNamedBy_type {kind : Kind} (named : graph.named? id = some found) :
    kind.isNamedBy found.type = graph.isOfKind kind (.text id) := by
  rw [Bool.eq_iff_iff, Node.isNamedBy_iff, proper.isOfKind_iff, named]
  simp

/-- The last of some ids of a kind is looked up by looking every id up in turn. -/
theorem lastOfKind_eq (kind : Kind) (ids : List Value)
    (texts : ∀ id ∈ ids, ∃ name, id = .text name) :
    graph.lastOfKind kind ids =
      unlessFault (graph.firstFault? node ((textsIn ids).map .type)) (graph.lastOf? kind ids) := by
  have step : ∀ (ids : List Value) (earlier : Option Value), (∀ id ∈ ids, ∃ name, id = .text name) →
      ids.foldlM (fun found id => do
          return if kind.isNamedBy (← graph.typeOf id) then present? id else found) earlier =
        unlessFault (graph.firstFault? node ((textsIn ids).map .type))
          ((graph.lastOf? kind ids).or earlier) := by
    intro ids
    induction ids with
    | nil => intro earlier _; rfl
    | cons id ids ih =>
        intro earlier texts
        obtain ⟨name, rfl⟩ := texts id List.mem_cons_self
        have ih := fun earlier => ih earlier fun id member =>
          texts id (List.mem_cons_of_mem _ member)
        cases named : graph.named? name with
        | none =>
            simp [proper.typeOf_of_missing named, textsIn, firstFault?, lookupFault?, named,
              unlessFault, bind, Except.bind]
        | some found =>
            have clear : graph.lookupFault? node (.type name) = none := by
              simp [lookupFault?, named]
            rw [textsIn_cons_text, List.map_cons, graph.firstFault?_cons, clear, Option.none_or,
              List.foldlM_cons]
            simp only [proper.typeOf_of_named named, bind, Except.bind, pure, Except.pure,
              proper.isNamedBy_type named] at ih ⊢
            rw [ih]
            by_cases isKind : graph.isOfKind kind (.text name) = true
            · simp [lastOf?, isKind, present?, List.getLast?_cons]
            · simp [lastOf?, isKind]
  have whole := step ids none texts
  rw [Option.or_none] at whole
  exact whole

end Proper

end Graph

end CloudGraph
