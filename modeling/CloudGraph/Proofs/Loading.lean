import CloudGraph.Proofs.Anchors
import CloudGraph.Proofs.JsonValues
import CloudGraph.Proofs.Operations
import CloudGraph.Proofs.Unions

/-!
# Which models are loaded

Reading a model goes through the values that it gives for its nodes from left to right, and stops
at the first one that is no node. `Node.Refused` says of which values that is and why, and
`Node.Reads` which node any other value is read as; between them they cover all JSON. From them,
`Graph.ofValue_accepts` tells for every JSON value whether it is loaded, the fault when it is not,
and the graph when it is: its ids in the order in which they first occur, each with the last node
that was given for it. A model file holds nothing but JSON (`Json.isJson_of_read`).
-/

namespace CloudGraph

namespace Value

/-- The elements that a value has when it is gone through: those of a list, the keys of an object,
the characters of a text. -/
inductive Elements : Value → List Value → Prop
  | list (items : List Value) : Elements (.list items) items
  | object (entries : List (Atom × Value)) :
      Elements (.map entries) (entries.map fun entry => .atom entry.1)
  | text (text : String) :
      Elements (.text text) (text.toList.map fun c => .text (String.singleton c))

/-- A scalar that cannot be gone through: null, a truth value or a number. -/
def IsPoint (value : Value) : Prop :=
  value = .null ∨ (∃ truth, value = .bool truth) ∨ (∃ number, value = .int number) ∨
    ∃ number, value = .atom (.float number)

theorem elements?_eq_some_iff {value : Value} (json : value.isJson = true) {items : List Value} :
    value.elements? = some items ↔ Elements value items := by
  constructor
  · intro found
    cases value with
    | atom scalar =>
        cases scalar <;> cases found
        exact .text _
    | list items =>
        cases found
        exact .list _
    | map entries =>
        cases found
        exact .object _
    | shared part => cases json
  · rintro (_ | _ | _) <;> rfl

theorem elements?_eq_none_iff {value : Value} (json : value.isJson = true) :
    value.elements? = none ↔ IsPoint value := by
  cases value with
  | atom scalar => cases scalar <;> simp_all [elements?, IsPoint, isJson]
  | list items => simp [elements?, IsPoint]
  | map entries => simp [elements?, IsPoint]
  | shared part => cases json

end Value

namespace Node

/-- The ends of edges that a node lists under a name, none if the name is absent. -/
inductive Ends (item : Value) (name : String) : List Value → Prop
  | absent (absent : item.field? name = none) : Ends item name []
  | listed {ids : Value} {ends : List Value} (held : item.field? name = some ids)
      (elements : ids.Elements ends) : Ends item name ends

/-- The node that a value is read as. -/
structure Reads (item : Value) (node : Node) : Prop where
  id : item.field? "id" = some (.atom node.id)
  type : item.field? "type" = some node.type
  /-- A description counts when it is neither absent nor empty or null. -/
  description : item.field? "description" = some node.description ∧ node.description.truthy = true ∨
    (∀ description, item.field? "description" = some description → description.truthy = false) ∧
      node.description = .text ""
  sources : Ends item "from" node.sources
  targets : Ends item "to" node.targets

/-- Why a value is no node. A missing id comes before a missing type, and both come before the
other reasons. -/
inductive Refused (item : Value) : Fault → Prop
  | notObject (other : ∀ entries, item ≠ .map entries) :
      Refused item (.problem (.nodeNotObject item))
  | noId {entries : List (Atom × Value)} (isObject : item = .map entries)
      (absent : item.field? "id" = none) : Refused item (.problem (.nodeWithout item "id"))
  | noType {id : Value} (held : item.field? "id" = some id)
      (absent : item.field? "type" = none) : Refused item (.problem (.nodeWithout item "type"))
  | badEnds {id type ids : Value} (held : item.field? "id" = some id)
      (typed : item.field? "type" = some type) (name : String)
      (isEnd : name = "from" ∨ name = "to") (listed : item.field? name = some ids)
      (point : ids.IsPoint) : Refused item .wrongKind
  | badId {id type : Value} (held : item.field? "id" = some id)
      (typed : item.field? "type" = some type)
      (bad : (∃ items, id = .list items) ∨ ∃ entries, id = .map entries) : Refused item .wrongKind

theorem idsIn_eq_ok_iff {item : Value} (json : item.isJson = true) {name : String}
    {ends : List Value} : item.idsIn name = .ok ends ↔ Ends item name ends := by
  unfold Value.idsIn
  cases held : item.field? name with
  | none =>
      constructor
      · rintro ⟨⟩
        exact .absent held
      · rintro (_ | ⟨other, _⟩)
        · rfl
        · rw [held] at other
          cases other
  | some ids =>
      have elements : ∀ items, ids.elements? = some items ↔ ids.Elements items :=
        fun _ => Value.elements?_eq_some_iff (Value.isJson_of_field? json held)
      constructor
      · intro listed
        cases given : ids.elements? with
        | none => simp [given] at listed
        | some items =>
            obtain rfl : items = ends := by simpa [given] using listed
            exact .listed held ((elements _).1 given)
      · rintro (absent | ⟨other, isListed⟩)
        · rw [held] at absent
          cases absent
        · obtain rfl := Option.some.inj (held.symm.trans other)
          simp [(elements _).2 isListed]

theorem idsIn_eq_error_iff {item : Value} (json : item.isJson = true) {name : String}
    {fault : Fault} : item.idsIn name = .error fault ↔
      fault = .wrongKind ∧ ∃ ids, item.field? name = some ids ∧ ids.IsPoint := by
  unfold Value.idsIn
  cases held : item.field? name with
  | none => simp
  | some ids =>
      have points := Value.elements?_eq_none_iff (Value.isJson_of_field? json held)
      cases given : ids.elements? <;> simp [← points, given, eq_comm]

/-- The description that a value gives, empty unless it counts. -/
def describedBy (item : Value) : Value :=
  let described := (item.field? "description").getD .null
  if described.truthy then described else .text ""

theorem describedBy_eq_iff {item description : Value} :
    description = describedBy item ↔
      item.field? "description" = some description ∧ description.truthy = true ∨
        (∀ description, item.field? "description" = some description →
          description.truthy = false) ∧ description = .text "" := by
  unfold describedBy
  cases held : item.field? "description" with
  | none => simp [Value.truthy]
  | some described =>
      cases counts : described.truthy with
      | true =>
          rw [Option.getD_some, if_pos counts]
          constructor
          · rintro rfl
            exact .inl ⟨rfl, counts⟩
          · rintro (⟨same, _⟩ | ⟨idle, _⟩)
            · exact (Option.some.inj same).symm
            · rw [idle described rfl] at counts
              cases counts
      | false =>
          rw [Option.getD_some, if_neg (by simp [counts])]
          constructor
          · rintro rfl
            refine .inr ⟨fun other same => ?_, rfl⟩
            rw [← Option.some.inj same, counts]
          · rintro (⟨same, truthy⟩ | ⟨_, empty⟩)
            · rw [← Option.some.inj same, counts] at truthy
              cases truthy
            · exact empty

/-- With an id and a type, only the ends of edges and the kind of the id can be refused. -/
theorem ofValue_of_held {item id type : Value} (held : item.field? "id" = some id)
    (typed : item.field? "type" = some type) :
    Node.ofValue item = (do
      let sources ← item.idsIn "from"
      let targets ← item.idsIn "to"
      match id with
      | .atom id => return ⟨id, type, describedBy item, sources, targets⟩
      | _ => throw .wrongKind) := by
  cases item with
  | map entries =>
      simp only [Node.ofValue, held, typed]
      rfl
  | atom | list | shared => cases held

section Json

variable {item : Value} {node : Node} {fault : Fault} (json : item.isJson = true)

include json

theorem ofValue_of_reads (reads : Reads item node) : Node.ofValue item = .ok node := by
  have described := describedBy_eq_iff.2 reads.description
  rw [ofValue_of_held reads.id reads.type, (idsIn_eq_ok_iff json).2 reads.sources,
    (idsIn_eq_ok_iff json).2 reads.targets, ← described]
  rfl

theorem ofValue_of_refused (refused : Refused item fault) : Node.ofValue item = .error fault := by
  cases refused with
  | notObject other =>
      cases item with
      | map entries => exact absurd rfl (other entries)
      | atom | list | shared => rfl
  | noId isObject absent =>
      subst isObject
      simp only [Node.ofValue, absent]
      rfl
  | noType held absent =>
      cases item with
      | map entries =>
          simp only [Node.ofValue, held, absent]
          rfl
      | atom | list | shared => cases held
  | badEnds held typed name isEnd listed point =>
      rw [ofValue_of_held held typed]
      have bad : item.idsIn name = .error .wrongKind :=
        (idsIn_eq_error_iff json).2 ⟨rfl, _, listed, point⟩
      cases sources : item.idsIn "from" with
      | error other =>
          rw [((idsIn_eq_error_iff json).1 sources).1]
          rfl
      | ok ends =>
          rcases isEnd with rfl | rfl
          · rw [sources] at bad
            cases bad
          · rw [bad]
            rfl
  | @badId id type held typed bad =>
      rw [ofValue_of_held held typed]
      cases sources : item.idsIn "from" with
      | error other =>
          rw [((idsIn_eq_error_iff json).1 sources).1]
          rfl
      | ok ends =>
          cases targets : item.idsIn "to" with
          | error other =>
              rw [((idsIn_eq_error_iff json).1 targets).1]
              rfl
          | ok more =>
              rcases bad with ⟨items, rfl⟩ | ⟨entries, rfl⟩ <;> rfl

/-- A JSON value is read as a node or refused. -/
theorem reads_or_refused : (∃ node, Reads item node) ∨ ∃ fault, Refused item fault := by
  cases item with
  | map entries =>
      generalize isObject : Value.map entries = item at json
      cases held : item.field? "id" with
      | none => exact .inr ⟨_, .noId isObject.symm held⟩
      | some id =>
          cases typed : item.field? "type" with
          | none => exact .inr ⟨_, .noType held typed⟩
          | some type =>
              cases sources : item.idsIn "from" with
              | error fault =>
                  obtain ⟨-, ids, listed, point⟩ := (idsIn_eq_error_iff json).1 sources
                  exact .inr ⟨_, .badEnds held typed "from" (.inl rfl) listed point⟩
              | ok into =>
                  cases targets : item.idsIn "to" with
                  | error fault =>
                      obtain ⟨-, ids, listed, point⟩ := (idsIn_eq_error_iff json).1 targets
                      exact .inr ⟨_, .badEnds held typed "to" (.inr rfl) listed point⟩
                  | ok out =>
                      cases id with
                      | atom id =>
                          exact .inl ⟨⟨id, type, describedBy item, into, out⟩, held, typed,
                            describedBy_eq_iff.1 rfl, (idsIn_eq_ok_iff json).1 sources,
                            (idsIn_eq_ok_iff json).1 targets⟩
                      | list items => exact .inr ⟨_, .badId held typed (.inl ⟨items, rfl⟩)⟩
                      | map entries => exact .inr ⟨_, .badId held typed (.inr ⟨entries, rfl⟩)⟩
                      | shared part => cases Value.isJson_of_field? json held
  | atom | list | shared => exact .inr ⟨_, .notObject (by simp)⟩

theorem ofValue_eq_ok_iff : Node.ofValue item = .ok node ↔ Reads item node := by
  refine ⟨fun read => ?_, ofValue_of_reads json⟩
  rcases reads_or_refused json with ⟨other, reads⟩ | ⟨fault, refused⟩
  · rw [ofValue_of_reads json reads] at read
    exact Except.ok.inj read ▸ reads
  · rw [ofValue_of_refused json refused] at read
    cases read

theorem ofValue_eq_error_iff : Node.ofValue item = .error fault ↔ Refused item fault := by
  refine ⟨fun read => ?_, ofValue_of_refused json⟩
  rcases reads_or_refused json with ⟨node, reads⟩ | ⟨other, refused⟩
  · rw [ofValue_of_reads json reads] at read
    cases read
  · rw [ofValue_of_refused json refused] at read
    exact Except.error.inj read ▸ refused

end Json

end Node

section Sequence

variable {ε α β : Type} {f : α → Except ε β} {items : List α} {error : ε}

theorem mapM_cons_of_ok {item : α} {result : β} (first : f item = .ok result) :
    (item :: items).mapM f = (items.mapM f).map (result :: ·) := by
  rw [List.mapM_cons, first]
  cases items.mapM f <;> rfl

theorem mapM_cons_of_error {item : α} (first : f item = .error error) :
    (item :: items).mapM f = .error error := by
  rw [List.mapM_cons, first]
  rfl

theorem mapM_eq_ok_iff {results : List β} :
    items.mapM f = .ok results ↔
      List.Forall₂ (fun item result => f item = .ok result) items results := by
  induction items generalizing results with
  | nil => cases results <;> simp [List.mapM_nil, pure, Except.pure]
  | cons item items ih =>
      cases first : f item with
      | error error =>
          rw [mapM_cons_of_error first]
          refine iff_of_false (fun done => by cases done) ?_
          rintro (_ | ⟨done, _⟩)
          rw [first] at done
          cases done
      | ok result =>
          rw [mapM_cons_of_ok first]
          constructor
          · intro done
            cases rest : items.mapM f with
            | error error =>
                rw [rest] at done
                cases done
            | ok others =>
                rw [rest] at done
                exact Except.ok.inj done ▸ .cons first (ih.1 rest)
          · rintro (_ | ⟨done, rest⟩)
            obtain rfl := Except.ok.inj (first.symm.trans done)
            rw [ih.2 rest]
            rfl

/-- Going through items in order fails at the first one that fails. -/
theorem mapM_eq_error_iff :
    items.mapM f = .error error ↔ ∃ before item after, items = before ++ item :: after ∧
      (∀ earlier ∈ before, ∃ result, f earlier = .ok result) ∧ f item = .error error := by
  constructor
  · intro fails
    induction items with
    | nil => cases fails
    | cons item items ih =>
        cases first : f item with
        | error other =>
            rw [mapM_cons_of_error first] at fails
            exact ⟨[], item, items, rfl, by simp,
              first.trans (congrArg _ (Except.error.inj fails))⟩
        | ok result =>
            rw [mapM_cons_of_ok first] at fails
            have restFails : items.mapM f = .error error := by
              cases rest : items.mapM f <;> rw [rest] at fails <;> cases fails
              rfl
            obtain ⟨before, bad, after, rfl, fine, badFails⟩ := ih restFails
            exact ⟨item :: before, bad, after, rfl,
              List.forall_mem_cons.2 ⟨⟨result, first⟩, fine⟩, badFails⟩
  · rintro ⟨before, bad, after, rfl, fine, fails⟩
    induction before with
    | nil => exact mapM_cons_of_error fails
    | cons item before ih =>
        obtain ⟨⟨result, first⟩, others⟩ := List.forall_mem_cons.1 fine
        rw [List.cons_append, mapM_cons_of_ok first, ih others]
        rfl

end Sequence

namespace Entries

variable {α : Type} {pairs : List (Atom × α)} {key : Atom} {value : α}

/-- Pairs that are set in turn have their keys in the order in which these first occur. -/
theorem keys_ofPairs_eq_eraseDups (exact : AllExact Atom.same pairs) :
    keys (ofPairs Atom.same pairs) = (keys pairs).eraseDups := by
  induction pairs using List.reverseRecOn with
  | nil => rfl
  | append_singleton pairs pair ih =>
      have earlier : AllExact Atom.same pairs :=
        fun other member => exact other (List.mem_append_left _ member)
      have last : Exact Atom.same pair.1 := exact pair (by simp)
      rw [ofPairs_eq_putAll, putAll_append, putAll_cons, putAll_nil, keys_put last,
        ← ofPairs_eq_putAll, ih earlier, keys_append, keys_cons, keys_nil, eraseDups_concat]
      simp only [List.mem_eraseDups]

/-- Under a key stands what was set last there. -/
theorem find?_ofPairs_iff (exact : AllExact Atom.same pairs) (exactKey : Exact Atom.same key) :
    find? Atom.same (ofPairs Atom.same pairs) key = some value ↔
      ∃ before after, pairs = before ++ (key, value) :: after ∧ key ∉ keys after := by
  induction pairs using List.reverseRecOn with
  | nil => simp [ofPairs, find?]
  | append_singleton pairs pair ih =>
      have earlier : AllExact Atom.same pairs :=
        fun other member => exact other (List.mem_append_left _ member)
      have last : Exact Atom.same pair.1 := exact pair (by simp)
      rw [ofPairs_eq_putAll, putAll_append, putAll_cons, putAll_nil, find?_put last exactKey,
        ← ofPairs_eq_putAll]
      -- What stands after the key ends in the last pair, or there is nothing after it.
      have ends : ∀ before after, pairs ++ [pair] = before ++ (key, value) :: after →
          pairs = before ∧ pair = (key, value) ∧ after = [] ∨
            ∃ rest, after = rest ++ [pair] ∧ pairs = before ++ (key, value) :: rest := by
        intro before after split
        rcases List.eq_nil_or_concat after with rfl | ⟨rest, other, rfl⟩
        · obtain ⟨rfl, same⟩ := List.append_inj' split rfl
          exact .inl ⟨rfl, (List.cons.inj same).1, rfl⟩
        · rw [List.concat_eq_append, ← List.cons_append, ← List.append_assoc] at split
          obtain ⟨rfl, same⟩ := List.append_inj' split rfl
          exact .inr ⟨rest, by rw [List.concat_eq_append, (List.cons.inj same).1], rfl⟩
      by_cases equal : key = pair.1
      · rw [if_pos equal]
        constructor
        · intro same
          refine ⟨pairs, [], ?_, by simp⟩
          rw [equal, ← Option.some.inj same]
        · rintro ⟨before, after, split, absent⟩
          rcases ends before after split with ⟨-, rfl, -⟩ | ⟨rest, rfl, -⟩
          · rfl
          · exact absurd (by simp [equal]) absent
      · rw [if_neg equal, ih earlier]
        constructor
        · rintro ⟨before, after, rfl, absent⟩
          exact ⟨before, after ++ [pair], by simp, by simp [absent, equal]⟩
        · rintro ⟨before, after, split, absent⟩
          rcases ends before after split with ⟨-, rfl, -⟩ | ⟨rest, rfl, rfl⟩
          · exact absurd rfl equal
          · exact ⟨before, rest, rfl, fun member => absent (by simp [member])⟩

end Entries

namespace Graph

/-- The values that a model gives for its nodes: those of an object, the items of a list, or the
characters of a text. -/
inductive Gives (model : Value) : List Value → Prop
  | object {entries : List (Atom × Value)} (held : model.field? "nodes" = some (.map entries)) :
      Gives model (entries.map (·.2))
  | list {items : List Value} (held : model.field? "nodes" = some (.list items)) :
      Gives model items
  | text {text : String} (held : model.field? "nodes" = some (.text text)) :
      Gives model (text.toList.map fun c => .text (String.singleton c))

/-- Why a value is no model. Of the values that it gives, the first one that is no node counts. -/
inductive Refused (model : Value) : Fault → Prop
  | notObject (other : ∀ entries, model ≠ .map entries) : Refused model (.problem .noNodes)
  | noNodes (absent : model.field? "nodes" = none) : Refused model (.problem .noNodes)
  | noItems {nodes : Value} (held : model.field? "nodes" = some nodes) (point : nodes.IsPoint) :
      Refused model .wrongKind
  | badItem {before after : List Value} {item : Value} {fault : Fault}
      (gives : Gives model (before ++ item :: after))
      (fine : ∀ earlier ∈ before, ∀ other, ¬ Node.Refused earlier other)
      (bad : Node.Refused item fault) : Refused model fault

/-- The graph that nodes make whose ids are texts. -/
structure Lists (graph : Graph) (nodes : List Node) : Prop where
  /-- Each id is there once, in the order of the first occurrences. -/
  ids : Entries.keys graph.nodes = (nodes.map (·.id)).eraseDups
  /-- The nodes come in the order of their ids. -/
  order : graph.nodeList.map (·.id) = Entries.keys graph.nodes
  /-- Under an id stands the last node that has it. -/
  last : ∀ (id : String) (node : Node), graph.node (.text id) = .ok node ↔
    node.id = .text id ∧ ∃ before after, nodes = before ++ node :: after ∧
      ∀ later ∈ after, later.id ≠ .text id
  /-- Every id leads to a node that has it. -/
  own : ∀ id ∈ Entries.keys graph.nodes, ∃ node, graph.node (.atom id) = .ok node ∧ node.id = id

theorem nodeValues_eq_ok_iff {model : Value} (json : model.isJson = true) {items : List Value} :
    nodeValues model = .ok items ↔ Gives model items := by
  constructor
  · intro given
    unfold nodeValues at given
    split at given
    next => cases given
    next entries held =>
      cases given
      exact .object held
    next nodes noObject held =>
      have nodesJson := Value.isJson_of_field? json held
      split at given
      next elements found =>
        cases given
        cases (Value.elements?_eq_some_iff nodesJson).1 found with
        | list => exact .list held
        | object entries => exact absurd rfl (noObject entries)
        | text => exact .text held
      next => cases given
  · rintro (held | held | held) <;> simp [nodeValues, held, Value.elements?]

theorem nodeValues_eq_error_iff {model : Value} (json : model.isJson = true) {fault : Fault} :
    nodeValues model = .error fault ↔
      fault = .problem .noNodes ∧ model.field? "nodes" = none ∨
        fault = .wrongKind ∧ ∃ nodes, model.field? "nodes" = some nodes ∧ nodes.IsPoint := by
  unfold nodeValues
  split
  next absent => simp [absent, eq_comm]
  next entries held => simp [held, Value.IsPoint]
  next nodes noObject held =>
    have points := Value.elements?_eq_none_iff (Value.isJson_of_field? json held)
    cases found : nodes.elements? <;> simp [← points, found, held, eq_comm]

/-- All that a JSON model gives for its nodes is JSON. -/
theorem Gives.isJson {model : Value} {items : List Value} (gives : Gives model items)
    (json : model.isJson = true) : ∀ item ∈ items, item.isJson = true := by
  cases gives with
  | @object entries held =>
      have nodesJson := Value.isJson_of_field? json held
      rw [Value.isJson, Bool.and_eq_true, Value.entriesAreJson_iff] at nodesJson
      intro item member
      obtain ⟨entry, listed, rfl⟩ := List.mem_map.1 member
      exact (nodesJson.2 entry listed).2
  | list held =>
      have nodesJson := Value.isJson_of_field? json held
      rwa [Value.isJson, Value.itemsAreJson_iff] at nodesJson
  | text held =>
      intro item member
      obtain ⟨c, _, rfl⟩ := List.mem_map.1 member
      rfl

theorem ofValue_eq_error_iff {model : Value} {fault : Fault} :
    ofValue model = .error fault ↔ nodeValues model = .error fault ∨
      ∃ items, nodeValues model = .ok items ∧ items.mapM Node.ofValue = .error fault := by
  unfold ofValue
  cases given : nodeValues model with
  | error other => simp [bind, Except.bind]
  | ok items =>
      cases read : items.mapM Node.ofValue with
      | error other => simp [read, bind, Except.bind]
      | ok nodes => simp [read, bind, Except.bind, pure, Except.pure]

/-- The graph of nodes whose ids are texts. -/
theorem lists_ofNodes {nodes : List Node} (texts : ∀ node ∈ nodes, ∃ id, node.id = .text id) :
    (ofNodes nodes).Lists nodes := by
  have exact := allExact_ids texts
  have keyed := keyed_ofNodes texts
  have keys : Entries.keys (nodes.map fun node => (node.id, node)) = nodes.map (·.id) := by
    simp [Entries.keys, Function.comp_def]
  constructor
  case ids => rw [ofNodes, Entries.keys_ofPairs_eq_eraseDups exact, keys]
  case order => exact ids_eq_keys keyed.keyed
  case last =>
    intro id node
    have found : (ofNodes nodes).node (.text id) = .ok node ↔
        Entries.find? Atom.same (ofNodes nodes).nodes (.text id) = some node := by
      simp only [Graph.node]
      split
      next other held => simp [held]
      next absent => simp [absent]
    rw [found, ofNodes, Entries.find?_ofPairs_iff exact (Entries.exact_text id)]
    constructor
    · rintro ⟨before, after, split, absent⟩
      obtain ⟨earlier, rest, rfl, rfl, restEq⟩ := List.map_eq_append_iff.1 split
      obtain ⟨same, later, rfl, pair, rfl⟩ := List.map_eq_cons_iff.1 restEq
      obtain ⟨idEq, rfl⟩ := Prod.mk.inj pair
      exact ⟨idEq, earlier, later, rfl, fun other member sameId =>
        absent (by simpa [Entries.keys] using ⟨other, member, sameId⟩)⟩
    · rintro ⟨idEq, before, after, rfl, unlike⟩
      refine ⟨before.map fun node => (node.id, node), after.map fun node => (node.id, node),
        by simp [idEq], ?_⟩
      simpa [Entries.keys] using unlike
  case own =>
    intro id member
    obtain ⟨node, entry⟩ := Entries.mem_keys_iff.1 member
    obtain rfl : id = node.id := keyed.keyed _ entry
    exact ⟨node, keyed.node_eq_ok_iff.2 ⟨mem_nodeList.2 ⟨_, entry⟩, rfl⟩, rfl⟩

/-- A value that is no model is told so by a problem of the architecture, or is of a wrong kind. -/
theorem Refused.kind {model : Value} {fault : Fault} (refused : Refused model fault) :
    fault = .wrongKind ∨ ∃ problem, fault = .problem problem ∧ problem.area = .architecture := by
  cases refused with
  | notObject | noNodes => exact .inr ⟨_, rfl, rfl⟩
  | noItems => exact .inl rfl
  | badItem _ _ bad =>
      cases bad with
      | notObject | noId | noType => exact .inr ⟨_, rfl, rfl⟩
      | badEnds | badId => exact .inl rfl

section Json

variable {model : Value} (json : model.isJson = true)

include json

theorem ofValue_eq_ok_iff_reads {graph : Graph} :
    ofValue model = .ok graph ↔ ∃ items nodes, Gives model items ∧
      List.Forall₂ Node.Reads items nodes ∧ graph = ofNodes nodes := by
  have reads : ∀ {items nodes}, Gives model items →
      (items.mapM Node.ofValue = .ok nodes ↔ List.Forall₂ Node.Reads items nodes) := by
    intro items nodes gives
    rw [mapM_eq_ok_iff]
    have itemJson := gives.isJson json
    constructor
    · exact fun read => ((List.forall₂_and_left _ _).2 ⟨itemJson, read⟩).imp
        fun _ _ both => (Node.ofValue_eq_ok_iff both.1).1 both.2
    · exact fun read => ((List.forall₂_and_left _ _).2 ⟨itemJson, read⟩).imp
        fun _ _ both => (Node.ofValue_eq_ok_iff both.1).2 both.2
  rw [ofValue_eq_ok_iff]
  constructor
  · rintro ⟨items, nodes, given, read, graphEq⟩
    have gives := (nodeValues_eq_ok_iff json).1 given
    exact ⟨items, nodes, gives, (reads gives).1 read, graphEq⟩
  · rintro ⟨items, nodes, gives, read, graphEq⟩
    exact ⟨items, nodes, (nodeValues_eq_ok_iff json).2 gives, (reads gives).2 read, graphEq⟩

theorem ofValue_eq_error_iff_refused {fault : Fault} :
    ofValue model = .error fault ↔ Refused model fault := by
  rw [ofValue_eq_error_iff, nodeValues_eq_error_iff json]
  constructor
  · rintro ((⟨rfl, absent⟩ | ⟨rfl, nodes, held, point⟩) | ⟨items, given, fails⟩)
    · exact .noNodes absent
    · exact .noItems held point
    · have gives := (nodeValues_eq_ok_iff json).1 given
      obtain ⟨before, item, after, rfl, fine, bad⟩ := mapM_eq_error_iff.1 fails
      have itemJson := gives.isJson json
      refine .badItem gives (fun earlier member other refused => ?_)
        ((Node.ofValue_eq_error_iff (itemJson item (by simp))).1 bad)
      obtain ⟨node, read⟩ := fine earlier member
      rw [Node.ofValue_of_refused (itemJson earlier (by simp [member])) refused] at read
      cases read
  · intro refused
    cases refused with
    | notObject other =>
        refine .inl (.inl ⟨rfl, ?_⟩)
        cases model with
        | map entries => exact absurd rfl (other entries)
        | atom | list | shared => rfl
    | noNodes absent => exact .inl (.inl ⟨rfl, absent⟩)
    | noItems held point => exact .inl (.inr ⟨rfl, _, held, point⟩)
    | @badItem before after item fault gives fine bad =>
        have itemJson := gives.isJson json
        refine .inr ⟨_, (nodeValues_eq_ok_iff json).2 gives,
          mapM_eq_error_iff.2 ⟨before, item, after, rfl, fun earlier member => ?_, ?_⟩⟩
        · have earlierJson := itemJson earlier (by simp [member])
          rcases Node.reads_or_refused earlierJson with ⟨node, reads⟩ | ⟨other, refused⟩
          · exact ⟨node, Node.ofValue_of_reads earlierJson reads⟩
          · exact absurd refused (fine earlier member other)
        · exact Node.ofValue_of_refused (itemJson item (by simp)) bad

/-- The models that are loaded. A value has to be an object with `nodes` that can be gone through,
and no value that these give may be refused as a node; otherwise the first that is decides the
fault. A model whose ids are texts is the graph that its nodes make. -/
theorem ofValue_accepts :
    (∀ fault, ofValue model = .error fault ↔ Refused model fault) ∧
      (∀ fault, Refused model fault →
        fault = .wrongKind ∨ ∃ problem, fault = .problem problem ∧ problem.area = .architecture) ∧
      (∀ items, Gives model items → (∀ item ∈ items, ∀ fault, ¬ Node.Refused item fault) →
        ∃ graph, ofValue model = .ok graph) ∧
      ∀ graph, ofValue model = .ok graph → ∃ items nodes, Gives model items ∧
        List.Forall₂ Node.Reads items nodes ∧
        ((∀ node ∈ nodes, ∃ id, node.id = .text id) → graph.Lists nodes) := by
  refine ⟨fun _ => ofValue_eq_error_iff_refused json, fun _ => Refused.kind,
    fun items gives fine => ?_, fun graph loaded => ?_⟩
  · have itemJson := gives.isJson json
    cases read : ofValue model with
    | ok graph => exact ⟨graph, rfl⟩
    | error fault =>
        rcases ofValue_eq_error_iff.1 read with given | ⟨others, given, fails⟩
        · rw [(nodeValues_eq_ok_iff json).2 gives] at given
          cases given
        · obtain rfl : items = others :=
            Except.ok.inj (((nodeValues_eq_ok_iff json).2 gives).symm.trans given)
          obtain ⟨before, item, after, rfl, -, bad⟩ := mapM_eq_error_iff.1 fails
          exact absurd ((Node.ofValue_eq_error_iff (itemJson item (by simp))).1 bad)
            (fine item (by simp) fault)
  · obtain ⟨items, nodes, gives, read, rfl⟩ := (ofValue_eq_ok_iff_reads json).1 loaded
    exact ⟨items, nodes, gives, read, lists_ofNodes⟩

end Json

/-- A model that gives one id twice, under keys that are not the ids. -/
def repeated : Value :=
  .record [("nodes", .record [
    ("1", .record [("id", .text "photos"), ("type", .text "bucket"), ("to", .texts ["resize"])]),
    ("2", .record [("type", .text "fn"), ("id", .text "resize"), ("description", .null)]),
    ("3", .record [("id", .text "photos"), ("type", .text "table"), ("from", .texts ["resize"])])])]

/-- The second node of the repeated id takes the place of the first. -/
theorem repeated_loads : ∃ graph nodes, ofValue repeated = .ok graph ∧ graph.Lists nodes ∧
    nodes.map (·.id) = [.text "photos", .text "resize", .text "photos"] := by
  have json : repeated.isJson = true := by decide
  obtain ⟨graph, loaded⟩ : ∃ graph, ofValue repeated = .ok graph := ⟨_, rfl⟩
  obtain ⟨items, nodes, gives, read, lists⟩ := (ofValue_accepts json).2.2.2 graph loaded
  have ids : nodes.map (·.id) = [.text "photos", .text "resize", .text "photos"] := by
    rcases gives with ⟨held⟩ | ⟨held⟩ | ⟨held⟩ <;> cases held
    rcases read with _ | ⟨first, _ | ⟨second, _ | ⟨third, _ | _⟩⟩⟩
    have firstId := first.id
    have secondId := second.id
    have thirdId := third.id
    simp_all [Value.record, Value.field?, Entries.find?]
  refine ⟨graph, nodes, loaded, lists fun node member => ?_, ids⟩
  have listed : node.id ∈ nodes.map (·.id) := List.mem_map_of_mem member
  rw [ids] at listed
  simp only [List.mem_cons, List.not_mem_nil, or_false] at listed
  rcases listed with same | same | same <;> exact ⟨_, same⟩

end Graph

end CloudGraph
