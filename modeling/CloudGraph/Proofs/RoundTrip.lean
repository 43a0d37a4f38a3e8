import CloudGraph.Proofs.Loading

/-!
# Models that are written back

Reading a model settles it: the nodes stand under their ids, absent fields are there, and what
lists ends of edges is a list. `Graph.reload` says that nothing is left to settle afterwards: a
graph that was read is read again from the value that it is written as, and a model that gives
every node in full under its own id is written back as it was.
-/

namespace CloudGraph

namespace Entries

variable {κ α : Type} {same : κ → κ → Bool} {pairs : List (κ × α)}

/-- Setting pairs with distinct keys in turn, from none, gives these pairs. -/
theorem ofPairs_of_nodup (exact : AllExact same pairs) (distinct : (keys pairs).Nodup) :
    ofPairs same pairs = pairs := by
  induction pairs using List.reverseRecOn with
  | nil => rfl
  | append_singleton pairs pair ih =>
      rw [keys_append, List.nodup_append] at distinct
      have earlier : AllExact same pairs :=
        fun other member => exact other (List.mem_append_left _ member)
      have absent : pair.1 ∉ keys pairs :=
        fun member => distinct.2.2 _ member _ (by simp) rfl
      rw [ofPairs_eq_putAll, putAll_append, ← ofPairs_eq_putAll, ih earlier distinct.1, putAll_cons,
        putAll_nil, put_of_not_mem (exact pair (by simp)) absent]

end Entries

namespace Node

/-- A node whose description counts or is empty, as that of every node that was read. -/
def Settled (node : Node) : Prop :=
  node.description.truthy = true ∨ node.description = .text ""

theorem settled_of_ofValue {item : Value} {node : Node} (read : Node.ofValue item = .ok node) :
    node.Settled := by
  have description : node.description = describedBy item := by
    cases item with
    | map entries =>
        cases held : (Value.map entries).field? "id" with
        | none =>
            simp only [Node.ofValue, held] at read
            cases read
        | some id =>
            cases typed : (Value.map entries).field? "type" with
            | none =>
                simp only [Node.ofValue, held, typed] at read
                cases read
            | some type =>
                rw [ofValue_of_held held typed] at read
                cases sources : (Value.map entries).idsIn "from" with
                | error fault =>
                    rw [sources] at read
                    cases read
                | ok ends =>
                    cases targets : (Value.map entries).idsIn "to" with
                    | error fault =>
                        rw [sources, targets] at read
                        cases read
                    | ok more =>
                        rw [sources, targets] at read
                        cases id <;> cases read
                        rfl
    | atom | list | shared => cases read
  rcases describedBy_eq_iff.1 description with ⟨-, counts⟩ | ⟨-, empty⟩
  · exact .inl counts
  · exact .inr empty

/-- A node whose description is settled is read from the value that it is written as. -/
theorem Settled.ofValue_toValue {node : Node} (settled : node.Settled) :
    Node.ofValue node.toValue = .ok node := by
  have description : node.description = describedBy node.toValue := by
    refine describedBy_eq_iff.2 ?_
    rcases settled with counts | empty
    · exact .inl ⟨rfl, counts⟩
    · refine .inr ⟨fun description same => ?_, empty⟩
      rw [← Option.some.inj same, empty]
      rfl
  rw [@ofValue_of_held node.toValue (.atom node.id) node.type rfl rfl, ← description]
  rfl

end Node

namespace Graph

/-- A graph whose nodes are settled and stand under their ids is read from the value that it is
written as. -/
theorem Keyed.ofValue_toValue {graph : Graph} (keyed : graph.Keyed)
    (settled : ∀ node ∈ graph.nodeList, node.Settled) : ofValue graph.toValue = .ok graph := by
  have exact : Entries.AllExact Atom.same graph.nodes := by
    intro entry member
    obtain ⟨id, idEq⟩ := keyed.ids entry.2 (mem_nodeList.2 ⟨entry.1, member⟩)
    rw [keyed.keyed entry member, idEq]
    exact Entries.exact_text id
  have own : graph.nodeList.map (fun node => (node.id, node)) = graph.nodes := by
    rw [nodeList, List.map_map]
    refine (List.map_congr_left fun entry member => ?_).trans (List.map_id _)
    exact congrArg (·, entry.2) (keyed.keyed entry member).symm
  have given : nodeValues graph.toValue = .ok (graph.nodeList.map Node.toValue) := by
    simp [nodeValues, toValue, Value.record, Value.field?, Entries.find?, Function.comp_def]
  have read : (graph.nodeList.map Node.toValue).mapM Node.ofValue = .ok graph.nodeList := by
    rw [mapM_eq_ok_iff, List.forall₂_map_left_iff, List.forall₂_same]
    exact fun node member => (settled node member).ofValue_toValue
  refine ofValue_eq_ok_iff.2 ⟨_, _, given, read, ?_⟩
  rw [ofNodes, own, Entries.ofPairs_of_nodup exact keyed.distinct]

theorem settled_of_ofValue {value : Value} {graph : Graph} (loaded : ofValue value = .ok graph) :
    ∀ node ∈ graph.nodeList, node.Settled := by
  obtain ⟨items, nodes, -, read, rfl⟩ := ofValue_eq_ok_iff.1 loaded
  have settled : ∀ node ∈ nodes, node.Settled := by
    have each := mapM_eq_ok_iff.1 read
    clear read loaded
    induction each with
    | nil => simp
    | cons first _ ih => exact List.forall_mem_cons.2 ⟨Node.settled_of_ofValue first, ih⟩
  have entries : ∀ entry ∈ (ofNodes nodes).nodes, entry.2.Settled :=
    forall_mem_ofNodes fun node member _ _ => settled node member
  intro node member
  obtain ⟨key, entry⟩ := mem_nodeList.1 member
  exact entries _ entry

end Graph

section InFull

/-- The fields of a node that gives all five of them, in any order. -/
structure Node.InFull (id : String) (fields : List (Atom × Value)) : Prop where
  names : (Entries.keys fields).Perm
    [.text "id", .text "type", .text "description", .text "from", .text "to"]
  id : (.text "id", .text id) ∈ fields
  description : ∃ description, (.text "description", description) ∈ fields ∧
    (description.truthy = true ∨ description = .text "")
  sources : ∃ sources, (.text "from", .list sources) ∈ fields
  targets : ∃ targets, (.text "to", .list targets) ∈ fields

/-- Nodes of an object, each in full under its own id. -/
structure Graph.InFull (entries : List (Atom × Value)) : Prop where
  distinct : (Entries.keys entries).Nodup
  nodes : ∀ entry ∈ entries, ∃ id fields, entry = (.text id, .map fields) ∧ Node.InFull id fields

/-- Entries of one key, with objects of the same fields. -/
def Entries.Alike (entry other : Atom × Value) : Prop :=
  entry.1 = other.1 ∧ ∃ fields others, entry.2 = .map fields ∧ other.2 = .map others ∧
    fields.Perm others

/-- Entries with distinct keys that are among others with the same keys are these others. -/
theorem Entries.perm_of_subset {entries others : List (Atom × Value)}
    (distinct : (Entries.keys entries).Nodup) (names : (Entries.keys entries).Perm (keys others))
    (among : entries ⊆ others) : entries.Perm others := by
  refine (List.subperm_of_subset (List.Nodup.of_map _ distinct) among).perm_of_length_le ?_
  simpa [Entries.keys] using names.length_eq.ge

theorem Entries.keys_eq_of_alike {entries others : List (Atom × Value)}
    (alike : List.Forall₂ Alike entries others) : keys entries = keys others := by
  induction alike with
  | nil => rfl
  | cons first _ ih => rw [keys_cons, keys_cons, first.1, ih]

/-- A node in full is read as one that is written so, up to the order of the fields. -/
theorem Node.InFull.alike_toValue {id : String} {fields : List (Atom × Value)}
    (inFull : InFull id fields) : ∃ node : Node, node.id = .text id ∧
      Node.ofValue (.map fields) = .ok node ∧
      Entries.Alike (node.id, node.toValue) (.text id, .map fields) := by
  have distinct : (Entries.keys fields).Nodup := inFull.names.nodup_iff.2 (by decide)
  have held : ∀ {name value}, (.text name, value) ∈ fields →
      (Value.map fields).field? name = some value :=
    fun member => Entries.find?_of_mem (Entries.exact_text _) distinct member
  obtain ⟨type, typed⟩ : ∃ type, (.text "type", type) ∈ fields :=
    Entries.mem_keys_iff.1 (inFull.names.mem_iff.2 (by simp))
  obtain ⟨description, described, settled⟩ := inFull.description
  obtain ⟨sources, isSources⟩ := inFull.sources
  obtain ⟨targets, isTargets⟩ := inFull.targets
  have isDescription : description = describedBy (.map fields) := by
    refine describedBy_eq_iff.2 ?_
    rcases settled with counts | empty
    · exact .inl ⟨held described, counts⟩
    · refine .inr ⟨fun other same => ?_, empty⟩
      rw [held described] at same
      rw [← Option.some.inj same, empty]
      rfl
  refine ⟨⟨.text id, type, description, sources, targets⟩, rfl, ?_, rfl, _, _, rfl, rfl, ?_⟩
  · rw [ofValue_of_held (held inFull.id) (held typed), ← isDescription]
    simp only [Value.idsIn, held isSources, held isTargets, Value.elements?]
    rfl
  · refine Entries.perm_of_subset (by simp [Entries.keys]) inFull.names.symm ?_
    simp [inFull.id, typed, described, isSources, isTargets]

/-- A settled node is written in full. -/
theorem Node.Settled.inFull {node : Node} {id : String} (settled : node.Settled)
    (idEq : node.id = .text id) : ∃ fields, node.toValue = .map fields ∧ InFull id fields := by
  refine ⟨_, rfl, ?_⟩
  constructor
  case names => exact .refl _
  case id => simp [idEq]
  case description => exact ⟨node.description, by simp, settled⟩
  case sources => exact ⟨node.sources, by simp⟩
  case targets => exact ⟨node.targets, by simp⟩

end InFull

namespace Graph

/-- The value of a model, read and written back. -/
def rewritten (value : Value) : Except Fault Value := do
  return (← ofValue value).toValue

/-- A graph that was read is read again from the value that it is written as, when its ids are
texts. -/
theorem ofValue_toValue {value : Value} {graph : Graph} (loaded : ofValue value = .ok graph)
    (ids : ∀ node ∈ graph.nodeList, ∃ id, node.id = .text id) :
    ofValue graph.toValue = .ok graph :=
  (keyed_of_ofValue loaded ids).ofValue_toValue (settled_of_ofValue loaded)

/-- Nodes whose ids are texts that differ make the graph that has them in their order. -/
theorem nodeList_ofNodes {nodes : List Node} (texts : ∀ node ∈ nodes, ∃ id, node.id = .text id)
    (distinct : (nodes.map (·.id)).Nodup) : (ofNodes nodes).nodeList = nodes := by
  have keys : (Entries.keys (nodes.map fun node => (node.id, node))).Nodup := by
    rwa [Entries.keys, List.map_map]
  rw [nodeList, ofNodes, Entries.ofPairs_of_nodup (allExact_ids texts) keys, List.map_map]
  exact List.map_id _

/-- The nodes of an object in full are read, and written back as they were. -/
theorem InFull.nodes_alike {entries : List (Atom × Value)} (inFull : InFull entries) :
    ∃ nodes : List Node, (∀ node ∈ nodes, ∃ id, node.id = .text id) ∧
      (entries.map (·.2)).mapM Node.ofValue = .ok nodes ∧
      List.Forall₂ Entries.Alike (nodes.map fun node => (node.id, node.toValue)) entries := by
  have nodes := inFull.nodes
  clear inFull
  induction entries with
  | nil => exact ⟨[], by simp, rfl, .nil⟩
  | cons entry entries ih =>
      obtain ⟨⟨id, fields, rfl, first⟩, later⟩ := List.forall_mem_cons.1 nodes
      obtain ⟨node, idEq, read, alike⟩ := first.alike_toValue
      obtain ⟨rest, texts, restRead, restAlike⟩ := ih later
      refine ⟨node :: rest, List.forall_mem_cons.2 ⟨⟨id, idEq⟩, texts⟩, ?_, .cons alike restAlike⟩
      rw [List.map_cons, mapM_cons_of_ok read, restRead]
      rfl

/-- A model that gives every node in full under its own id is written back as it was. -/
theorem InFull.rewritten {entries : List (Atom × Value)} (inFull : InFull entries) :
    ∃ written, Graph.rewritten (.record [("nodes", .map entries)]) =
      .ok (.record [("nodes", .map written)]) ∧ List.Forall₂ Entries.Alike written entries := by
  obtain ⟨nodes, texts, read, alike⟩ := inFull.nodes_alike
  refine ⟨_, ?_, alike⟩
  have distinct : (nodes.map (·.id)).Nodup := by
    have keys := Entries.keys_eq_of_alike alike
    rw [Entries.keys, List.map_map] at keys
    exact keys ▸ inFull.distinct
  have loaded : ofValue (.record [("nodes", .map entries)]) = .ok (ofNodes nodes) :=
    ofValue_eq_ok_iff.2 ⟨_, _, rfl, read, rfl⟩
  rw [Graph.rewritten, loaded]
  simp only [bind, Except.bind, pure, Except.pure, toValue, nodeList_ofNodes texts distinct]

/-- What a graph that was read is written as gives every node in full. -/
theorem inFull_toValue {value : Value} {graph : Graph} (loaded : ofValue value = .ok graph)
    (ids : ∀ node ∈ graph.nodeList, ∃ id, node.id = .text id) :
    InFull (graph.nodeList.map fun node => (node.id, node.toValue)) := by
  obtain ⟨keyed, distinct⟩ := keys_of_ofValue loaded ids
  constructor
  case distinct =>
    have apart : (graph.nodeList.map (·.id)).Nodup := by rwa [ids_eq_keys keyed]
    rwa [Entries.keys, List.map_map]
  case nodes =>
    intro entry member
    obtain ⟨node, nodeMember, rfl⟩ := List.mem_map.1 member
    obtain ⟨id, idEq⟩ := ids node nodeMember
    obtain ⟨fields, written, inFull⟩ := (settled_of_ofValue loaded node nodeMember).inFull idEq
    exact ⟨id, fields, by rw [idEq, written], inFull⟩

/-- Models survive being read and written. The graph of a model whose ids are texts is read again
from the value that it is written as, nodes in order, and so compiles to the same project and files
for every order. Writing a model back a second time changes nothing, and the first time nothing but
the order of fields, when the model gives every node in full under its own id. -/
theorem reload :
    (∀ (value : Value) (graph : Graph), ofValue value = .ok graph →
      (∀ node ∈ graph.nodeList, ∃ id, node.id = .text id) →
      ofValue graph.toValue = .ok graph ∧
        (∀ written, Graph.rewritten value = .ok written → Graph.rewritten written = .ok written) ∧
        ∀ again, ofValue graph.toValue = .ok again → ∀ order,
          again.compile order = graph.compile order ∧ again.render order = graph.render order) ∧
    ∀ entries, InFull entries → ∃ written,
      Graph.rewritten (.record [("nodes", .map entries)]) =
          .ok (.record [("nodes", .map written)]) ∧
        List.Forall₂ Entries.Alike written entries := by
  refine ⟨fun value graph loaded ids => ?_, fun _ inFull => inFull.rewritten⟩
  have reloaded := ofValue_toValue loaded ids
  refine ⟨reloaded, fun written first => ?_, fun again second order => ?_⟩
  · rw [Graph.rewritten, loaded] at first
    obtain rfl : graph.toValue = written := Except.ok.inj first
    rw [Graph.rewritten, reloaded]
    rfl
  · obtain rfl : graph = again := Except.ok.inj (reloaded.symm.trans second)
    exact ⟨rfl, rfl⟩

/-- The architecture that makes thumbnails is written in full, and read again from that. -/
theorem thumbnails_reload : ofValue thumbnails.toValue = .ok thumbnails ∧
    ∃ written, Graph.rewritten thumbnails.toValue = .ok (.record [("nodes", .map written)]) ∧
      List.Forall₂ Entries.Alike written
        (thumbnailNodes.map fun node => (node.id, node.toValue)) := by
  exact ⟨(reload.1 _ _ thumbnails_loaded thumbnails_textual.ids).1,
    reload.2 _ (inFull_toValue thumbnails_loaded thumbnails_textual.ids)⟩

end Graph

end CloudGraph
