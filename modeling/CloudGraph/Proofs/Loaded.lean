import CloudGraph.Graph.Reader
import CloudGraph.Proofs.Entries

/-!
# Graphs that were read

What a graph that was read from a value has by construction: every node stands under its
own id, and no id is there twice. `Graph.Proper` collects this for graphs whose ids and
ends of edges are texts, which is how architectures are written.

`Graph.Proper.node_perm` is the reason why the order of the nodes hardly matters: a
lookup finds the same node in every order.
-/

namespace CloudGraph

theorem Atom.same_self (key : Atom) : Atom.same key key = true := by
  cases key <;> simp [Atom.same, Atom.int?, Double.same]

theorem Atom.eq_text_of_same {key : Atom} {name : String}
    (equal : Atom.same (.text name) key = true) : key = .text name := by
  cases key with
  | text other => simpa using (beq_iff_eq.1 equal).symm
  | null | bool | int | float | moment => simp [Atom.same, Atom.int?] at equal

namespace Entries

variable {κ α : Type} {same : κ → κ → Bool} {entries : Entries κ α} {key : κ} {value : α}

theorem find?_eq_none_of_unlike (unlike : ∀ entry ∈ entries, same entry.1 key = false) :
    find? same entries key = none := by
  have absent : List.find? (fun entry => same entry.1 key) entries = none := by
    rw [List.find?_eq_none]
    intro entry member equal
    rw [unlike entry member] at equal
    cases equal
  rw [find?, absent, Option.map_none]

/-- No key of some entries is the same as a later one. -/
def Apart (same : κ → κ → Bool) (entries : Entries κ α) : Prop :=
  entries.Pairwise fun first second => same first.1 second.1 = false

theorem apart_put (apart : Apart same entries) : Apart same (put same entries key value) := by
  induction entries with
  | nil => exact List.pairwise_singleton _ _
  | cons head rest ih =>
      obtain ⟨headApart, restApart⟩ := List.pairwise_cons.1 apart
      rw [put]
      by_cases equal : same head.1 key = true
      · rw [if_pos equal]
        exact List.pairwise_cons.2 ⟨headApart, restApart⟩
      · rw [if_neg equal]
        refine List.pairwise_cons.2 ⟨?_, ih restApart⟩
        have headKey : same head.1 key = false := by simpa using equal
        -- The new key may also stand in the place of one that is spelled differently, and
        -- then that spelling is kept.
        exact forall_mem_put headApart headKey fun entry member _ => headApart entry member

/-- Setting each pair in turn, from none, leaves no key twice. -/
theorem apart_ofPairs (pairs : List (κ × α)) : Apart same (ofPairs same pairs) := by
  have step : ∀ entries : Entries κ α, Apart same entries →
      Apart same (putAll same entries pairs) := by
    induction pairs with
    | nil => exact fun _ apart => apart
    | cons pair pairs ih => exact fun entries apart => ih _ (apart_put apart)
  exact step [] List.Pairwise.nil

end Entries

namespace Graph

/-- Every id is a text, and so is every end of an edge. -/
structure Textual (graph : Graph) : Prop where
  ids : ∀ node ∈ graph.nodeList, ∃ id, node.id = .text id
  sources : ∀ node ∈ graph.nodeList, ∀ source ∈ node.sources, ∃ id, source = .text id
  targets : ∀ node ∈ graph.nodeList, ∀ target ∈ node.targets, ∃ id, target = .text id

/-- Every type is a text. -/
def Typed (graph : Graph) : Prop :=
  ∀ node ∈ graph.nodeList, ∃ type, node.type = .text type

/-- Every node stands under its id, no two under the same, and ids are texts. -/
structure Proper (graph : Graph) : Prop where
  keyed : ∀ entry ∈ graph.nodes, entry.1 = entry.2.id
  distinct : (Entries.keys graph.nodes).Nodup
  textual : graph.Textual

theorem mem_nodeList {graph : Graph} {node : Node} :
    node ∈ graph.nodeList ↔ ∃ key, (key, node) ∈ graph.nodes := by
  simp [nodeList]

/-- The entries of a graph of some nodes are these nodes, each under a spelling of its id. -/
theorem forall_mem_ofNodes {nodes : List Node} {holds : Atom × Node → Prop}
    (spelled : ∀ node ∈ nodes, ∀ key, Atom.same key node.id = true → holds (key, node)) :
    ∀ entry ∈ (ofNodes nodes).nodes, holds entry := by
  have step : ∀ (rest : List Node) (entries : Entries Atom Node), (∀ node ∈ rest, node ∈ nodes) →
      (∀ entry ∈ entries, holds entry) →
      ∀ entry ∈ Entries.putAll Atom.same entries (rest.map fun node => (node.id, node)),
        holds entry := by
    intro rest
    induction rest with
    | nil => exact fun _ _ old => old
    | cons node rest ih =>
        intro entries members old
        obtain ⟨member, later⟩ := List.forall_mem_cons.1 members
        refine ih _ later (Entries.forall_mem_put old ?_ ?_)
        · exact spelled node member _ (Atom.same_self node.id)
        · exact fun entry _ equal => spelled node member entry.1 equal
  exact step nodes [] (fun _ member => member) (by simp)

/-- In a graph of some nodes, a node stands under a spelling of its id. -/
theorem same_id_of_mem_ofNodes (nodes : List Node) :
    ∀ entry ∈ (ofNodes nodes).nodes, Atom.same entry.1 entry.2.id = true :=
  forall_mem_ofNodes fun _ _ _ equal => equal

/-- The graph that is read is that of the nodes which the given values are read as. -/
theorem ofValue_eq_ok_iff {value : Value} {graph : Graph} :
    ofValue value = .ok graph ↔ ∃ items nodes, nodeValues value = .ok items ∧
      items.mapM Node.ofValue = .ok nodes ∧ graph = ofNodes nodes := by
  unfold ofValue
  cases given : nodeValues value with
  | error fault => simp [bind, Except.bind]
  | ok items =>
      cases read : items.mapM Node.ofValue with
      | error fault => simp [read, bind, Except.bind]
      | ok nodes => simp [read, bind, Except.bind, pure, Except.pure, eq_comm]

/-- When every node stands under its own id, the keys are the ids. -/
theorem ids_eq_keys {graph : Graph} (keyed : ∀ entry ∈ graph.nodes, entry.1 = entry.2.id) :
    graph.nodeList.map (·.id) = Entries.keys graph.nodes := by
  rw [nodeList, Entries.keys, List.map_map]
  exact List.map_congr_left fun entry member => (keyed entry member).symm

/-- In a graph that was read every node stands under its own id, and no id is there twice, when
the ids are texts. -/
theorem keys_of_ofValue {value : Value} {graph : Graph} (loaded : Graph.ofValue value = .ok graph)
    (ids : ∀ node ∈ graph.nodeList, ∃ id, node.id = .text id) :
    (∀ entry ∈ graph.nodes, entry.1 = entry.2.id) ∧ (Entries.keys graph.nodes).Nodup := by
  obtain ⟨_, nodes, _, _, rfl⟩ := ofValue_eq_ok_iff.1 loaded
  constructor
  · intro entry member
    obtain ⟨id, idEq⟩ := ids entry.2 (mem_nodeList.2 ⟨entry.1, member⟩)
    have spelled := same_id_of_mem_ofNodes nodes entry member
    rw [idEq] at spelled ⊢
    exact Atom.same_text_iff.1 spelled
  · have apart : Entries.Apart Atom.same (ofNodes nodes).nodes := Entries.apart_ofPairs _
    refine List.pairwise_map.2 (apart.imp ?_)
    intro first second different equal
    rw [equal, Atom.same_self] at different
    cases different

/-- A graph that was read is proper when its ids and the ends of its edges are texts. -/
theorem proper_of_ofValue {value : Value} {graph : Graph} (loaded : Graph.ofValue value = .ok graph)
    (textual : graph.Textual) : graph.Proper := by
  obtain ⟨keyed, distinct⟩ := keys_of_ofValue loaded textual.ids
  exact ⟨keyed, distinct, textual⟩

namespace Proper

variable {graph : Graph} (proper : graph.Proper) {node : Node} {id : String}

include proper

theorem mem_nodes (member : node ∈ graph.nodeList) : (node.id, node) ∈ graph.nodes := by
  obtain ⟨key, entry⟩ := mem_nodeList.1 member
  exact proper.keyed _ entry ▸ entry

/-- No two nodes have the same id. -/
theorem nodup_ids : (graph.nodeList.map (·.id)).Nodup := by
  rw [ids_eq_keys proper.keyed]
  exact proper.distinct

theorem find?_iff : Entries.find? Atom.same graph.nodes (.text id) = some node ↔
    node ∈ graph.nodeList ∧ node.id = .text id := by
  rw [Entries.find?_iff_mem (Entries.exact_text id) proper.distinct]
  constructor
  · intro member
    exact ⟨mem_nodeList.2 ⟨_, member⟩, (proper.keyed _ member).symm⟩
  · rintro ⟨member, idEq⟩
    exact idEq ▸ proper.mem_nodes member

/-- The same nodes in another order are proper too. -/
theorem perm {other : Graph} (permuted : other.nodes.Perm graph.nodes) : other.Proper where
  keyed entry member := proper.keyed entry (permuted.mem_iff.1 member)
  distinct := (permuted.map _).nodup_iff.2 proper.distinct
  textual := by
    have members : ∀ node, node ∈ other.nodeList → node ∈ graph.nodeList :=
      fun node => (permuted.map _).mem_iff.1
    exact ⟨fun node member => proper.textual.ids node (members node member),
      fun node member => proper.textual.sources node (members node member),
      fun node member => proper.textual.targets node (members node member)⟩

/-- Lookups do not depend on the order of the nodes, whatever is looked up. -/
theorem node_perm {other : Graph} (permuted : other.nodes.Perm graph.nodes) :
    other.node = graph.node := by
  have textKeys : ∀ key ∈ Entries.keys graph.nodes, ∃ id, key = .text id := by
    intro key member
    obtain ⟨node, entry⟩ := Entries.mem_keys_iff.1 member
    obtain ⟨id, idEq⟩ := proper.textual.ids node (mem_nodeList.2 ⟨key, entry⟩)
    exact ⟨id, (proper.keyed _ entry).trans idEq⟩
  have lookup : ∀ key, Entries.find? Atom.same other.nodes key =
      Entries.find? Atom.same graph.nodes key := by
    intro key
    by_cases isText : ∃ id, key = .text id
    · obtain ⟨id, rfl⟩ := isText
      exact Entries.find?_perm (Entries.exact_text id) proper.distinct permuted
    · have unlike : ∀ entry ∈ graph.nodes, Atom.same entry.1 key = false := by
        intro entry member
        obtain ⟨id, idEq⟩ := textKeys entry.1 (List.mem_map_of_mem member)
        rw [idEq, Bool.eq_false_iff]
        exact fun equal => isText ⟨id, Atom.eq_text_of_same equal⟩
      have unlikeOther : ∀ entry ∈ other.nodes, Atom.same entry.1 key = false :=
        fun entry member => unlike entry (permuted.mem_iff.1 member)
      rw [Entries.find?_eq_none_of_unlike unlike, Entries.find?_eq_none_of_unlike unlikeOther]
  funext id
  cases id with
  | atom key => simp only [Graph.node, lookup]
  | list | map | shared => rfl

end Proper

end Graph

end CloudGraph
