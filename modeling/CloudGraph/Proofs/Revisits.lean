import CloudGraph.Proofs.Footprints
import CloudGraph.Proofs.Scaffolding

/-!
# Visiting a node again

What a visit leaves is told by its node alone, so that a second visit writes what is there already:
the keys keep their places and take the values that they have. That holds for a visit that stops at
an edge which leads nowhere too, and for a topic rule whose place a role has taken:
`Graph.performAll_visits_again`.
-/

namespace CloudGraph

namespace Entries

variable {κ α : Type} [DecidableEq κ] {same : κ → κ → Bool} {key : κ} {value : α}
  {entries : Entries κ α} {pairs : List (κ × α)}

/-- Setting a key that is there changes nothing when the key is set again afterwards. -/
theorem putAll_put_of_mem (exact : Exact same key) (exactPairs : AllExact same pairs)
    (present : key ∈ keys entries) (again : key ∈ keys pairs) :
    putAll same (put same entries key value) pairs = putAll same entries pairs := by
  induction pairs generalizing entries with
  | nil => cases again
  | cons pair pairs ih =>
      rw [putAll_cons, putAll_cons]
      by_cases equal : key = pair.1
      · rw [equal, put_put exactPairs.head]
      · have later : key ∈ keys pairs := (List.mem_cons.1 again).resolve_left equal
        rw [← put_comm exact exactPairs.head equal present]
        exact ih exactPairs.tail ((mem_keys_put exactPairs.head).2 (.inr present)) later

/-- A key that is there may be set before others as well as after them. -/
theorem put_putAll (exact : Exact same key) (exactPairs : AllExact same pairs)
    (present : key ∈ keys entries) (absent : key ∉ keys pairs) :
    put same (putAll same entries pairs) key value =
      putAll same (put same entries key value) pairs := by
  induction pairs generalizing entries with
  | nil => rfl
  | cons pair pairs ih =>
      rw [keys_cons, List.mem_cons, not_or] at absent
      rw [putAll_cons, putAll_cons,
        ih exactPairs.tail ((mem_keys_put exactPairs.head).2 (.inr present)) absent.2,
        put_comm exact exactPairs.head absent.1 present]

/-- Setting the same pairs again changes nothing. -/
theorem putAll_again (exact : AllExact same pairs) :
    putAll same (putAll same entries pairs) pairs = putAll same entries pairs := by
  induction pairs generalizing entries with
  | nil => rfl
  | cons pair pairs ih =>
      have present : pair.1 ∈ keys (put same entries pair.1 pair.2) :=
        (mem_keys_put exact.head).2 (.inl rfl)
      rw [putAll_cons, putAll_cons]
      by_cases again : pair.1 ∈ keys pairs
      · have kept : pair.1 ∈ keys (putAll same (put same entries pair.1 pair.2) pairs) :=
          (mem_keys_putAll exact.tail).2 (.inl present)
        rw [putAll_put_of_mem exact.head exact.tail kept again, ih exact.tail]
      · rw [put_putAll exact.head exact.tail present again, put_put exact.head, ih exact.tail]

end Entries

namespace Draft

theorem storing_again (draft : Draft) {resources : List (Atom × Value)}
    (exact : Entries.AllExact Atom.same resources) :
    (draft.storing resources).storing resources = draft.storing resources := by
  simp [storing, Entries.putAll_again exact]

/-- The plugin that reads statements is put in once. -/
theorem pluginsWithRoles_twice (plugins : List Value) :
    pluginsWithRoles (pluginsWithRoles plugins) = pluginsWithRoles plugins := by
  have held : (pluginsWithRoles plugins).any isRoles = true := by
    unfold pluginsWithRoles
    split
    next held => exact held
    · simp [isRoles]
  rw [pluginsWithRoles, if_pos held]

/-- A file that is there already is not provided. -/
theorem providing_of_mem {draft : Draft} {name : String} (contents : String)
    (present : name ∈ Entries.keys draft.files) : draft.providing name contents = draft := by
  obtain ⟨held, found⟩ := (Entries.mem_keys_iff_find? (Entries.exact_name name)).1 present
  exact providing_of_present found

end Draft

namespace Graph

open Plan (Ends)

variable {graph : Graph} {runtimeId : Value} {node : Node}

/-- A second visit of a function puts its definition and its files where they are. -/
theorem entering_again {id : String} (idEq : node.id = .text id) (runtime : Runtime)
    (draft : Draft) :
    graph.entering runtime node (graph.entering runtime node draft) =
      graph.entering runtime node draft := by
  have ignored : ignoreFile ∈ Entries.keys (graph.entering runtime node draft).files := by
    rw [entering_eq]
    exact (Entries.mem_keys_put (Entries.exact_name _)).2
      (.inr (Draft.mem_keys_providing draft ignoreFile runtime.ignored))
  rw [graph.entering_eq runtime node (graph.entering runtime node draft),
    Draft.providing_of_mem _ ignored, entering_eq]
  congr 1
  · rw [idEq, Entries.put_put (Entries.exact_text id)]
  · split
    · rfl
    · rw [Option.getD_some, Draft.pluginsWithRoles_twice]
  · exact Entries.put_put (Entries.exact_name _) _

namespace Keyed

variable (keyed : graph.Keyed)

include keyed

/-- What a visit leaves is left as it is by another visit of the node. -/
theorem entered_again (member : node ∈ graph.nodeList) (draft : Draft) :
    graph.entered runtimeId node (graph.entered runtimeId node draft) =
      graph.entered runtimeId node draft := by
  obtain ⟨id, idEq⟩ := keyed.ids node member
  unfold entered
  cases kindEq : node.kind? with
  | none => rfl
  | some kind =>
      have stores (noFunction : kind ≠ .function) :
          Entries.AllExact Atom.same (Plan.stored (graph.visit runtimeId kind node)) := by
        intro resource stored
        have own := (graph.visit_storesAt node runtimeId noFunction).mem_stored stored
        obtain ⟨name, text⟩ := text_of_mem_resourceKeys idEq kind resource.1 own
        exact text ▸ Entries.exact_text name
      cases kind with
      | function =>
          cases Runtime.ofId runtimeId with
          | error fault => rfl
          | ok runtime => exact entering_again idEq runtime draft
      | _ => exact draft.storing_again (stores (by simp))

/-- The second of two visits in a row ends as the first one and changes nothing. -/
theorem visits_again (member : node ∈ graph.nodeList) (draft : Draft) :
    let visit := graph.perform runtimeId (.visit (.atom node.id))
    let first := Plan.carryOut visit draft.project
    let second := Plan.carryOut visit first.project
    second.result = first.result ∧ second.project = first.project := by
  obtain ⟨firstResult, firstLeft⟩ := (keyed.perform_visit_ends member draft).carryOut_eq
  obtain ⟨secondResult, secondLeft⟩ :=
    (keyed.perform_visit_ends member (graph.entered runtimeId node draft)).carryOut_eq
  dsimp only
  rw [firstLeft]
  refine ⟨secondResult.trans firstResult.symm, secondLeft.trans ?_⟩
  rw [keyed.entered_again member]

end Keyed

/-- In every state that operations can reach from an empty project, the second of two visits of a
node in a row ends as the first one, in success or with the same fault, and leaves the document and
the files exactly as the first one left them. -/
theorem performAll_visits_again {value : Value} (loaded : Graph.ofValue value = .ok graph)
    (ids : ∀ node ∈ graph.nodeList, ∃ id, node.id = .text id)
    (service runtimeId provider : Value) (operations : List Operation)
    (member : node ∈ graph.nodeList) :
    let reached :=
      graph.performAll runtimeId (Project.create service runtimeId provider) operations
    let visit := graph.perform runtimeId (.visit (.atom node.id))
    let first := Plan.carryOut visit reached
    let second := Plan.carryOut visit first.project
    second.result = first.result ∧ second.project = first.project := by
  have keyed := keyed_of_ofValue loaded ids
  obtain ⟨draft, _, left⟩ := @Keyed.performAll_steps graph runtimeId keyed operations
    (Draft.empty service runtimeId provider)
  have created : Project.create service runtimeId provider =
      (Draft.empty service runtimeId provider).project := rfl
  rw [created, left]
  exact keyed.visits_again member draft

end Graph

/-- A topic rule under the id of the role that it publishes to another rule under. Its last edge
leads nowhere. -/
def beaconNodes : List Node := [
  ⟨.text "relayPublishRole", .text "iotRule", .text "", [],
    [.text "resize", .text "relay", .text "resize", .text "lost"]⟩,
  ⟨.text "relay", .text "iotRule", .text "", [], []⟩,
  ⟨.text "resize", .text "fn", .text "", [], []⟩]

/-- The architecture of a beacon. -/
def beacon : Graph :=
  .ofNodes beaconNodes

theorem nodeList_beacon : beacon.nodeList = beaconNodes := rfl

theorem beacon_loaded :
    Graph.ofValue (.record [("nodes", .list (beaconNodes.map Node.toValue))]) = .ok beacon :=
  rfl

namespace Graph

/-- The rule whose place the role takes is visited among other operations, and both visits fail at
its last edge. -/
theorem beacon_visits_again :
    let reached := beacon.performAll (.text "python3.7")
      (Project.create (.text "pictures") (.text "python3.7") (.text "aws"))
      [.visit (.text "resize"), .wire (.text "resize") (.text "relay"),
        .visit (.text "relayPublishRole")]
    let visit := beacon.perform (.text "python3.7") (.visit (.text "relayPublishRole"))
    let first := Plan.carryOut visit reached
    let second := Plan.carryOut visit first.project
    first.result = .error (.missingKey (.text "lost")) ∧
      second.result = first.result ∧ second.project = first.project := by
  have member : (⟨.text "relayPublishRole", .text "iotRule", .text "", [],
      [.text "resize", .text "relay", .text "resize", .text "lost"]⟩ : Node) ∈ beacon.nodeList := by
    simp [nodeList_beacon, beaconNodes]
  have ids : ∀ node ∈ beacon.nodeList, ∃ id, node.id = .text id := by
    simp [nodeList_beacon, beaconNodes]
  exact ⟨rfl, performAll_visits_again beacon_loaded ids _ _ _ _ member⟩

end Graph

end CloudGraph
