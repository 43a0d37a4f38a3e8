import CloudGraph.Proofs.InPlace
import CloudGraph.Proofs.Writable
import Mathlib.Data.List.Flatten

/-!
# Shared objects

An object that occurs more than once in a document is that of a shared part:
`Heap.Presents.shared_of_recurs`. Which parts a node brings into the document is said by
`Graph.SharedPart`.
-/

namespace CloudGraph

open Fragment
open Yaml (uses itemUses entryUses)

namespace Heap

/-- Whether an object occurs more than once among those that can be reached from a slot, as an item
or under a key or as the root. -/
def Recurs (heap : Heap) (root : Slot) (address : Nat) : Prop :=
  ∃ holders : List Nat, holders.Nodup ∧ (∀ holder ∈ holders, heap.Reaches root holder) ∧
    1 < (root.targets ++ holders.flatMap heap.targets).count address

/-- The objects that the slot of a shared part refers to. -/
def partTargets (heap : Heap) (part : Shared) : List Nat :=
  match heap.part? part with
  | some slot => slot.targets
  | none => []

section Counting

variable {heap : Heap}

-- Each object that a value is made of is referred to once, from the slot of the value or from
-- another of its objects; every other reference is an occurrence of a shared part.
mutual

theorem Shows.targets_perm {value : Value} {slot : Slot} {own : List Nat}
    (shown : heap.Shows value slot own) :
    (slot.targets ++ own.flatMap heap.targets).Perm
      (own ++ (uses value).flatMap heap.partTargets) := by
  cases shown with
  | atom scalar => exact .refl _
  | shared known => simp [uses, partTargets, known]
  | @list _ slots own address read parts =>
      have inner := ShowsItems.targets_perm parts
      have own : heap.targets address = slots.flatMap Slot.targets := by
        simp [targets, read, Object.slots]
      rw [List.flatMap_cons, own, uses]
      exact inner.cons address
  | @map _ slots own address read parts =>
      have inner := ShowsEntries.targets_perm parts
      have own : heap.targets address = (slots.map (·.2)).flatMap Slot.targets := by
        simp [targets, read, Object.slots]
      rw [List.flatMap_cons, own, uses]
      exact inner.cons address

theorem ShowsItems.targets_perm {items : List Value} {slots : List Slot} {own : List Nat}
    (shown : heap.ShowsItems items slots own) :
    (slots.flatMap Slot.targets ++ own.flatMap heap.targets).Perm
      (own ++ (itemUses items).flatMap heap.partTargets) := by
  cases shown with
  | nil => exact .refl _
  | cons first rest =>
      have head := Shows.targets_perm first
      have tail := ShowsItems.targets_perm rest
      rw [List.perm_iff_count] at head tail ⊢
      intro address
      have head := head address
      have tail := tail address
      simp only [List.flatMap_cons, List.flatMap_append, List.count_append, itemUses] at head tail ⊢
      omega

theorem ShowsEntries.targets_perm {entries : List (Atom × Value)} {slots : List (Atom × Slot)}
    {own : List Nat} (shown : heap.ShowsEntries entries slots own) :
    ((slots.map (·.2)).flatMap Slot.targets ++ own.flatMap heap.targets).Perm
      (own ++ (entryUses entries).flatMap heap.partTargets) := by
  cases shown with
  | nil => exact .refl _
  | cons first rest =>
      have head := Shows.targets_perm first
      have tail := ShowsEntries.targets_perm rest
      rw [List.perm_iff_count] at head tail ⊢
      intro address
      have head := head address
      have tail := tail address
      simp only [List.map_cons, List.flatMap_cons, List.flatMap_append, List.count_append,
        entryUses] at head tail ⊢
      omega

end

variable {own kept : List Nat}

/-- Each object that the shared parts are made of is referred to once among them, or is the object
of a part. -/
theorem Keeps.targets_perm (keeps : heap.Keeps kept) :
    ((heap.parts.map (·.2)).flatMap Slot.targets ++ kept.flatMap heap.targets).Perm kept := by
  have none : ∀ parts : List (Shared × Slot), itemUses (parts.map (·.1.value)) = [] := by
    intro parts
    induction parts with
    | nil => rfl
    | cons entry parts ih => simp [itemUses, uses_content, ih]
  have whole := ShowsItems.targets_perm keeps
  rwa [none, List.flatMap_nil, List.append_nil] at whole

theorem Keeps.partTargets_subset (keeps : heap.Keeps kept) (part : Shared) :
    heap.partTargets part ⊆ kept := by
  intro address member
  unfold partTargets at member
  split at member
  next slot known =>
    refine keeps.targets_perm.subset (List.mem_append_left _ (List.mem_flatMap.2 ⟨slot, ?_, member⟩))
    obtain ⟨_, _, listed, _⟩ := List.lookup_eq_some_iff.1 known
    rw [listed]
    simp
  next => cases member

namespace Presents

variable {document : Value} {root : Slot} {address : Nat}

/-- All objects that can be reached are those of the document and of the shared parts. -/
theorem mem_of_reaches (presents : heap.Presents document root own kept)
    (reached : heap.Reaches root address) : address ∈ own ++ kept := by
  have ofParts : ∀ parts : List Shared, parts.flatMap heap.partTargets ⊆ own ++ kept := by
    intro parts other member
    obtain ⟨part, -, inPart⟩ := List.mem_flatMap.1 member
    exact List.mem_append_right _ (presents.keeps.partTargets_subset part inPart)
  have inDocument : root.targets ++ own.flatMap heap.targets ⊆ own ++ kept :=
    fun other member => (List.mem_append.1 (presents.shows.targets_perm.subset member)).elim
      (List.mem_append_left _) (ofParts _ ·)
  induction reached with
  | root here => exact inDocument (List.mem_append_left _ here)
  | @next holder address _ refers ih =>
      rcases List.mem_append.1 ih with inOwn | inKept
      · exact inDocument (List.mem_append_right _ (List.mem_flatMap.2 ⟨holder, inOwn, refers⟩))
      · refine List.mem_append_right _ (presents.keeps.targets_perm.subset ?_)
        exact List.mem_append_right _ (List.mem_flatMap.2 ⟨holder, inKept, refers⟩)

/-- An object that occurs more than once is that of a shared part of the document. -/
theorem shared_of_recurs (presents : heap.Presents document root own kept)
    (recurs : heap.Recurs root address) :
    ∃ part ∈ uses document, heap.part? part = some (.object address) := by
  obtain ⟨reached, distinct, reachable, twice⟩ := recurs
  have inside : reached.Subperm (own ++ kept) :=
    List.subperm_of_subset distinct fun holder member =>
      presents.mem_of_reaches (reachable holder member)
  have most : (reached.flatMap heap.targets).count address ≤
      ((own ++ kept).flatMap heap.targets).count address := by
    obtain ⟨holders, same, part⟩ := inside
    rw [← (same.flatMap_right heap.targets).count_eq]
    exact (part.flatMap heap.targets).count_le address
  have once := List.nodup_iff_count_le_one.1 presents.distinct address
  have inDocument := presents.shows.targets_perm.count_eq address
  have inParts := presents.keeps.targets_perm.count_eq address
  simp only [List.count_append, List.flatMap_append] at twice most once inDocument inParts
  -- One reference is accounted for by the object itself; another must come from a shared part.
  have occurs : 0 < ((uses document).flatMap heap.partTargets).count address := by omega
  obtain ⟨part, member, refers⟩ := List.mem_flatMap.1 (List.count_pos_iff.1 occurs)
  refine ⟨part, member, ?_⟩
  unfold partTargets at refers
  split at refers
  next slot known =>
    obtain ⟨other, rfl⟩ := presents.keeps.object known
    obtain rfl := List.mem_singleton.1 refers
    exact known
  next => cases refers

end Presents

end Counting

end Heap

namespace Value

/-- All shared parts in a value are of one sort. -/
def SharesOnly (sort : Shared → Prop) (value : Value) : Prop :=
  ∀ part ∈ uses value, sort part

section

variable {sort : Shared → Prop}

@[simp]
theorem sharesOnly_atom (scalar : Atom) : SharesOnly sort (.atom scalar) := by
  simp [SharesOnly, uses]

@[simp]
theorem sharesOnly_shared (part : Shared) : SharesOnly sort (.shared part) ↔ sort part := by
  simp [SharesOnly, uses]

@[simp]
theorem sharesOnly_list (items : List Value) :
    SharesOnly sort (.list items) ↔ ∀ item ∈ items, SharesOnly sort item := by
  induction items with
  | nil => simp [SharesOnly, uses, itemUses]
  | cons item items ih =>
      simp only [SharesOnly, uses, itemUses, List.mem_append, or_imp, forall_and] at ih ⊢
      rw [ih]
      simp

@[simp]
theorem sharesOnly_map (entries : List (Atom × Value)) :
    SharesOnly sort (.map entries) ↔ ∀ entry ∈ entries, SharesOnly sort entry.2 := by
  induction entries with
  | nil => simp [SharesOnly, uses, entryUses]
  | cons entry entries ih =>
      simp only [SharesOnly, uses, entryUses, List.mem_append, or_imp, forall_and] at ih ⊢
      rw [ih]
      simp

@[simp]
theorem sharesOnly_record (fields : List (String × Value)) :
    SharesOnly sort (.record fields) ↔ ∀ field ∈ fields, SharesOnly sort field.2 := by
  rw [Value.record, sharesOnly_map, List.forall_mem_map]

@[simp]
theorem sharesOnly_texts (items : List String) : SharesOnly sort (.texts items) := by
  simp [Value.texts]

end

end Value

namespace Graph

/-- The shared parts of what a graph compiles to: the region, the account, the actions on buckets,
and for each analytics application the reference to its role. -/
inductive SharedPart (graph : Graph) : Shared → Prop where
  | region : SharedPart graph .region
  | accountId : SharedPart graph .accountId
  | bucketActions : SharedPart graph .bucketActions
  | roleArn {node id} (member : node ∈ graph.nodeList) (isOf : node.IsOf .analyticsStream)
      (idEq : node.id = .text id) : SharedPart graph (.roleArn (id ++ "Role"))

variable {graph : Graph} {node : Node}

open Value (SharesOnly)

section Pieces

variable {sort : Shared → Prop} (region : sort .region) (account : sort .accountId)

theorem sharesOnly_describedAs {name text : String} :
    ∀ field ∈ describedAs name (.text text), SharesOnly sort field.2 := by
  unfold describedAs
  split <;> simp

include region account in
theorem sharesOnly_grant {kind : Kind} {target : String} {statement : Value}
    (granted : grant kind (.text target) = some statement) : SharesOnly sort statement := by
  cases kind <;> simp only [grant, Option.some.injEq, reduceCtorEq] at granted <;>
    subst granted <;>
    simp [allow, statementWith, arn, attributeOf, concat, joined, localArn, deliveryStreamArn,
      functionResource, ref, region, account]

theorem sharesOnly_trigger {kind : Kind} {source : String} {event : Value}
    (fires : trigger kind (.text source) = some event) : SharesOnly sort event := by
  cases kind <;> simp only [trigger, Option.some.injEq, reduceCtorEq] at fires <;>
    subst fires <;> simp [arn, attributeOf]

include region account in
theorem sharesOnly_analyticsEnds {streamField deliveryField roleId : String}
    {stream? delivery? : Option Value} (role : sort (.roleArn roleId))
    (stream : ∀ value, stream? = some value → ∃ name, value = .text name) :
    ∀ field ∈ analyticsEnds streamField deliveryField roleId stream? delivery?,
      SharesOnly sort field.2 := by
  have first : ∀ value, stream? = some value → SharesOnly sort value := by
    intro value some
    obtain ⟨name, rfl⟩ := stream value some
    simp
  cases stream? <;> cases delivery? <;>
    simp_all [analyticsEnds, arn, attributeOf, deliveryStreamArn, localArn, concat, joined]

theorem sharesOnly_analyticsResource {id text : String} {inputEnds : List (String × Value)}
    (ends : ∀ field ∈ inputEnds, SharesOnly sort field.2) :
    SharesOnly sort (analyticsResource (.text id) (.text text) inputEnds) := by
  have described : ∀ field ∈ describedAs "ApplicationDescription" (.text text),
      SharesOnly sort field.2 := sharesOnly_describedAs
  simp only [analyticsResource, resourceOf, Value.sharesOnly_record, List.forall_mem_append,
    List.forall_mem_cons]
  refine ⟨by simp, ⟨⟨by simp, ?_, by simp⟩, described⟩, by simp⟩
  simpa [analyticsInput, or_imp, forall_and] using ends

theorem sharesOnly_analyticsOutputs {id : String} {outputEnds : List (String × Value)}
    (ends : ∀ field ∈ outputEnds, SharesOnly sort field.2) :
    SharesOnly sort (analyticsOutputs (.text id) outputEnds) := by
  simpa [analyticsOutputs, analyticsOutput, ref, or_imp, forall_and] using ends

theorem sharesOnly_topicRuleResource {text : String} {actions : List Value}
    (each : ∀ action ∈ actions, SharesOnly sort action) :
    SharesOnly sort (topicRuleResource (.text text) actions) := by
  have described : ∀ field ∈ describedAs "Description" (.text text), SharesOnly sort field.2 :=
    sharesOnly_describedAs
  simp only [topicRuleResource, resourceOf, Value.sharesOnly_record, List.forall_mem_append,
    List.forall_mem_cons]
  exact ⟨by simp, ⟨⟨⟨by simp, by simp, by simpa using each, by simp⟩, described⟩, by simp⟩,
    by simp⟩

theorem sharesOnly_action {target action : Value} (own : graph.ActionOf target action)
    (isText : ∃ name, target = .text name) : SharesOnly sort action := by
  obtain ⟨name, rfl⟩ := isText
  cases own <;>
    simp [invokeAction, republishAction, arn, attributeOf, functionResource]

end Pieces

namespace Proper

variable (proper : graph.Proper) (member : node ∈ graph.nodeList)
  (described : ∃ text, node.description = .text text)

include proper member described

/-- Everything that a node stores has no other shared parts. -/
theorem sharesOnly_stores {pair : Atom × Value} (stored : pair ∈ graph.stores node) :
    SharesOnly graph.SharedPart pair.2 := by
  have inRegion : graph.SharedPart .region := .region
  have inAccount : graph.SharedPart .accountId := .accountId
  obtain ⟨text, textEq⟩ := described
  obtain ⟨id, idEq⟩ := proper.textual.ids node member
  cases proper.contributes_of_mem member idEq stored with
  | @fixed kind resource isOf isFixed =>
      cases kind <;> cases isFixed <;>
        simp [plainResource, tableResource, streamResource, stateMachineResource, resourceOf,
          concat, joined, inRegion, inAccount]
  | deliveryStream =>
      cases graph.lastOf? .function node.targets <;>
        simp [deliveryStreamResource, deliveryDestination, arn, attributeOf, ref, functionResource]
  | deliveryRole =>
      intro part used
      obtain rfl := List.mem_singleton.1 (show part ∈ [.accountId] from used)
      exact inAccount
  | deliveryPolicy =>
      simp [deliveryPolicy, attachedPolicy, policy, allow, statementWith, arn, attributeOf, ref,
        SharedPart.bucketActions]
  | analyticsRole | identityPool | identityRole =>
      intro part used
      cases used
  | publishRole =>
      intro part used
      rcases List.mem_pair.1 (show part ∈ [.region, .accountId] from used) with rfl | rfl
      exacts [inRegion, inAccount]
  | application isOf =>
      rw [textEq]
      exact sharesOnly_analyticsResource (sharesOnly_analyticsEnds inRegion inAccount
        (.roleArn member isOf idEq) fun _ => exists_text_of_lastOf? (proper.sources_text member))
  | outputs isOf =>
      exact sharesOnly_analyticsOutputs (sharesOnly_analyticsEnds inRegion inAccount
        (.roleArn member isOf idEq) fun _ => exists_text_of_lastOf? (proper.targets_text member))
  | identityPolicy =>
      have granted : ∀ statement ∈ graph.grants node.targets,
          SharesOnly graph.SharedPart statement := by
        intro statement inGrants
        obtain ⟨target, leads, kind, _, granted⟩ := mem_grants.1 inGrants
        obtain ⟨name, rfl⟩ := proper.targets_text member target leads
        exact sharesOnly_grant inRegion inAccount granted
      simpa [identityPolicy, attachedPolicy, policy, ref] using granted
  | topicRule isOf each =>
      rw [textEq]
      refine sharesOnly_topicRuleResource fun action inActions => ?_
      obtain ⟨target, leads, own⟩ := each action inActions
      exact sharesOnly_action own (proper.targets_text member target leads)

end Proper

end Graph

end CloudGraph
