import CloudGraph.Proofs.Inventory
import CloudGraph.Proofs.Serialised
import CloudGraph.Proofs.SharedParts

/-!
# The objects of a compilation

A compilation is carried out in place: `Order.laidOut` are the objects of an empty project, and the
edits of the plan change them one after the other. At every moment they are the document, an object
that occurs more than once is that of a shared part, and every shared part has the content that it
was made with. The descriptor that is written of them in the end therefore has an anchor where such
an object is written out, and aliases that stand for it: `Graph.Proper.compile_shares_parts`.
-/

namespace CloudGraph

open Yaml (uses)

/-- The objects of an empty project, and where its document is. -/
def Order.laidOut (order : Order) : Slot × Heap :=
  Heap.place (Project.create order.service order.runtime order.provider).document Heap.empty

namespace Graph

/-- The objects that a document is made of at some moment of a compilation. -/
structure SharesParts (graph : Graph) (heap : Heap) (root : Slot) (document : Value) : Prop where
  shows : ∃ own, heap.Shows document.expand root own
  /-- What occurs more than once is a part that may be shared. -/
  recurs : ∀ address, heap.Recurs root address →
    ∃ part, graph.SharedPart part ∧ heap.part? part = some (.object address)
  /-- Different parts have different objects. -/
  apart : ∀ first second slot, heap.part? first = some slot → heap.part? second = some slot →
    first = second
  /-- Every part has its content. -/
  content : ∀ part slot, heap.part? part = some slot → ∃ own, heap.Shows part.value slot own
  /-- The role of an analytics application is shared by what one node brings. -/
  role : ∀ role slot, heap.part? (.roleArn role) = some slot →
    ∃! node, node ∈ graph.nodeList ∧ node.IsOf .analyticsStream ∧
      ∃ id, node.id = .text id ∧ role = id ++ "Role"
  written : heap.WrittenAs root (Yaml.Node.ofValue document)

/-- Carrying a compilation out in place. Whatever has been made of the document at some moment, the
parts in it are where they are at any later moment. -/
structure MakesInPlace (graph : Graph) (order : Order) (project : Project) : Prop where
  moments : ∀ made next rest, (graph.plan order.runtime).steps = made ++ next ++ rest →
    let start := Project.create order.service order.runtime order.provider
    let (root, heap) := order.laidOut
    ∃ between later, heap.editAll root made = .ok between ∧ between.editAll root next = .ok later ∧
      graph.SharesParts between root (start.editAll made).project.document ∧
      ∀ part slot, between.part? part = some slot → later.part? part = some slot
  ending :
    let (root, heap) := order.laidOut
    ∃ last, heap.editAll root (graph.plan order.runtime).steps = .ok last ∧
      graph.SharesParts last root project.document

end Graph

/-- Different parts have different objects. -/
theorem Heap.Presents.part_injective {heap : Heap} {document : Value} {root slot : Slot}
    {own kept : List Nat} (presents : heap.Presents document root own kept) {first second : Shared}
    (known : heap.part? first = some slot) (otherKnown : heap.part? second = some slot) :
    first = second := by
  obtain ⟨content, contents⟩ := presents.keeps.contents presents.distinct.of_append_right
  exact contents.home_injective known otherKnown (by rw [home, home, known, otherKnown])

namespace Graph

variable {graph : Graph} {order : Order}

namespace Proper

/-- The role of an analytics application is that of one node. -/
theorem unique_role (proper : graph.Proper) {role : String}
    (shared : graph.SharedPart (.roleArn role)) :
    ∃! node, node ∈ graph.nodeList ∧ node.IsOf .analyticsStream ∧
      ∃ id, node.id = .text id ∧ role = id ++ "Role" := by
  have ids : (graph.nodes.map (·.2.id)).Nodup := by
    have apart := proper.nodup_ids
    rwa [nodeList, List.map_map] at apart
  generalize sharedEq : Shared.roleArn role = part at shared
  cases shared with
  | region | accountId | bucketActions => cases sharedEq
  | @roleArn node id member isOf idEq =>
      obtain rfl := Shared.roleArn.inj sharedEq
      refine ⟨node, ⟨member, isOf, id, idEq, rfl⟩, ?_⟩
      rintro other ⟨otherMember, -, otherId, otherIdEq, roleEq⟩
      obtain rfl : id = otherId := by simpa using roleEq
      obtain ⟨first, firstEntry, rfl⟩ := List.mem_map.1 member
      obtain ⟨second, secondEntry, rfl⟩ := List.mem_map.1 otherMember
      exact congrArg (·.2) (List.inj_on_of_nodup_map ids secondEntry firstEntry
        (otherIdEq.trans idEq.symm))

end Proper

/-- The objects of a project that a compilation has come to. -/
structure Moment (graph : Graph) (heap : Heap) (root : Slot) (project : Project) : Prop where
  solid : ∃ draft : Draft, project = draft.project ∧ draft.Solid
  presents : ∃ own kept, heap.Presents project.document root own kept
  sorted : ∀ part slot, heap.part? part = some slot → graph.SharedPart part

namespace Moment

variable {heap : Heap} {root : Slot} {project : Project}

theorem sharesParts (proper : graph.Proper) (moment : graph.Moment heap root project) :
    graph.SharesParts heap root project.document := by
  obtain ⟨own, kept, presents⟩ := moment.presents
  constructor
  case shows => exact presents.shows.expand presents.keeps
  case recurs =>
    intro address recurs
    obtain ⟨part, -, known⟩ := presents.shared_of_recurs recurs
    exact ⟨part, moment.sorted part _ known, known⟩
  case apart => exact fun _ _ _ => presents.part_injective
  case content =>
    intro part slot known
    obtain ⟨_, inner, _, -, shown⟩ := presents.keeps.shows known
    exact ⟨inner, shown⟩
  case role => exact fun role slot known => proper.unique_role (moment.sorted _ slot known)
  case written => exact presents.writtenAs

/-- The objects of an empty project. -/
theorem start (service : uses order.service = []) (provider : uses order.provider = [])
    (runtime : uses order.runtime = []) :
    graph.Moment order.laidOut.2 order.laidOut.1
      (Project.create order.service order.runtime order.provider) := by
  obtain ⟨own, kept, presents, advances⟩ := Heap.Presents.placed
    (Project.create order.service order.runtime order.provider).document
  refine ⟨⟨.empty order.service order.runtime order.provider, rfl, fun _ member => nomatch member⟩,
    ⟨own, kept, presents⟩, fun part slot known => ?_⟩
  rcases advances.parts_of part slot known with before | used
  · cases before
  · simp [Project.create, Value.record, uses, Yaml.entryUses, service, provider, runtime] at used

/-- Edits that assemble the document do so in place. -/
theorem editAll {edits : List Edit} (moment : graph.Moment heap root project)
    (each : ∀ edit ∈ edits, graph.Assembles edit)
    (made : (project.editAll edits).result = .ok ()) :
    ∃ next, heap.editAll root edits = .ok next ∧
      graph.Moment next root (project.editAll edits).project ∧
      ∀ part slot, heap.part? part = some slot → next.part? part = some slot := by
  obtain ⟨own, kept, presents⟩ := moment.presents
  obtain ⟨next, ownNext, more, edited, presentsNext, advances, solidNext⟩ := presents.editAll
    (fun project => ∃ draft : Draft, project = draft.project ∧ draft.Solid)
    (fun edit member before after solid edited => by
      obtain ⟨draft, rfl, solid⟩ := solid
      exact (each edit member).builds.step solid edited)
    moment.solid made
  refine ⟨next, edited, ⟨solidNext, ⟨_, _, presentsNext⟩, fun part slot known => ?_⟩,
    advances.parts⟩
  rcases advances.parts_of part slot known with before | used
  · exact moment.sorted part slot before
  · obtain ⟨edit, member, inEdit⟩ := List.mem_flatMap.1 used
    exact (each edit member).shares part inEdit

end Moment

/-- A compilation makes all edits of its plan. -/
theorem editAll_of_compile {project : Project}
    (compiled : (graph.compile order).result = .ok project) :
    let made := (Project.create order.service order.runtime order.provider).editAll
      (graph.plan order.runtime).steps
    made.result = .ok () ∧ made.project = project := by
  unfold Graph.compile Plan.carryOut at compiled
  generalize (Project.create order.service order.runtime order.provider).editAll
    (graph.plan order.runtime).steps = made at compiled ⊢
  obtain ⟨_, ended, rest⟩ := Trace.result_bind_eq_ok.1 compiled
  cases result : made.result with
  | error fault => simp [result] at ended
  | ok =>
      obtain ⟨_, _, rest⟩ := Trace.result_bind_eq_ok.1 rest
      obtain ⟨_, _, rest⟩ := Trace.result_bind_eq_ok.1 rest
      simp only [result] at rest
      exact ⟨result, Except.ok.inj rest⟩

variable {project : Project}

/-- What the descriptor has anchors and aliases for. -/
theorem anchors_of_render {files : Entries String String}
    (compiled : (graph.compile order).result = .ok project)
    (rendered : (graph.render order).result = .ok files) :
    ∃ text, Entries.find? Project.sameName files descriptorFile = some text ∧
      Yaml.Anchors project.document text.toList := by
  rw [render_result compiled] at rendered
  have made : project.render = .ok files := by
    split at rendered
    · cases rendered
    · exact rendered
  unfold Project.render at made
  cases written : Yaml.descriptorText project.document with
  | error fault => simp [written, bind, Except.bind] at made
  | ok text =>
      have put : Entries.put Project.sameName project.files descriptorFile text = files := by
        simpa [written, bind, Except.bind, pure, Except.pure] using made
      refine ⟨text, ?_, Yaml.descriptorText_anchors written⟩
      rw [← put, Entries.find?_put_self (Entries.exact_name descriptorFile)]

namespace Proper

/-- A compilation makes its document in place. -/
theorem makesInPlace (proper : graph.Proper)
    (described : ∀ node ∈ graph.nodeList, ∃ text, node.description = .text text)
    (service : uses order.service = []) (provider : uses order.provider = [])
    (compiled : (graph.compile order).result = .ok project) : graph.MakesInPlace order project := by
  have assembles : ∀ edit ∈ (graph.plan order.runtime).steps, graph.Assembles edit :=
    proper.plan_assembles described compiled
  obtain ⟨succeeded, left⟩ := editAll_of_compile compiled
  obtain ⟨runtime, known, -⟩ := visits_of_compile compiled
  have runtimeUses : uses order.runtime = [] := by
    rw [(Runtime.of_ofId known).2]
    rfl
  have start : graph.Moment order.laidOut.2 order.laidOut.1
      (Project.create order.service order.runtime order.provider) :=
    .start service provider runtimeUses
  constructor
  case moments =>
    -- The edits up to a moment and those up to a later one have succeeded, as all have.
    intro made next rest whole
    rw [whole] at assembles succeeded
    have both := Project.editAll_append_eq_ok succeeded
    have first := Project.editAll_append_eq_ok both
    have second := (Project.editAll_append_ok next first).1.symm.trans both
    obtain ⟨between, edited, moment, -⟩ := start.editAll
      (fun edit member => assembles edit (by simp [member])) first
    obtain ⟨later, editedNext, -, kept⟩ := moment.editAll
      (fun edit member => assembles edit (by simp [member])) second
    exact ⟨between, later, edited, editedNext, moment.sharesParts proper, kept⟩
  case ending =>
    obtain ⟨last, edited, moment, -⟩ := start.editAll assembles succeeded
    exact ⟨last, edited, left ▸ moment.sharesParts proper⟩

/-- Only values from outside can be without a form. -/
theorem exists_render (proper : graph.Proper)
    (described : ∀ node ∈ graph.nodeList, ∃ text, node.description = .text text)
    (compiled : (graph.compile order).result = .ok project) (free : order.obstacle? = none)
    (service : Yaml.writable order.service = true) (provider : Yaml.writable order.provider = true) :
    ∃ files, (graph.render order).result = .ok files := by
  obtain ⟨runtime, known, -, rfl⟩ := proper.eq_blueprint compiled
  have formed := proper.writable_blueprint known service provider fun node member => by
    obtain ⟨text, textEq⟩ := described node member
    rw [textEq]
    rfl
  rw [render_result compiled, free]
  simp [Project.render, Yaml.descriptorText, formed, bind, Except.bind, pure, Except.pure]

/-- Sharing in a descriptor is sound. The objects of what a graph compiles to come about in place,
and at every moment those that occur more than once are parts that may be shared, with the content
that they were made with. In the text every alias stands for such an object, which is written out
under the anchor. What comes from outside brings no shared parts, and the text is there if all of it
has a form. -/
theorem compile_shares_parts (proper : graph.Proper)
    (described : ∀ node ∈ graph.nodeList, ∃ text, node.description = .text text)
    (service : uses order.service = []) (provider : uses order.provider = [])
    (compiled : (graph.compile order).result = .ok project) :
    graph.MakesInPlace order project ∧
      (∀ files, (graph.render order).result = .ok files →
        ∃ text, Entries.find? Project.sameName files descriptorFile = some text ∧
          Yaml.Anchors project.document text.toList) ∧
      (order.obstacle? = none → Yaml.writable order.service = true →
        Yaml.writable order.provider = true → ∃ files, (graph.render order).result = .ok files) :=
  ⟨proper.makesInPlace described service provider compiled,
    fun _ rendered => anchors_of_render compiled rendered,
    proper.exists_render described compiled⟩

end Proper

end Graph

/-- Two delivery streams and an application that reads from one and writes to the other. The table
takes the place of the policy of the second delivery stream. -/
def telemetryNodes : List Node := [
  ⟨.text "alarm", .text "iotRule", .text "", [], [.text "relay"]⟩,
  ⟨.text "relay", .text "iotRule", .text "", [.text "alarm"], []⟩,
  ⟨.text "store", .text "bucket", .text "", [], []⟩,
  ⟨.text "clicks", .text "stream", .text "", [], []⟩,
  ⟨.text "archive", .text "deliveryStream", .text "", [], [.text "store"]⟩,
  ⟨.text "mirror", .text "deliveryStream", .text "", [], [.text "store"]⟩,
  ⟨.text "trends", .text "analyticsStream", .text "Hourly", [.text "clicks", .text "archive"],
    [.text "clicks", .text "mirror"]⟩,
  ⟨.text "mirrorDeliveryPolicy", .text "table", .text "", [], []⟩]

/-- The architecture that counts clicks. -/
def telemetry : Graph :=
  .ofNodes telemetryNodes

theorem nodeList_telemetry : telemetry.nodeList = telemetryNodes := rfl

theorem telemetry_proper : telemetry.Proper := by
  have textual : telemetry.Textual := by
    constructor <;> simp [nodeList_telemetry, telemetryNodes]
  have loaded : Graph.ofValue (.record [("nodes", .list (telemetryNodes.map Node.toValue))]) =
      .ok telemetry := rfl
  exact Graph.proper_of_ofValue loaded textual

theorem telemetry_described : ∀ node ∈ telemetry.nodeList, ∃ text, node.description = .text text := by
  simp [nodeList_telemetry, telemetryNodes]

theorem telemetry_compiles : ∃ project, (telemetry.compile thumbnailOrder).result = .ok project := by
  have typed : telemetry.Typed := by simp [Graph.Typed, nodeList_telemetry, telemetryNodes]
  have clear : telemetry.nodeList.findSome? telemetry.fault? = none := by decide +kernel
  obtain ⟨runtime, known⟩ : ∃ runtime, Runtime.ofId thumbnailOrder.runtime = .ok runtime := ⟨_, rfl⟩
  have compiled := telemetry_proper.compile_result typed known
  rw [clear] at compiled
  exact ⟨_, compiled⟩

namespace Graph

theorem telemetry_shares_parts :
    ∃ files project text, (telemetry.render thumbnailOrder).result = .ok files ∧
      (telemetry.compile thumbnailOrder).result = .ok project ∧
      telemetry.MakesInPlace thumbnailOrder project ∧
      Entries.find? Project.sameName files descriptorFile = some text ∧
      Yaml.Anchors project.document text.toList ∧
      project.document.marks =
        [.anchor 2, .anchor 1, .alias 1, .alias 1, .anchor 3, .alias 2, .alias 1, .alias 3, .alias 3,
          .alias 2, .alias 1, .alias 3] := by
  obtain ⟨project, compiled⟩ := telemetry_compiles
  obtain ⟨inPlace, shown, renders⟩ :=
    telemetry_proper.compile_shares_parts telemetry_described rfl rfl compiled
  obtain ⟨files, rendered⟩ := renders rfl rfl rfl
  obtain ⟨text, found, anchors⟩ := shown files rendered
  refine ⟨files, project, text, rendered, compiled, inPlace, found, anchors, ?_⟩
  obtain ⟨runtime, known, -, rfl⟩ := telemetry_proper.eq_blueprint compiled
  obtain rfl := Except.ok.inj (known.symm.trans rfl)
  decide +kernel

end Graph

end CloudGraph
