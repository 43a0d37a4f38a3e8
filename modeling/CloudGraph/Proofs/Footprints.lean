import CloudGraph.Proofs.Operations

/-!
# What a visit may change

A visit only ever adds, and only what belongs to its node. `Graph.Confined` lists what that is for
each kind: the definition and the source file of a function, and the resources that are named after
the node. Everything else of the project stays as it is, and no key is taken away, also when the
visit stops at an edge that leads nowhere: `Graph.performAll_confines`.
-/

namespace CloudGraph

namespace Entries

variable {κ α : Type} {same : κ → κ → Bool}

/-- Entries have changed under some keys alone. No key is gone, new ones come last, and what is
under the other keys is what was there before. -/
structure ChangedAt (own : κ → Prop) (before after : Entries κ α) : Prop where
  keys : keys before <+: keys after
  others : ∀ entry, ¬own entry.1 → (entry ∈ after ↔ entry ∈ before)

namespace ChangedAt

variable {own : κ → Prop} {before middle after : Entries κ α}

theorem refl (own : κ → Prop) (entries : Entries κ α) : ChangedAt own entries entries :=
  ⟨List.prefix_rfl, fun _ _ => .rfl⟩

theorem trans (first : ChangedAt own before middle) (second : ChangedAt own middle after) :
    ChangedAt own before after :=
  ⟨first.keys.trans second.keys, fun entry other =>
    (second.others entry other).trans (first.others entry other)⟩

theorem put [DecidableEq κ] {key : κ} (exact : Exact same key) (mine : own key) (value : α) :
    ChangedAt own before (Entries.put same before key value) where
  keys := by
    rw [keys_put exact]
    split
    · exact List.prefix_rfl
    · exact List.prefix_append _ _
  others := by
    intro entry other
    have different : entry.1 ≠ key := fun equal => other (equal ▸ mine)
    exact mem_put_of_ne exact different

theorem putAll [DecidableEq κ] {pairs : List (κ × α)}
    (each : ∀ pair ∈ pairs, Exact same pair.1 ∧ own pair.1) :
    ChangedAt own before (Entries.putAll same before pairs) := by
  induction pairs generalizing before with
  | nil => exact refl own before
  | cons pair pairs ih =>
      obtain ⟨⟨exact, mine⟩, rest⟩ := List.forall_mem_cons.1 each
      exact (put exact mine pair.2).trans (ih rest)

end ChangedAt

end Entries

/-- What is under a key of the document is a field of the draft. -/
theorem Draft.item_eq_ok_iff {draft : Draft} {name : String} {part : Value} :
    draft.project.document.item (.text name) = .ok part ↔ (name, part) ∈ draft.fields := by
  have exact := Entries.exact_text name
  have distinct : (Entries.keys (recordEntries draft.fields)).Nodup := by
    cases plugins : draft.plugins? <;> simp [recordEntries, Entries.keys, fields, plugins]
  have member : (.text name, part) ∈ recordEntries draft.fields ↔ (name, part) ∈ draft.fields := by
    simp [recordEntries]
  rw [← member]
  simp only [project, record_eq, Value.item, Value.content]
  constructor
  · intro held
    split at held
    next found => exact Except.ok.inj held ▸ Entries.mem_of_find? exact found
    next => cases held
  · intro entry
    rw [Entries.find?_of_mem exact distinct entry]

namespace Graph

open Entries (ChangedAt)

/-- The files that a visit of a node may write: the source file of a function, and the ignore file
if there is none yet. -/
def OwnsFile (runtimeId : Value) (node : Node) (files : Entries String String) (name : String) :
    Prop :=
  node.IsOf .function ∧
    ((∃ runtime, Runtime.ofId runtimeId = .ok runtime ∧
        name = runtime.sourceFile (.atom node.id)) ∨
      name = ignoreFile ∧ ignoreFile ∉ Entries.keys files)

/-- A draft has changed only in what a visit of a node may change. -/
structure Confined (graph : Graph) (runtimeId : Value) (node : Node) (before after : Draft) :
    Prop where
  service : after.service = before.service
  runtime : after.runtime = before.runtime
  provider : after.provider = before.provider
  functions : ChangedAt (fun key => node.IsOf .function ∧ key = node.id)
    before.functions after.functions
  resources : ChangedAt (fun key => ∃ kind, node.IsOf kind ∧ key ∈ graph.resourceKeys node kind)
    before.resources after.resources
  files : ChangedAt (OwnsFile runtimeId node before.files) before.files after.files
  /-- An ignore file that is there is never written again. -/
  ignored : ∀ contents, (ignoreFile, contents) ∈ before.files →
    (ignoreFile, contents) ∈ after.files
  /-- The plugins stay as they are, or a function has put one after them. -/
  plugins : after.plugins? = before.plugins? ∨ node.IsOf .function ∧
    after.plugins? = some (before.plugins?.getD [] ++ [.text rolesPlugin])

variable {graph : Graph} {runtimeId : Value} {node : Node}

/-- No key of the document is taken away, and what is under a key stays as it is, except where
visits add something. -/
theorem Confined.item_document {before after : Draft}
    (confined : graph.Confined runtimeId node before after) {name : String} {part : Value}
    (held : before.project.document.item (.text name) = .ok part) :
    ∃ left, after.project.document.item (.text name) = .ok left ∧
      (name ∉ ["functions", "resources", "plugins"] → left = part) := by
  simp only [Draft.item_eq_ok_iff] at held ⊢
  simp only [Draft.fields, List.mem_append, List.mem_cons, List.not_mem_nil, or_false] at held
  rcases held with (service | provider | functions | resources) | plugins
  · cases service
    exact ⟨_, .head _, fun _ => confined.service⟩
  · cases provider
    refine ⟨_, .tail _ (.head _), fun _ => ?_⟩
    rw [confined.provider, confined.runtime]
  · cases functions
    exact ⟨_, .tail _ (.tail _ (.head _)), fun apart => absurd (by decide) apart⟩
  · cases resources
    exact ⟨_, .tail _ (.tail _ (.tail _ (.head _))), fun apart => absurd (by decide) apart⟩
  · obtain ⟨old, some, same⟩ := Option.map_eq_some_iff.1 (Option.mem_toList.1 plugins)
    cases same
    obtain ⟨all, left⟩ : ∃ all, after.plugins? = .some all := by
      rcases confined.plugins with same | ⟨_, appended⟩
      · exact ⟨old, same.trans some⟩
      · exact ⟨_, appended⟩
    refine ⟨.list all, ?_, fun apart => absurd (by decide) apart⟩
    simp [Draft.fields, left]

theorem Confined.refl (draft : Draft) : graph.Confined runtimeId node draft draft :=
  ⟨rfl, rfl, rfl, .refl _ _, .refl _ _, .refl _ _, fun _ held => held, .inl rfl⟩

theorem Confined.storing {kind : Kind} (isOf : node.IsOf kind) (draft : Draft)
    {resources : List (Atom × Value)}
    (own : ∀ resource ∈ resources, Entries.Exact Atom.same resource.1 ∧
      resource.1 ∈ graph.resourceKeys node kind) :
    graph.Confined runtimeId node draft (draft.storing resources) where
  service := rfl
  runtime := rfl
  provider := rfl
  functions := .refl _ _
  resources := .putAll fun resource member =>
    ⟨(own resource member).1, kind, isOf, (own resource member).2⟩
  files := .refl _ _
  ignored := fun _ held => held
  plugins := .inl rfl

theorem Confined.entering {id : String} (idEq : node.id = .text id) {runtime : Runtime}
    (known : Runtime.ofId runtimeId = .ok runtime) (isFunction : node.IsOf .function)
    (draft : Draft) : graph.Confined runtimeId node draft (graph.entering runtime node draft) := by
  have providing : ChangedAt (OwnsFile runtimeId node draft.files) draft.files
      (draft.providing ignoreFile runtime.ignored).files := by
    unfold Draft.providing
    split
    · exact .refl _ _
    next missing =>
      have absent := (Entries.find?_eq_none_iff (Entries.exact_name ignoreFile)).1 missing
      exact .put (Entries.exact_name _) ⟨isFunction, .inr ⟨rfl, absent⟩⟩ _
  have files : ChangedAt (OwnsFile runtimeId node draft.files) draft.files
      (graph.entering runtime node draft).files := by
    rw [entering_eq]
    exact providing.trans (.put (Entries.exact_name _) ⟨isFunction, .inl ⟨runtime, known, rfl⟩⟩ _)
  constructor
  case service | runtime | provider => rw [entering_eq]
  case functions =>
    rw [entering_eq]
    exact .put (idEq ▸ Entries.exact_text id) ⟨isFunction, rfl⟩ _
  case resources =>
    rw [entering_eq]
    exact .refl _ _
  case files => exact files
  case ignored =>
    intro contents held
    refine (files.others _ ?_).2 held
    rintro ⟨_, ⟨_, supported, equal⟩ | ⟨_, absent⟩⟩
    · exact (Runtime.sourceFile_ne (Runtime.mem_all_of_ofId supported) _).1 equal.symm
    · exact absent (Entries.mem_keys_iff.2 ⟨contents, held⟩)
  case plugins =>
    rw [entering_eq]
    dsimp only
    split
    · exact .inl rfl
    · unfold Draft.pluginsWithRoles
      split
      next held =>
        cases plugins : draft.plugins? with
        | none => simp [plugins] at held
        | some plugins => exact .inl rfl
      · exact .inr ⟨isFunction, rfl⟩

theorem text_of_mem_resourceKeys {id : String} (idEq : node.id = .text id) (kind : Kind) :
    ∀ key ∈ graph.resourceKeys node kind, ∃ name, key = .text name := by
  cases kind with
  | topicRule =>
      intro key member
      rcases List.mem_cons.1 member with rfl | role
      · exact ⟨id, idEq⟩
      · obtain ⟨target, _, rfl⟩ := List.mem_map.1 role
        exact ⟨target.plain ++ "PublishRole", rfl⟩
  | _ => simp [resourceKeys, idEq]

/-- A visit of a node changes only what it may change, whether it fails or not. -/
theorem Keyed.confined_entered (keyed : graph.Keyed) (member : node ∈ graph.nodeList)
    (draft : Draft) :
    graph.Confined runtimeId node draft (graph.entered runtimeId node draft) := by
  obtain ⟨id, idEq⟩ := keyed.ids node member
  unfold entered
  split
  · exact .refl draft
  next kindEq =>
    split
    · exact .refl draft
    next runtime known => exact .entering idEq known (Node.kind?_eq_some_iff.1 kindEq) draft
  next kind noFunction kindEq =>
    have stores := graph.visit_storesAt node runtimeId noFunction
    refine .storing (Node.kind?_eq_some_iff.1 kindEq) draft fun resource stored => ?_
    have own := stores.mem_stored stored
    obtain ⟨name, text⟩ := text_of_mem_resourceKeys idEq kind resource.1 own
    exact ⟨text ▸ Entries.exact_text name, own⟩

/-- In every state that operations can reach from an empty project, a visit of a node changes only
what belongs to the node and takes no key of the document away, whether it succeeds or fails. -/
theorem performAll_confines {value : Value} (loaded : Graph.ofValue value = .ok graph)
    (ids : ∀ node ∈ graph.nodeList, ∃ id, node.id = .text id)
    (service runtimeId provider : Value) (operations : List Operation)
    (member : node ∈ graph.nodeList) :
    ∃ before after : Draft,
      graph.performAll runtimeId (Project.create service runtimeId provider) operations =
        before.project ∧
      (Plan.carryOut (graph.perform runtimeId (.visit (.atom node.id)))
        before.project).project = after.project ∧
      graph.Confined runtimeId node before after ∧
      ∀ name part, before.project.document.item (.text name) = .ok part →
        ∃ left, after.project.document.item (.text name) = .ok left ∧
          (name ∉ ["functions", "resources", "plugins"] → left = part) := by
  have keyed := keyed_of_ofValue loaded ids
  obtain ⟨before, _, left⟩ := @Keyed.performAll_steps graph runtimeId keyed operations
    (Draft.empty service runtimeId provider)
  have confined : graph.Confined runtimeId node before (graph.entered runtimeId node before) :=
    keyed.confined_entered member before
  exact ⟨before, graph.entered runtimeId node before, left,
    (keyed.perform_visit_ends member before).carryOut_eq.2, confined,
    fun _ _ held => confined.item_document held⟩

/-- A rule that republishes, visited after the bucket and its function. -/
theorem thumbnails_confine_alarm :
    let alarm : Node := ⟨.text "alarm", .text "iotRule", .text "", [], [.text "relay"]⟩
    alarm ∈ thumbnails.nodeList ∧ ∃ before after : Draft,
      thumbnails.performAll (.text "python3.7")
          (Project.create (.text "pictures") (.text "python3.7") (.text "aws"))
          [.visit (.text "photos"), .visit (.text "resize"), .visit (.text "lost")] =
        before.project ∧
      (Plan.carryOut (thumbnails.perform (.text "python3.7") (.visit (.text "alarm")))
        before.project).project = after.project ∧
      thumbnails.Confined (.text "python3.7") alarm before after ∧
      ∀ name part, before.project.document.item (.text name) = .ok part →
        ∃ left, after.project.document.item (.text name) = .ok left ∧
          (name ∉ ["functions", "resources", "plugins"] → left = part) := by
  have member : (⟨.text "alarm", .text "iotRule", .text "", [], [.text "relay"]⟩ : Node) ∈
      thumbnails.nodeList := by
    simp [nodeList_thumbnails, thumbnailNodes]
  exact ⟨member, performAll_confines thumbnails_loaded thumbnails_textual.ids _ _ _ _ member⟩

end Graph

end CloudGraph
