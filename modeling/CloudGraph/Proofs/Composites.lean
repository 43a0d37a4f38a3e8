import CloudGraph.Proofs.Parts
import CloudGraph.Proofs.Triggers

/-!
# Parts that edges are wired into

An edge into a function is put at the end of its triggers, and an edge into any other node is an
inline event among the properties of its resource. What is missing on the way is put there first.
`Composite` is a resource with room for inline events, and `Composite.after` is what becomes of it
when some have been wired into it.

The name of an inline event is a word for the kind of its source and then the id of the source.
No word starts another, so that no two sources come under one name whatever their ids are:
`inlineEntry_injective`.
-/

namespace CloudGraph

namespace Value

variable {fields : Entries Atom Value} {name : String} {part changed : Value} {inner : List Atom}
  {change : Value → Except Fault Value}

/-- What is under a key once a default has been given for it. -/
def heldBy (fields : Entries Atom Value) (name : String) (default : Value) : Value :=
  (Entries.find? Atom.same fields (.text name)).getD default

theorem heldBy_put_self (fields : Entries Atom Value) (name : String) (part default : Value) :
    heldBy (Entries.put Atom.same fields (.text name) part) name default = part := by
  simp [heldBy, Entries.find?_put_self (Entries.exact_text name)]

theorem heldBy_put_other {other : String} (different : name ≠ other) (part default : Value) :
    heldBy (Entries.put Atom.same fields (.text other) part) name default =
      heldBy fields name default := by
  unfold heldBy
  rw [Entries.find?_put_other (Entries.exact_text other) (Entries.exact_text name)
    (by simpa using different)]

/-- A field that is there, at least by default, can be changed, and nothing else is. -/
theorem default_change {default : Value}
    (made : modifyAt change (heldBy fields name default) inner = .ok changed) :
    ∃ given, (Value.map fields).withDefault (.text name) default = .ok (.map given) ∧
      modifyAt change (.map given) (.text name :: inner) =
        .ok (.map (Entries.put Atom.same fields (.text name) changed)) := by
  have exact := Entries.exact_text name
  unfold heldBy at made
  cases found : Entries.find? Atom.same fields (.text name) with
  | some part =>
      rw [found] at made
      refine ⟨fields, by simp [withDefault, content, found], modifyAt_cons_eq_ok.2
        ⟨part, changed, by simp [item, content, found], made, rfl⟩⟩
  | none =>
      rw [found] at made
      refine ⟨Entries.put Atom.same fields (.text name) default,
        by simp [withDefault, content, found],
        modifyAt_cons_eq_ok.2 ⟨default, changed, ?_, made, ?_⟩⟩
      · simp [item, content, Entries.find?_put_self exact]
      · simp [withItem, content, Entries.put_put exact]

/-- A field that has just been put is changed in its place. -/
theorem put_change (made : modifyAt change part inner = .ok changed) :
    modifyAt change (.map (Entries.put Atom.same fields (.text name) part)) (.text name :: inner) =
      .ok (.map (Entries.put Atom.same fields (.text name) changed)) := by
  have exact := Entries.exact_text name
  refine modifyAt_cons_eq_ok.2 ⟨part, changed, ?_, made, ?_⟩
  · simp [item, content, Entries.find?_put_self exact]
  · simp [withItem, content, Entries.put_put exact]

end Value

/-- The place of what edges into a target are wired into: the definition of a function, or the
resource of any other node. -/
def targetPlace (isFunction : Bool) (target : String) : List Atom :=
  (if isFunction then Project.functionsPath else Project.resourcesPath) ++ [.text target]

theorem textPath_targetPlace (isFunction : Bool) (target : String) :
    TextPath (targetPlace isFunction target) := by
  cases isFunction <;> simp [TextPath, targetPlace, Project.functionsPath, Project.resourcesPath]

/-- The name and the inline event that an edge from a node of a kind puts into a resource. -/
def inlineEntry (kind : Kind) (source : Value) : Option (Atom × Value) :=
  (inlineEvent kind source).map fun event =>
    (.text ((eventPrefix? kind).getD "" ++ source.plain), event)

/-- Puts what an edge sets off into a resource; nothing, if its source sets nothing off there. -/
def Plan.composeEvent (kind : Kind) (target : Atom) (source : Value) : Plan Unit :=
  match inlineEvent kind source with
  | none => Plan.note .debug .wiring (kind.name ++ " doesn't trigger resources")
  | some event => do
    Plan.addInlineEvent target ((eventPrefix? kind).getD "") source event
    if kind = .bucket then Plan.allowReading target

namespace Plan

open Value (heldBy)

variable {target : String} {fields properties events : Entries Atom Value}
  {policies triggers : List Value}

/-- A trigger comes after those that a function has. -/
theorem addTrigger_turns (held : heldBy fields "events" (.list []) = .list triggers)
    (event : Value) :
    Turns (targetPlace true target) (addTrigger (.text target) event) (.map fields) (.ok ())
      (.map (Entries.put Atom.same fields (.text "events") (.list (triggers ++ [event])))) := by
  have texts := textPath_targetPlace true target
  have appends : Value.modifyAt (·.appended event) (heldBy fields "events" (.list [])) [] =
      .ok (.list (triggers ++ [event])) := by
    rw [held]
    rfl
  obtain ⟨given, defaulted, appended⟩ := Value.default_change appends
  exact Turns.bind (.step texts [] (fun _ => rfl) defaulted)
    (.step texts [.text "events"] (fun _ => rfl) appended)

/-- An inline event is put under its name beside those that a resource has. -/
theorem addInlineEvent_turns (held : heldBy fields "Properties" (.map []) = .map properties)
    (heldEvents : heldBy properties "Events" (.map []) = .map events) (start source : String)
    (event : Value) :
    Turns (targetPlace false target) (addInlineEvent (.text target) start (.text source) event)
      (.map fields) (.ok ())
      (.map (Entries.put Atom.same fields (.text "Properties")
        (.map (Entries.put Atom.same properties (.text "Events")
          (.map (Entries.put Atom.same events (.text (start ++ source)) event)))))) := by
  have texts := textPath_targetPlace false target
  have sets : Value.modifyAt (·.withItem (.text (start ++ source)) event)
      (heldBy properties "Events" (.map [])) [] =
        .ok (.map (Entries.put Atom.same events (.text (start ++ source)) event)) := by
    rw [heldEvents]
    rfl
  obtain ⟨within, eventsGiven, set⟩ := Value.default_change sets
  have gives : Value.modifyAt (·.withDefault (.text "Events") (.map []))
      (heldBy fields "Properties" (.map [])) [] = .ok (.map within) := by
    rw [held]
    exact eventsGiven
  obtain ⟨given, propertiesGiven, inside⟩ := Value.default_change gives
  exact Turns.bind (.step texts [] (fun _ => rfl) propertiesGiven)
    (Turns.bind (.step texts [.text "Properties"] (fun _ => rfl) inside)
      (Turns.bind (.of_ends fun _ => Ends.lift)
        (.step texts [.text "Properties", .text "Events"] (fun _ => rfl) (Value.put_change set))))

/-- The policy that lets a resource read is put after those that it has. -/
theorem allowReading_turns (held : heldBy properties "Policies" (.list []) = .list policies) :
    Turns (targetPlace false target) (allowReading (.text target))
      (.map (Entries.put Atom.same fields (.text "Properties") (.map properties))) (.ok ())
      (.map (Entries.put Atom.same fields (.text "Properties")
        (.map (Entries.put Atom.same properties (.text "Policies")
          (.list (policies ++ [.text readOnlyPolicy])))))) := by
  have texts := textPath_targetPlace false target
  have appends : Value.modifyAt (·.appended (.text readOnlyPolicy))
      (heldBy properties "Policies" (.list [])) [] =
        .ok (.list (policies ++ [.text readOnlyPolicy])) := by
    rw [held]
    rfl
  obtain ⟨given, defaulted, appended⟩ := Value.default_change appends
  have inside : Value.modifyAt (·.withDefault (.text "Policies") (.list [])) (.map properties) [] =
      .ok (.map given) := defaulted
  exact Turns.bind (.step texts [.text "Properties"] (fun _ => rfl) (Value.put_change inside))
    (.step texts [.text "Properties", .text "Policies"] (fun _ => rfl) (Value.put_change appended))

theorem triggerFunction_needs (kind : Kind) (target : String) (source : Value) :
    Needs (targetPlace true target) (triggerFunction kind (.text target) source) := by
  unfold triggerFunction
  cases trigger kind source with
  | none => exact .inl ⟨Every.step trivial, rfl⟩
  | some event => exact .inr ⟨.text "events", .list [], rfl⟩

theorem composeEvent_needs (kind : Kind) (target : String) (source : Value) :
    Needs (targetPlace false target) (composeEvent kind (.text target) source) := by
  unfold composeEvent
  cases inlineEvent kind source with
  | none => exact .inl ⟨Every.step trivial, rfl⟩
  | some event =>
      exact .inr ⟨.text "Properties", .map [], head?_steps_bind (head?_steps_bind rfl)⟩

end Plan

/-- The definition of a function after some triggers, put after the old ones. Without any, it is
left alone. -/
def withTriggers (fields : Entries Atom Value) (old triggers : List Value) : Value :=
  if triggers.isEmpty then .map fields
  else .map (Entries.put Atom.same fields (.text "events") (.list (old ++ triggers)))

/-- Some properties with the policy that lets a resource read all buckets, a number of times. -/
def withReading (properties : Entries Atom Value) (policies : List Value) (readers : Nat) :
    Entries Atom Value :=
  if readers = 0 then properties
  else Entries.put Atom.same properties (.text "Policies")
    (.list (policies ++ List.replicate readers (.text "AmazonS3ReadOnlyAccess")))

/-- A resource that events can be wired into: its properties, its events and its policies are a
mapping, a mapping and a list, or are not there. -/
structure Composite where
  fields : Entries Atom Value
  properties : Entries Atom Value
  events : Entries Atom Value
  policies : List Value
  heldProperties : Value.heldBy fields "Properties" (.map []) = .map properties
  heldEvents : Value.heldBy properties "Events" (.map []) = .map events
  heldPolicies : Value.heldBy properties "Policies" (.list []) = .list policies

namespace Composite

/-- The resource after one inline event and, from a bucket, one policy more. -/
def wired (resource : Composite) (entry : Atom × Value) (readers : Nat) : Composite where
  fields := Entries.put Atom.same resource.fields (.text "Properties")
    (.map (withReading (Entries.put Atom.same resource.properties (.text "Events")
      (.map (Entries.put Atom.same resource.events entry.1 entry.2))) resource.policies readers))
  properties := withReading (Entries.put Atom.same resource.properties (.text "Events")
    (.map (Entries.put Atom.same resource.events entry.1 entry.2))) resource.policies readers
  events := Entries.put Atom.same resource.events entry.1 entry.2
  policies := resource.policies ++ List.replicate readers (.text "AmazonS3ReadOnlyAccess")
  heldProperties := Value.heldBy_put_self _ _ _ _
  heldEvents := by
    unfold withReading
    split
    · exact Value.heldBy_put_self _ _ _ _
    · rw [Value.heldBy_put_other (by decide)]
      exact Value.heldBy_put_self _ _ _ _
  heldPolicies := by
    unfold withReading
    split
    next none =>
      rw [Value.heldBy_put_other (by decide), none, List.replicate_zero, List.append_nil]
      exact resource.heldPolicies
    · exact Value.heldBy_put_self _ _ _ _

/-- The resource after some inline events and policies. Without any events, it is left alone. -/
def after (resource : Composite) (entries : List (Atom × Value)) (readers : Nat) : Value :=
  if entries.isEmpty then .map resource.fields
  else .map (Entries.put Atom.same resource.fields (.text "Properties")
    (.map (withReading (Entries.put Atom.same resource.properties (.text "Events")
      (.map (Entries.putAll Atom.same resource.events entries))) resource.policies readers)))

/-- What is set again among the properties is set in its place, and the policies go on. -/
theorem withReading_again (properties : Entries Atom Value) (first again : Value)
    (policies : List Value) (readers more : Nat) :
    withReading (Entries.put Atom.same
        (withReading (Entries.put Atom.same properties (.text "Events") first) policies readers)
        (.text "Events") again)
      (policies ++ List.replicate readers (.text "AmazonS3ReadOnlyAccess")) more =
    withReading (Entries.put Atom.same properties (.text "Events") again) policies
      (readers + more) := by
  have exact := Entries.exact_text "Events"
  have exactPolicies := Entries.exact_text "Policies"
  have there : .text "Events" ∈
      Entries.keys (Entries.put Atom.same properties (.text "Events") first) :=
    (Entries.mem_keys_put exact).2 (.inl rfl)
  unfold withReading
  by_cases none : readers = 0
  · simp [none, Entries.put_put exact]
  · have some : readers + more ≠ 0 := by omega
    rw [if_neg none, if_neg some,
      Entries.put_comm exact exactPolicies (by decide) there, Entries.put_put exact]
    split
    next last => rw [last, Nat.add_zero]
    next => rw [Entries.put_put exactPolicies, List.append_assoc, List.replicate_append_replicate]

theorem wired_after (resource : Composite) (entry : Atom × Value) (readers : Nat)
    (entries : List (Atom × Value)) {more : Nat} (none : entries = [] → more = 0) :
    (resource.wired entry readers).after entries more =
      resource.after (entry :: entries) (readers + more) := by
  have exact := Entries.exact_text "Properties"
  unfold after
  cases entries with
  | nil =>
      rw [none rfl]
      rfl
  | cons first rest =>
      simp only [List.isEmpty_cons, Bool.false_eq_true, if_false, wired, Entries.putAll_cons,
        Entries.put_put exact, withReading_again]

end Composite

theorem inlineEvent_isSome_iff {kind : Kind} {source : Value} :
    (inlineEvent kind source).isSome = true ↔ kind ∈ Kind.triggering := by
  cases kind <;> simp [inlineEvent, Kind.triggering]

/-- The name and the inline event of a kind and an id are those that are written out for them. -/
theorem inlineEntry_iff {kind : Kind} {id : String} {entry : Atom × Value} :
    inlineEntry kind (.text id) = some entry ↔
      ∃ name, entry.1 = .text name ∧ kind.Inlines id name entry.2 := by
  obtain ⟨key, event⟩ := entry
  simp only [inlineEntry, Option.map_eq_some_iff, Prod.mk.injEq, ← inlineEvent_iff]
  constructor
  · rintro ⟨_, inlined, rfl, rfl⟩
    exact ⟨_, rfl, inlined, rfl⟩
  · rintro ⟨_, rfl, inlined, rfl⟩
    exact ⟨event, inlined, rfl, rfl⟩

/-- What the names of inline events start with tells the kinds apart. -/
theorem eventPrefix_injective {first second : Kind} {name other : String}
    (firstSets : first ∈ Kind.triggering) (secondSets : second ∈ Kind.triggering)
    (same : (eventPrefix? first).getD "" ++ name = (eventPrefix? second).getD "" ++ other) :
    first = second ∧ name = other := by
  -- Two letters are enough, and every start has as many.
  have letters : ∀ kind ∈ Kind.triggering, ∀ id,
      ((eventPrefix? kind).getD "" ++ id).toList.take 2 =
        ((eventPrefix? kind).getD "").toList.take 2 := by
    intro kind sets id
    have long : 2 ≤ ((eventPrefix? kind).getD "").toList.length := by
      revert kind
      decide
    rw [String.toList_append, List.take_append_of_le_length long]
  have apart : ∀ kind ∈ Kind.triggering, ∀ twin ∈ Kind.triggering,
      ((eventPrefix? kind).getD "").toList.take 2 = ((eventPrefix? twin).getD "").toList.take 2 →
        kind = twin := by
    decide
  have starts := congrArg (fun name => name.toList.take 2) same
  simp only [letters first firstSets, letters second secondSets] at starts
  obtain rfl := apart first firstSets second secondSets starts
  have lists := congrArg String.toList same
  simp only [String.toList_append] at lists
  exact ⟨rfl, String.toList_injective (List.append_cancel_left lists)⟩

/-- Inline events of two sources never have one name, whatever their ids are. -/
theorem inlineEntry_injective {first second : Kind} {name other : String}
    {entry twin : Atom × Value} (firstSets : inlineEntry first (.text name) = some entry)
    (secondSets : inlineEntry second (.text other) = some twin) (same : entry.1 = twin.1) :
    first = second ∧ name = other := by
  obtain ⟨event, firstEvent, rfl⟩ := Option.map_eq_some_iff.1 firstSets
  obtain ⟨twinEvent, secondEvent, rfl⟩ := Option.map_eq_some_iff.1 secondSets
  exact eventPrefix_injective (inlineEvent_isSome_iff.1 (Option.isSome_of_eq_some firstEvent))
    (inlineEvent_isSome_iff.1 (Option.isSome_of_eq_some secondEvent)) (Atom.text.inj same)

end CloudGraph
