import CloudGraph.Proofs.Places

/-!
# Replacing a part

A change inside a part of the document that is there replaces the part and leaves everything else
alone: `Project.changing_replaces`. `Plan.Turns` says of a plan what becomes of one part, whatever
the rest of the project is, so that a run of plans is followed in that part alone.
-/

namespace CloudGraph

namespace Value

variable {value after : Value} {key : Atom} {path : List Atom} {change : Value → Except Fault Value}

/-- A change inside a part that succeeds has found the part and put the changed one back. -/
theorem modifyAt_cons_eq_ok :
    modifyAt change value (key :: path) = .ok after ↔ ∃ part changed, value.item key = .ok part ∧
      modifyAt change part path = .ok changed ∧ value.withItem key changed = .ok after := by
  rw [modifyAt]
  cases found : value.item key with
  | error fault => simp [bind, Except.bind]
  | ok part =>
      cases inner : modifyAt change part path with
      | error fault => simp [inner, bind, Except.bind]
      | ok changed => simp [inner, bind, Except.bind]

theorem itemAt_append (value : Value) (path inner : List Atom) :
    value.itemAt (path ++ inner) = value.itemAt path >>= fun part => part.itemAt inner := by
  induction path generalizing value with
  | nil => rfl
  | cons key path ih =>
      rw [List.cons_append, itemAt_cons, itemAt_cons]
      cases value.item key with
      | error fault => rfl
      | ok part => exact ih part

/-- Changing a part inside a part is one change of the outer part. -/
theorem modifyAt_append (change : Value → Except Fault Value) (value : Value)
    (path inner : List Atom) :
    modifyAt change value (path ++ inner) =
      modifyAt (fun part => modifyAt change part inner) value path := by
  induction path generalizing value with
  | nil => rfl
  | cons key path ih => simp only [List.cons_append, modifyAt, ih]

/-- A part that is there can be replaced. -/
theorem withItem_of_item {name : String} {part : Value} (found : value.item (.text name) = .ok part)
    (changed : Value) : ∃ after, value.withItem (.text name) changed = .ok after := by
  unfold item at found
  unfold withItem
  cases content : value.content with
  | map entries => exact ⟨_, rfl⟩
  | list items => simp [content, Atom.index?] at found
  | shared part => simp [content] at found
  | atom scalar =>
      rw [content] at found
      cases scalar <;> simp [Atom.index?] at found

variable (change) in
/-- A change of a part that is there, if it succeeds, is the part afterwards. -/
theorem itemAt_modifyAt_self {path : List Atom} (texts : TextPath path) {part changed : Value}
    (found : value.itemAt path = .ok part) (made : change part = .ok changed) :
    ∃ after, modifyAt change value path = .ok after ∧ after.itemAt path = .ok changed := by
  induction path generalizing value with
  | nil =>
      obtain rfl := Except.ok.inj found
      exact ⟨changed, made, rfl⟩
  | cons key path ih =>
      obtain ⟨name, rfl⟩ := texts key List.mem_cons_self
      rw [itemAt_cons] at found
      cases first : value.item (.text name) with
      | error fault => simp [first, bind, Except.bind] at found
      | ok inner =>
          have rest : inner.itemAt path = .ok part := by
            simpa [first, bind, Except.bind] using found
          have further : TextPath path := fun key member => texts key (List.mem_cons_of_mem _ member)
          obtain ⟨next, made, held⟩ := ih further rest
          obtain ⟨after, set⟩ := withItem_of_item first next
          refine ⟨after, modifyAt_cons_eq_ok.2 ⟨inner, next, first, made, set⟩, ?_⟩
          rw [itemAt_cons, item_withItem_self set]
          exact held

end Value

theorem Project.changing_eq_ok {project after : Project} {path : List Atom}
    {change : Value → Except Fault Value} :
    project.changing path change = .ok after ↔ ∃ document,
      Value.modifyAt change project.document path = .ok document ∧
        after = { project with document := document } := by
  unfold changing
  cases made : Value.modifyAt change project.document path with
  | error fault => simp [bind, Except.bind]
  | ok document => simp [bind, Except.bind, pure, Except.pure, eq_comm]

/-- A change inside a part that is not there fails. -/
theorem Project.changing_of_missing {project : Project} {place : List Atom}
    {change : Value → Except Fault Value} {fault : Fault}
    (missing : project.document.itemAt place = .error fault) :
    project.changing place change = .error fault := by
  have fails : ∀ (path : List Atom) (value : Value), value.itemAt path = .error fault →
      Value.modifyAt change value path = .error fault := by
    intro path
    induction path with
    | nil =>
        intro value missing
        cases missing
    | cons key path ih =>
        intro value missing
        rw [Value.itemAt_cons] at missing
        unfold Value.modifyAt
        cases found : value.item key with
        | error other => simpa [found, bind, Except.bind] using missing
        | ok part =>
            rw [found] at missing
            simp [ih part missing, bind, Except.bind]
  simp [changing, fails place _ missing, bind, Except.bind]

/-- The part at a place of the document has been replaced, and nothing else has changed. -/
structure Project.Replaced (place : List Atom) (part : Value) (before after : Project) : Prop where
  part : after.document.itemAt place = .ok part
  others : ∀ other, TextPath other → ¬Along place other →
    after.document.itemAt other = before.document.itemAt other
  files : after.files = before.files

namespace Project.Replaced

variable {place : List Atom} {first second : Value} {before middle after : Project}

theorem refl (found : before.document.itemAt place = .ok first) :
    Replaced place first before before :=
  ⟨found, fun _ _ _ => rfl, rfl⟩

theorem trans (earlier : Replaced place first before middle)
    (later : Replaced place second middle after) : Replaced place second before after :=
  ⟨later.part, fun other texts apart =>
    (later.others other texts apart).trans (earlier.others other texts apart),
    later.files.trans earlier.files⟩

end Project.Replaced

/-- A change inside a part that is there replaces the part. -/
theorem Project.changing_replaces {project : Project} {place inner : List Atom}
    (texts : TextPath place) {part changed : Value} {change : Value → Except Fault Value}
    (found : project.document.itemAt place = .ok part)
    (made : Value.modifyAt change part inner = .ok changed) :
    ∃ after, project.changing (place ++ inner) change = .ok after ∧
      Replaced place changed project after := by
  obtain ⟨document, whole, held⟩ := Value.itemAt_modifyAt_self
    (fun part => Value.modifyAt change part inner) texts found made
  have written : project.changing (place ++ inner) change =
      .ok { project with document := document } := by
    rw [changing_eq_ok, Value.modifyAt_append]
    exact ⟨document, whole, rfl⟩
  refine ⟨_, written, held, fun other otherTexts apart => ?_, rfl⟩
  exact Value.itemAt_modifyAt Value.leaves_of_whole otherTexts (by simpa using apart) whole

/-- Edits that only store resources all succeed wherever there is a mapping of resources, and put
theirs into it in order. -/
theorem Project.editAll_stores (edits : List Edit) {before : Project}
    {resources : Entries Atom Value} (only : ∀ edit ∈ edits, edit.IsStore)
    (found : before.document.itemAt resourcesPath = .ok (.map resources)) :
    (before.editAll edits).result = .ok () ∧
      Replaced resourcesPath
        (.map (Entries.putAll Atom.same resources (edits.filterMap Edit.resource?)))
        before (before.editAll edits).project := by
  induction edits generalizing resources before with
  | nil => exact ⟨rfl, .refl found⟩
  | cons edit edits ih =>
      obtain ⟨own, rest⟩ := List.forall_mem_cons.1 only
      cases edit with
      | note record => exact ih rest found
      | assign path key value =>
          obtain rfl : path = resourcesPath := own
          have texts : TextPath resourcesPath := by simp [TextPath, resourcesPath]
          obtain ⟨middle, made, first⟩ :
              ∃ middle, before.changing (resourcesPath ++ []) (·.withItem key value) = .ok middle ∧
                Replaced resourcesPath (.map (Entries.put Atom.same resources key value))
                  before middle :=
            changing_replaces texts found rfl
          have edited : before.edit (.assign resourcesPath key value) = .ok middle := by
            rwa [List.append_nil] at made
          have shown : Edit.resource? (.assign resourcesPath key value) = some (key, value) := by
            simp [Edit.resource?]
          obtain ⟨ended, later⟩ := ih rest first.part
          rw [List.filterMap_cons_some shown]
          refine ⟨by simpa [editAll, edited] using ended, ?_⟩
          simpa [editAll, edited] using first.trans later
      | default | append | «include» | write | provide => exact own.elim

namespace Plan

variable {α β : Type} {place : List Atom} {part middle turned : Value}

/-- What a plan makes of the part at a place, and how it ends, in every project that has the
part. -/
def Turns (place : List Atom) (plan : Plan α) (part : Value) (result : Except Fault α)
    (turned : Value) : Prop :=
  ∀ before : Project, before.document.itemAt place = .ok part →
    ∃ after, Ends plan before result after ∧ Project.Replaced place turned before after

namespace Turns

/-- A plan that changes nothing keeps the part. -/
theorem of_ends {plan : Plan α} {result : Except Fault α}
    (ends : ∀ before, Ends plan before result before) : Turns place plan part result part :=
  fun before found => ⟨before, ends before, .refl found⟩

theorem step {edit : Edit} {change : Value → Except Fault Value} (texts : TextPath place)
    (inner : List Atom)
    (inside : ∀ project : Project, project.edit edit = project.changing (place ++ inner) change)
    (made : Value.modifyAt change part inner = .ok turned) :
    Turns place (Trace.step edit) part (.ok ()) turned := by
  intro before found
  obtain ⟨after, changed, replaced⟩ := Project.changing_replaces texts found made
  exact ⟨after, Ends.step ((inside before).trans changed), replaced⟩

theorem bind {first : Plan α} {next : α → Plan β} {value : α} {result : Except Fault β}
    (firstTurns : Turns place first part (.ok value) middle)
    (nextTurns : Turns place (next value) middle result turned) :
    Turns place (first >>= next) part result turned := by
  intro before found
  obtain ⟨between, firstEnds, earlier⟩ := firstTurns before found
  obtain ⟨after, nextEnds, later⟩ := nextTurns between earlier.part
  exact ⟨after, firstEnds.bind nextEnds, earlier.trans later⟩

end Turns

/-- A plan that only stores resources puts them among the resources of every project that has
some. -/
theorem Adds.turns {plan : Plan α} {stores : List (Atom × Value)} {result : Except Fault α}
    (adds : Adds plan stores result) (resources : Entries Atom Value) :
    Turns Project.resourcesPath plan (.map resources) result
      (.map (Entries.putAll Atom.same resources stores)) := by
  intro before found
  obtain ⟨made, replaced⟩ := Project.editAll_stores plan.steps adds.only found
  have stored : plan.steps.filterMap Edit.resource? = stores := adds.stored
  exact ⟨_, ⟨made, rfl, adds.result⟩, stored ▸ replaced⟩

theorem head?_steps_bind {edit : Edit} {first : Plan α} {next : α → Plan β}
    (starts : first.steps.head? = some edit) : (first >>= next).steps.head? = some edit := by
  cases ended : first.result with
  | error fault => rw [Trace.steps_bind_error ended, starts]
  | ok value => rw [Trace.steps_bind_ok ended, List.head?_append, starts, Option.some_or]

/-- A plan that needs a place first gives a default for a key there, unless it changes nothing at
all. -/
def Needs (place : List Atom) (plan : Plan Unit) : Prop :=
  (Every Edit.IsNote plan ∧ plan.result = .ok ()) ∨
    ∃ key value, plan.steps.head? = some (.default place key value)

/-- Where its place is missing, a plan that needs it fails with that, or does nothing. -/
theorem Needs.carryOut {plan : Plan Unit} (needs : Needs place plan)
    {before : Project} {fault : Fault} (missing : before.document.itemAt place = .error fault)
    (answer : α) :
    (carryOut (plan >>= fun _ => pure answer) before).project = before ∧
      ((carryOut (plan >>= fun _ => pure answer) before).result = .ok answer ∨
        (carryOut (plan >>= fun _ => pure answer) before).result = .error fault) := by
  rcases needs with ⟨notes, ended⟩ | ⟨key, value, first⟩
  · have idle : Ends (plan >>= fun _ => pure answer) before (.ok answer) before :=
      Ends.bind (ended ▸ notes.ends before) Ends.pure
    exact ⟨idle.carryOut_eq.2, .inl idle.carryOut_eq.1⟩
  · have starts : (plan >>= fun _ => pure answer).steps.head? =
        some (.default place key value) := head?_steps_bind first
    obtain ⟨rest, steps⟩ := List.head?_eq_some_iff.1 starts
    have failed : before.edit (.default place key value) = .error fault :=
      Project.changing_of_missing missing
    simp [Plan.carryOut, steps, Project.editAll, failed]

end Plan

end CloudGraph
