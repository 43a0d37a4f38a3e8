import CloudGraph.Build.Project

/-!
# Carrying plans out

`Plan.Ends` says that no edit of a plan fails on a project, which project the edits lead
to, and with which result the plan ends. Its rules follow the way plans are put together,
so that a plan is read off step by step; records are left out of account. `Plan.Every` says that
all steps of a plan are edits of one sort, whatever project they are made on.
-/

namespace CloudGraph

namespace Trace

variable {σ α β : Type}

/-- The result of two computations in a row is the result of their results. -/
theorem result_bind (first : Trace σ α) (next : α → Trace σ β) :
    (first >>= next).result = first.result >>= fun value => (next value).result := by
  cases ended : first.result with
  | ok value => simp [bind, andThen, ended, Except.bind]
  | error fault => simp [bind, andThen, ended, Except.bind]

/-- Two computations in a row have a result when both have one. -/
theorem result_bind_eq_ok {first : Trace σ α} {next : α → Trace σ β} {value : β} :
    (first >>= next).result = .ok value ↔
      ∃ middle, first.result = .ok middle ∧ (next middle).result = .ok value := by
  rw [result_bind]
  cases first.result <;> simp [Bind.bind, Except.bind]

@[simp]
theorem result_pure (value : α) : (pure value : Trace σ α).result = .ok value := rfl

@[simp]
theorem steps_pure (value : α) : (pure value : Trace σ α).steps = [] := rfl

@[simp]
theorem result_lift (result : Except Fault α) : (liftM result : Trace σ α).result = result := rfl

@[simp]
theorem steps_lift (result : Except Fault α) : (liftM result : Trace σ α).steps = [] := rfl

end Trace

namespace Project

/-- After edits that all succeed, the next ones go on from the project they leave. -/
theorem editAll_append_ok {project : Project} {first : List Edit} (second : List Edit)
    (made : (project.editAll first).result = .ok ()) :
    (project.editAll (first ++ second)).result =
        ((project.editAll first).project.editAll second).result ∧
      (project.editAll (first ++ second)).project =
        ((project.editAll first).project.editAll second).project := by
  induction first generalizing project with
  | nil => exact ⟨rfl, rfl⟩
  | cons edit first ih =>
      cases edited : project.edit edit with
      | error fault => simp [editAll, edited] at made
      | ok next =>
          have made : (next.editAll first).result = .ok () := by simpa [editAll, edited] using made
          simpa [editAll, edited] using ih made

/-- The first of some edits that all succeed do so too. -/
theorem editAll_append_eq_ok {project : Project} {first second : List Edit}
    (made : (project.editAll (first ++ second)).result = .ok ()) :
    (project.editAll first).result = .ok () := by
  induction first generalizing project with
  | nil => rfl
  | cons edit first ih =>
      cases edited : project.edit edit with
      | error fault => simp [editAll, edited] at made
      | ok next =>
          have made : (next.editAll (first ++ second)).result = .ok () := by
            simpa [editAll, edited] using made
          simpa [editAll, edited] using ih made

end Project

namespace Plan

variable {α β : Type} {before middle after : Project}

/-- A plan that was carried out with a result has that result by itself. -/
theorem result_of_carryOut {plan : Plan α} {value : α}
    (ended : (carryOut plan before).result = .ok value) : plan.result = .ok value := by
  unfold carryOut at ended
  cases made : (before.editAll plan.steps).result with
  | error fault => simp [made] at ended
  | ok => simpa [made] using ended

/-- Every edit of the plan succeeds on the project before, they leave the project after,
and the plan ends with the result. -/
structure Ends (plan : Plan α) (before : Project) (result : Except Fault α) (after : Project) :
    Prop where
  made : (before.editAll plan.steps).result = .ok ()
  left : (before.editAll plan.steps).project = after
  result : plan.result = result

namespace Ends

/-- Carried out, the plan ends as it does by itself. -/
theorem carryOut_eq {plan : Plan α} {result : Except Fault α}
    (ends : Ends plan before result after) :
    (carryOut plan before).result = result ∧ (carryOut plan before).project = after := by
  simp [carryOut, ends.made, ends.result, ends.left]

/-- A plan that ends somehow ends with its own result. -/
theorem own {plan : Plan α} {result : Except Fault α} (ends : Ends plan before result after) :
    Ends plan before plan.result after :=
  ⟨ends.made, ends.left, rfl⟩

theorem pure {value : α} : Ends (Pure.pure value) before (.ok value) before :=
  ⟨rfl, rfl, rfl⟩

/-- Looking something up leaves the project as it is. -/
theorem lift {result : Except Fault α} : Ends (liftM result) before result before :=
  ⟨rfl, rfl, rfl⟩

theorem note {level : Level} {source : Source} {message : String} :
    Ends (Plan.note level source message) before (.ok ()) before :=
  ⟨rfl, rfl, rfl⟩

theorem step {edit : Edit} (edited : before.edit edit = .ok after) :
    Ends (Trace.step edit) before (.ok ()) after := by
  constructor <;> simp [Trace.step, Project.editAll, edited]

/-- One plan after another goes on where the first has ended. -/
theorem bind {first : Plan α} {next : α → Plan β} {value : α} {result : Except Fault β}
    (firstEnds : Ends first before (.ok value) middle)
    (nextEnds : Ends (next value) middle result after) :
    Ends (first >>= next) before result after := by
  obtain ⟨allMade, allLeft⟩ := Project.editAll_append_ok (next value).steps firstEnds.made
  rw [firstEnds.left] at allMade allLeft
  rw [← Trace.steps_bind_ok firstEnds.result] at allMade allLeft
  refine ⟨allMade.trans nextEnds.made, allLeft.trans nextEnds.left, ?_⟩
  rw [Trace.result_bind, firstEnds.result]
  exact nextEnds.result

/-- Looking something up that is there leaves the project as it is. -/
theorem after_lift {value : α} {next : α → Plan β} {result : Except Fault β}
    (ends : Ends (next value) before result after) :
    Ends (liftM (Except.ok value : Except Fault α) >>= next) before result after :=
  bind lift ends

theorem after_note {level : Level} {source : Source} {message : String} {next : Unit → Plan β}
    {result : Except Fault β} (ends : Ends (next ()) before result after) :
    Ends (Plan.note level source message >>= next) before result after :=
  bind note ends

theorem after_step {edit : Edit} {next : Unit → Plan β} {result : Except Fault β}
    (edited : before.edit edit = .ok middle) (ends : Ends (next ()) middle result after) :
    Ends (Trace.step edit >>= next) before result after :=
  bind (step edited) ends

/-- After a fault of the first plan, the second is not carried out. -/
theorem bind_fault {first : Plan α} {next : α → Plan β} {fault : Fault}
    (firstEnds : Ends first before (.error fault) after) :
    Ends (first >>= next) before (.error fault) after := by
  have steps : (first >>= next).steps = first.steps := Trace.steps_bind_error firstEnds.result
  refine ⟨?_, ?_, Trace.result_bind_error firstEnds.result⟩
  · rw [steps]
    exact firstEnds.made
  · rw [steps]
    exact firstEnds.left

/-- Giving an answer in the end changes nothing more. -/
theorem then_answer {plan : Plan α} (ends : Ends plan before plan.result after) (value : β) :
    Ends (plan >>= fun _ => Pure.pure value) before (plan >>= fun _ => Pure.pure value).result
      after := by
  cases ended : plan.result with
  | error fault => exact (bind_fault (ended ▸ ends)).own
  | ok _ =>
      have answered : Ends (plan >>= fun _ => Pure.pure value) before (.ok value) after :=
        bind (ended ▸ ends) pure
      exact answered.own

end Ends

/-- Every step of a plan is an edit of one sort. -/
def Every (sort : Edit → Prop) (plan : Plan α) : Prop :=
  ∀ edit ∈ plan.steps, sort edit

namespace Every

variable {sort : Edit → Prop}

theorem pure {value : α} : Every sort (Pure.pure value : Plan α) := by
  simp [Every]

theorem lift {result : Except Fault α} : Every sort (liftM result : Plan α) := by
  simp [Every]

theorem fail {fault : Fault} : Every sort (Trace.fail fault : Plan α) := by
  simp [Every, Trace.fail]

theorem step {edit : Edit} (own : sort edit) : Every sort (Trace.step edit : Plan Unit) := by
  simpa [Every, Trace.step] using own

/-- What comes second may take for granted what the first plan ends with. -/
theorem bind_of_result {first : Plan α} {next : α → Plan β} (firstEvery : Every sort first)
    (nextEvery : ∀ value, first.result = .ok value → Every sort (next value)) :
    Every sort (first >>= next) := by
  intro edit member
  cases ended : first.result with
  | error fault =>
      rw [Trace.steps_bind_error ended] at member
      exact firstEvery edit member
  | ok value =>
      rw [Trace.steps_bind_ok ended] at member
      rcases List.mem_append.1 member with earlier | later
      · exact firstEvery edit earlier
      · exact nextEvery value ended edit later

theorem bind {first : Plan α} {next : α → Plan β} (firstEvery : Every sort first)
    (nextEvery : ∀ value, Every sort (next value)) : Every sort (first >>= next) :=
  bind_of_result firstEvery fun value _ => nextEvery value

/-- What comes after a lookup may take for granted what was found. -/
theorem after_lift {result : Except Fault α} {next : α → Plan β}
    (nextEvery : ∀ value, result = .ok value → Every sort (next value)) :
    Every sort (liftM result >>= next) :=
  bind_of_result lift nextEvery

theorem mono {plan : Plan α} {wider : Edit → Prop} (every : Every sort plan)
    (inside : ∀ edit, sort edit → wider edit) : Every wider plan :=
  fun edit member => inside edit (every edit member)

end Every

end Plan

/-- Whether an edit only leaves a record. -/
def Edit.IsNote : Edit → Prop
  | .note _ => True
  | _ => False

namespace Plan

variable {α : Type}

/-- A plan that only leaves records changes nothing. -/
theorem Every.ends {plan : Plan α} (notes : Every Edit.IsNote plan) (before : Project) :
    Ends plan before plan.result before := by
  have unchanged : ∀ edits : List Edit, (∀ edit ∈ edits, edit.IsNote) →
      (before.editAll edits).result = .ok () ∧ (before.editAll edits).project = before := by
    intro edits
    induction edits with
    | nil => exact fun _ => ⟨rfl, rfl⟩
    | cons edit edits ih =>
        intro only
        obtain ⟨first, rest⟩ := List.forall_mem_cons.1 only
        cases edit with
        | note record => exact ih rest
        | _ => exact first.elim
  exact ⟨(unchanged plan.steps notes).1, (unchanged plan.steps notes).2, rfl⟩

end Plan

end CloudGraph
