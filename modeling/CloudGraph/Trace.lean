import CloudGraph.Fault

/-!
# Traces

A computation as the steps it takes and how it ends. The steps that come before a fault
are kept, since they have been taken when it is met. `Trace.steps_bind_ok` and
`Trace.steps_bind_error` say how steps of two computations in a row join.
-/

namespace CloudGraph

/-- Steps in order, and the result or the fault after the last of them. -/
structure Trace (σ α : Type) where
  steps : List σ
  result : Except Fault α

namespace Trace

variable {σ α β : Type}

/-- No step, and a result. -/
def done (value : α) : Trace σ α := ⟨[], .ok value⟩

/-- No step, and a fault. -/
def fail (fault : Fault) : Trace σ α := ⟨[], .error fault⟩

/-- One step. -/
def step (step : σ) : Trace σ Unit := ⟨[step], .ok ()⟩

/-- No step, and the given end. -/
def ofExcept (result : Except Fault α) : Trace σ α := ⟨[], result⟩

/-- One computation and then another that depends on its result; none after a fault. -/
def andThen (first : Trace σ α) (next : α → Trace σ β) : Trace σ β :=
  match first.result with
  | .ok value => ⟨first.steps ++ (next value).steps, (next value).result⟩
  | .error fault => ⟨first.steps, .error fault⟩

instance : Monad (Trace σ) where
  pure := done
  bind := andThen

instance : MonadLift (Except Fault) (Trace σ) where
  monadLift := ofExcept

/-- After a result, the steps of both computations are taken. -/
theorem steps_bind_ok {first : Trace σ α} {next : α → Trace σ β} {value : α}
    (h : first.result = .ok value) :
    (first >>= next).steps = first.steps ++ (next value).steps := by
  simp [bind, andThen, h]

/-- After a fault, no further step is taken. -/
theorem steps_bind_error {first : Trace σ α} {next : α → Trace σ β} {fault : Fault}
    (h : first.result = .error fault) : (first >>= next).steps = first.steps := by
  simp [bind, andThen, h]

/-- A fault of the first computation is the fault of both in a row. -/
theorem result_bind_error {first : Trace σ α} {next : α → Trace σ β} {fault : Fault}
    (h : first.result = .error fault) : (first >>= next).result = .error fault := by
  simp [bind, andThen, h]

end Trace

end CloudGraph
