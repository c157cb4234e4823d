import ContentionQueue.Interface

/-!
# Task states, tasks and the state behind the mutex

This module models `src/task_state.rs`, `src/task.rs` and
`src/queue_state.rs`.

A `Task` refers to the `TaskState` in the stack frame of the call that pushed
it.  The model keeps the `TaskState` in that frame and the task keeps the name
of the call.  `ErasedTask` erases lifetimes only, so it is the same type here.
-/

namespace ContentionQueue

/-! ## `TaskState` -/

/-- `FRONT_BIT`. -/
def frontBit : BitVec 8 := 0b01

/-- `PANIC_BIT`. -/
def panicBit : BitVec 8 := 0b10

/-- The byte of a `TaskState`.  Only the thread of the call sleeps on the
condition variable, so whether it has a sleeper is read off that call. -/
structure TaskState where
  state : BitVec 8
  deriving DecidableEq, Repr

namespace TaskState

/-- `TaskState::new`. -/
def new : TaskState := ⟨0⟩

/-- `state & FRONT_BIT != 0`. -/
def isFront (t : TaskState) : Bool := t.state &&& frontBit != 0

/-- `state & PANIC_BIT != 0`. -/
def isPanic (t : TaskState) : Bool := t.state &&& panicBit != 0

/-- The state that `wake_front_task` writes. -/
def wakeFrontTask (t : TaskState) : TaskState := ⟨t.state ||| frontBit⟩

/-- The state that `wake_front_task_panicking` writes. -/
def wakeFrontTaskPanicking (t : TaskState) : TaskState :=
  ⟨t.state ||| (panicBit ||| frontBit)⟩

@[simp] theorem isFront_new : new.isFront = false := rfl

@[simp] theorem isPanic_new : new.isPanic = false := rfl

@[simp] theorem isFront_wakeFrontTask (t : TaskState) :
    t.wakeFrontTask.isFront = true := by
  have h : ∀ x : BitVec 8, ((x ||| frontBit) &&& frontBit != 0) = true := by
    decide
  exact h t.state

@[simp] theorem isPanic_wakeFrontTask (t : TaskState) :
    t.wakeFrontTask.isPanic = t.isPanic := by
  have h : ∀ x : BitVec 8,
      ((x ||| frontBit) &&& panicBit != 0) = (x &&& panicBit != 0) := by
    decide
  exact h t.state

@[simp] theorem isFront_wakeFrontTaskPanicking (t : TaskState) :
    t.wakeFrontTaskPanicking.isFront = true := by
  have h : ∀ x : BitVec 8,
      ((x ||| (panicBit ||| frontBit)) &&& frontBit != 0) = true := by
    decide
  exact h t.state

@[simp] theorem isPanic_wakeFrontTaskPanicking (t : TaskState) :
    t.wakeFrontTaskPanicking.isPanic = true := by
  have h : ∀ x : BitVec 8,
      ((x ||| (panicBit ||| frontBit)) &&& panicBit != 0) = true := by
    decide
  exact h t.state

end TaskState

/-! ## `Task` -/

/-- `Task`: the call that its `&TaskState` refers to, and the value that has
not been taken yet. -/
structure Task (V : Type) where
  state : CallId
  value : Option V
  deriving DecidableEq, Repr

/-- `ErasedTask::take`: `value.replace(None)`. -/
def Task.take {V : Type} (t : Task V) : Option V × Task V :=
  (t.value, { t with value := none })

/-! ## The state behind the mutex -/

/-- `FrontExclusive`. -/
structure FrontExclusive (FS : Type) where
  frontState : FS
  deriving DecidableEq, Repr

/-- `MutexExclusive`. -/
structure MutexExclusive (V : Type) where
  frontLocked : Bool
  queuePoisoned : Bool
  queue : List (Task V)
  deriving DecidableEq, Repr

/-- The `MutexExclusive` that `ContentionQueue::new_with_options` builds. -/
def MutexExclusive.new {V : Type} : MutexExclusive V where
  frontLocked := false
  queuePoisoned := false
  queue := []

end ContentionQueue
