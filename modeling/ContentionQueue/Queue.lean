import ContentionQueue.Task

/-!
# The sections of the queue

This module models the blocks of `src/queue.rs` and `src/queue_handle.rs` that
touch shared data, one definition for each block.  `ContentionQueue.System`
puts them in their order and gives each the state it runs on.

A `MaybeUninit` is an `Option` or a flag here, so that a use of an
uninitialised slot can be told from a use of an initialised one.
-/

namespace ContentionQueue

variable {M FS V R : Type}

/-! ## `ContentionQueue` -/

/-- `assert_mutex_good`: the compare-exchange of `mutex_address` and the check
of its result.  The result is the address that is stored afterwards.  The
second assertion of the source, `size_of_val(mutex) > 0`, holds of every
`std::sync::Mutex`. -/
def assertMutexGood (mutexAddress : Nat) (mutex : Addr) : Except Panic Nat :=
  if mutexAddress = 0 then .ok mutex
  else if mutexAddress = mutex then .ok mutexAddress
  else .error .mutexMismatch

theorem assertMutexGood_eq_ok {stored n : Nat} {mutex : Addr} :
    assertMutexGood stored mutex = .ok n ↔
      (stored = 0 ∨ stored = mutex) ∧ n = mutex := by
  unfold assertMutexGood
  split_ifs <;> simp_all [eq_comm]

theorem assertMutexGood_eq_error {stored : Nat} {mutex : Addr} {p : Panic} :
    assertMutexGood stored mutex = .error p ↔
      (stored ≠ 0 ∧ stored ≠ mutex) ∧ p = .mutexMismatch := by
  unfold assertMutexGood
  split_ifs <;> simp_all [eq_comm]

/-- `try_acquire_front_fast`. -/
def MutexExclusive.tryAcquireFrontFast (x : MutexExclusive V) :
    Bool × MutexExclusive V :=
  if x.frontLocked then (false, x) else (true, { x with frontLocked := true })

/-- The push of `try_wait_until_at_front`. -/
def MutexExclusive.pushBack (x : MutexExclusive V) (t : Task V) :
    MutexExclusive V :=
  { x with queue := x.queue ++ [t] }

/-- `TaskWaitResult<T>`. -/
inductive TaskWaitResult (V : Type) where
  | process (value : V)
  | processedElsewhere
  | processingPanicked
  deriving DecidableEq, Repr

/-- The value that a `TaskWaitResult` carries. -/
def TaskWaitResult.value? : TaskWaitResult V → Option V
  | .process v => some v
  | .processedElsewhere => none
  | .processingPanicked => none

/-- The last block of `try_wait_until_at_front`: pop the front of the queue and
read the value of the popped task.  `none` is the undefined behaviour of
`unwrap_unchecked` on an empty queue. -/
def MutexExclusive.popFront (x : MutexExclusive V) (processingPanicked : Bool) :
    Option (TaskWaitResult V × MutexExclusive V) :=
  match x.queue with
  | [] => none
  | thisTask :: rest =>
      let result := match thisTask.value with
        | some thisValue => TaskWaitResult.process thisValue
        | none =>
            if processingPanicked then .processingPanicked
            else .processedElsewhere
      some (result, { x with queue := rest })

theorem MutexExclusive.popFront_eq_none {x : MutexExclusive V} {b : Bool} :
    x.popFront b = none ↔ x.queue = [] := by
  unfold popFront
  cases x.queue <;> simp

/-- What a pop takes from the queue. -/
theorem MutexExclusive.popFront_eq_some {x x' : MutexExclusive V} {b : Bool}
    {result : TaskWaitResult V} (h : x.popFront b = some (result, x')) :
    ∃ t, x.queue = t :: x'.queue ∧ result.value? = t.value ∧
      x' = { x with queue := x'.queue } := by
  unfold popFront at h
  cases hq : x.queue with
  | nil => simp [hq] at h
  | cons t rest =>
      simp only [hq, Option.some.injEq, Prod.mk.injEq] at h
      obtain ⟨rfl, rfl⟩ := h
      refine ⟨t, rfl, ?_, rfl⟩
      cases t.value <;> cases b <;> rfl

/-- What a call learns from its pop when its task has no value. -/
theorem MutexExclusive.popFront_merged {x x' : MutexExclusive V} {b : Bool}
    {result : TaskWaitResult V} (h : x.popFront b = some (result, x'))
    (hnone : result.value? = none) :
    result = if b then .processingPanicked else .processedElsewhere := by
  unfold popFront at h
  cases hq : x.queue with
  | nil => simp [hq] at h
  | cons t rest =>
      simp only [hq, Option.some.injEq, Prod.mk.injEq] at h
      obtain ⟨rfl, -⟩ := h
      cases hv : t.value with
      | none => rfl
      | some v =>
          rw [hv] at hnone
          cases hnone

/-- The queue-poison assertion of `try_process_unchecked`. -/
def assertQueueGood (options : PanicOptions) (x : MutexExclusive V) :
    Except Panic Unit :=
  if options.unwrapQueuePoison && x.queuePoisoned then .error .queuePoisoned
  else .ok ()

/-- The mutex-poison assertion of `try_process_unchecked`. -/
def assertMutexUnpoisoned (options : PanicOptions) (mutex : Mutex M) :
    Except Panic Unit :=
  if options.unwrapMutexPoison && mutex.poisoned then .error .mutexPoisoned
  else .ok ()

theorem assertQueueGood_eq_ok {options : PanicOptions} {x : MutexExclusive V}
    {u : Unit} : assertQueueGood options x = .ok u ↔
      (options.unwrapQueuePoison = true → x.queuePoisoned = false) := by
  unfold assertQueueGood
  split_ifs <;> simp_all

theorem assertQueueGood_eq_error {options : PanicOptions}
    {x : MutexExclusive V} {p : Panic} :
    assertQueueGood options x = .error p ↔
      (options.unwrapQueuePoison = true ∧ x.queuePoisoned = true) ∧
        p = .queuePoisoned := by
  unfold assertQueueGood
  cases options.unwrapQueuePoison <;> cases x.queuePoisoned <;>
    simp [eq_comm]

theorem assertMutexUnpoisoned_eq_ok {options : PanicOptions} {mutex : Mutex M}
    {u : Unit} : assertMutexUnpoisoned options mutex = .ok u ↔
      (options.unwrapMutexPoison = true → mutex.poisoned = false) := by
  unfold assertMutexUnpoisoned
  split_ifs <;> simp_all

theorem assertMutexUnpoisoned_eq_error {options : PanicOptions}
    {mutex : Mutex M} {p : Panic} :
    assertMutexUnpoisoned options mutex = .error p ↔
      (options.unwrapMutexPoison = true ∧ mutex.poisoned = true) ∧
        p = .mutexPoisoned := by
  unfold assertMutexUnpoisoned
  cases options.unwrapMutexPoison <;> cases mutex.poisoned <;>
    simp [eq_comm]

/-! ## `QueueHandle` -/

/-- The mutable part of a `QueueHandle`: the guard slot, whether the
`mutex_exclusive_guard` slot is initialised, and `next_idx`. -/
structure QueueHandle where
  guard : Option Addr
  mutexExclusiveGuard : Bool
  nextIdx : Nat
  deriving DecidableEq, Repr

namespace QueueHandle

/-- `QueueHandle::new`, on a slot that holds a guard of `guard`. -/
def new (guard : Addr) : QueueHandle where
  guard := some guard
  mutexExclusiveGuard := true
  nextIdx := 0

/-- `QueueHandle::peek`. -/
def peek (h : QueueHandle) (x : MutexExclusive V) : Except Panic (Option V) :=
  match x.queue[h.nextIdx]? with
  | none => .ok none
  | some nextTask =>
      match nextTask.value with
      | none => .error .nextIdx
      | some value => .ok (some value)

/-- `QueueHandle::pop`.  The value comes with the call that submitted it,
which the source does not return. -/
def pop (h : QueueHandle) (x : MutexExclusive V) :
    Except Panic (Option (CallId × V)) × QueueHandle × MutexExclusive V :=
  match x.queue[h.nextIdx]? with
  | none => (.ok none, h, x)
  | some nextTask =>
      let h' := { h with nextIdx := h.nextIdx + 1 }
      let x' := { x with queue := x.queue.set h.nextIdx nextTask.take.2 }
      match nextTask.take.1 with
      | none => (.error .nextIdx, h', x')
      | some value => (.ok (some (nextTask.state, value)), h', x')

/-- The two writes of `ReLock::new`: both slots are uninitialised then. -/
def release (h : QueueHandle) : QueueHandle :=
  { h with guard := none, mutexExclusiveGuard := false }

/-- The two writes of `ReLock::drop`, with a guard of `mutex`. -/
def restore (h : QueueHandle) (mutex : Addr) : QueueHandle :=
  { h with guard := some mutex, mutexExclusiveGuard := true }

end QueueHandle

end ContentionQueue
