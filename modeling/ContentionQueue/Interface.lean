import Mathlib.Data.PNat.Basic

/-!
# The interface types

This module models `src/interface.rs`, `src/poisoning.rs` and the part of
`std::sync::Mutex` that the queue uses.

A lock has one guard, and the model follows that guard.  `Place` says where
it is: in the hands of user code, in a call of the queue, or in a
`MaybeUninit` that nobody drops any more.  A mutex is owned by the thread
that the place belongs to.
-/

namespace ContentionQueue

/-- A thread. -/
abbrev ThreadId := Nat

/-- One invocation of a public method. -/
abbrev CallId := Nat

/-- The address of a live `Mutex`.  A reference is never null. -/
abbrev Addr := ℕ+

/-- The literals of addresses. -/
instance (n : Nat) : OfNat Addr (n + 1) := ⟨n.succPNat⟩

/-! ## Options, results and panics -/

/-- `PanicOptions`. -/
structure PanicOptions where
  unwrapMutexPoison : Bool
  unwrapQueuePoison : Bool
  deriving DecidableEq, Repr

/-- `PanicOptions::default`. -/
def PanicOptions.default : PanicOptions where
  unwrapMutexPoison := true
  unwrapQueuePoison := true

/-- `ProcessResult<R>`. -/
inductive ProcessResult (R : Type) where
  | processed (r : R)
  | processedElsewhere
  | processingPanicked
  deriving DecidableEq, Repr

/-- The payload of an unwind, up to the place that raised it. -/
inductive Panic where
  /-- "All calls to `ContentionQueue::process` on the same queue must use the
  same `Mutex`", from `assert_mutex_good`. -/
  | mutexMismatch
  /-- "poisoned std::sync::Mutex", from `unwrap_poison` in
  `lock_and_process`. -/
  | poisonedLock
  /-- "a ContentionQueue was poisoned". -/
  | queuePoisoned
  /-- "the Mutex used for a ContentionQueue was poisoned". -/
  | mutexPoisoned
  /-- "`QueueHandle.next_idx` should be the index of the next task to process,
  and unprocessed tasks' values should be `Some(_)`". -/
  | nextIdx
  /-- Any payload that leaves `task.process`. -/
  | task
  deriving DecidableEq, Repr

/-! ## The mutex -/

/-- Where the guard of a locked mutex is. -/
inductive Place where
  /-- In user code of thread `t`. -/
  | user (t : ThreadId)
  /-- In a local variable or in the guard slot of call `i`. -/
  | call (i : CallId)
  /-- In the `maybe_uninit_guard` of call `i`, after the frame that declared
  it was unwound. -/
  | leaked (i : CallId)
  deriving DecidableEq, Repr

/-- `std::sync::Mutex<M>`. -/
structure Mutex (M : Type) where
  guard : Option Place
  poisoned : Bool
  data : M
  deriving DecidableEq, Repr

namespace Mutex

variable {M : Type}

/-- `Mutex::lock`, up to the poison flag of the result.  It blocks while a
guard exists, also when the caller is the thread that has it. -/
def lock (m : Mutex M) (p : Place) : Option (Mutex M) :=
  match m.guard with
  | none => some { m with guard := some p }
  | some _ => none

/-- A guard is dropped. -/
def unlock (m : Mutex M) : Mutex M := { m with guard := none }

/-- A guard is dropped by an unwind.  The mutex is poisoned only when its
guard was made by a thread that was not panicking, and a schedule covers the
other case with a `clear_poison` right after the drop. -/
def unlockPanicking (m : Mutex M) : Mutex M :=
  { m with guard := none, poisoned := true }

/-- A guard is moved. -/
def move (m : Mutex M) (p : Place) : Mutex M := { m with guard := some p }

@[simp] theorem lock_eq_some {m m' : Mutex M} {p : Place} :
    m.lock p = some m' ↔ m.guard = none ∧ m' = m.move p := by
  unfold lock move
  cases m.guard <;> simp [eq_comm]

@[simp] theorem lock_eq_none {m : Mutex M} {p : Place} :
    m.lock p = none ↔ m.guard ≠ none := by
  unfold lock
  cases m.guard <;> simp

@[simp] theorem guard_unlock (m : Mutex M) : m.unlock.guard = none := rfl

@[simp] theorem guard_unlockPanicking (m : Mutex M) :
    m.unlockPanicking.guard = none := rfl

@[simp] theorem guard_move (m : Mutex M) (p : Place) :
    (m.move p).guard = some p := rfl

@[simp] theorem poisoned_unlock (m : Mutex M) :
    m.unlock.poisoned = m.poisoned := rfl

@[simp] theorem poisoned_unlockPanicking (m : Mutex M) :
    m.unlockPanicking.poisoned = true := rfl

@[simp] theorem poisoned_move (m : Mutex M) (p : Place) :
    (m.move p).poisoned = m.poisoned := rfl

end Mutex

/-- `UnwrapPoison::unwrap_poison` on the result of a lock whose mutex has the
poison flag `poisoned`. -/
def unwrapPoison (poisoned unwrap : Bool) : Except Panic Unit :=
  if unwrap && poisoned then .error .poisonedLock else .ok ()

@[simp] theorem unwrapPoison_eq_ok {poisoned unwrap : Bool} {u : Unit} :
    unwrapPoison poisoned unwrap = .ok u ↔
      (unwrap = true → poisoned = false) := by
  cases poisoned <;> cases unwrap <;> simp [unwrapPoison]

@[simp] theorem unwrapPoison_eq_error {poisoned unwrap : Bool} {p : Panic} :
    unwrapPoison poisoned unwrap = .error p ↔
      (unwrap = true ∧ poisoned = true) ∧ p = .poisonedLock := by
  cases poisoned <;> cases unwrap <;> simp [unwrapPoison, eq_comm]

end ContentionQueue
