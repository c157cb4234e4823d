import ContentionQueue.Queue
import ContentionQueue.Lib.Machine
import Mathlib.Logic.Function.Basic

/-!
# The queue, its mutexes and its callers

A call of a public method is a `Frame`: its arguments, its `TaskState` and a
program counter.  A program counter stands before the next block of the source
that touches shared data, and it carries the local variables that are live
there.  `Pc.guard?` names the guard that the frame has at that point.

A thread is a stack of calls.  Only the top of the stack runs, and user code
runs on a thread that is in no call, in a callback or in the closure of
`unlocked`.  User code may lock and unlock mutexes, start calls and, in a
callback, use the `QueueHandle`.  What it does is not fixed: each of its
operations is an action of the schedule.

`step` is the transition function.  The schedule chooses the action, which
covers the interleaving of the threads, the spurious wake-ups of
`Condvar::wait` and the poison that other code puts on a mutex.

An abort ends the process, so the model leaves out the two ways to reach one:
a failed allocation in `push_back`, and a `Mutex::lock` in `ReLock::drop` that
unwinds.  `Mutex::lock` does not unwind elsewhere either: a thread that locks
a mutex again waits.
-/

namespace ContentionQueue

open Machines

/-! ## Program counters -/

/-- How a call ended. -/
inductive Outcome (R : Type) where
  /-- `process` or `lock_and_process` returned. -/
  | returned (result : ProcessResult R)
  /-- `is_queue_poisoned` or `clear_queue_poison` returned. -/
  | answered (poisoned : Option Bool)
  /-- The call unwound. -/
  | unwound (panic : Panic)
  deriving DecidableEq, Repr

/-- The next block of a call. -/
inductive Pc (V R : Type) where
  /-- `lock_and_process`: `mutex.lock().unwrap_poison(..)`. -/
  | lock (value : V)
  /-- `process`: `self.assert_mutex_good(mutex)`. -/
  | assertMutexGood (guard : Addr) (value : V)
  | tryAcquireFrontFast (guard : Addr) (value : V)
  /-- `try_wait_until_at_front`: `queue.push_back(erased_task)`. -/
  | pushBack (guard : Addr) (value : V)
  /-- `wait_until_at_front`: `self.condvar.wait(guard)`. -/
  | wait (guard : Addr)
  /-- Asleep in `Condvar::wait`.  The guard is of the mutex `guard`, and it is
  not held. -/
  | asleep (guard : Addr)
  /-- Woken in `Condvar::wait`, before the mutex is locked again. -/
  | relock (guard : Addr)
  /-- `wait_until_at_front`: the test of `state & FRONT_BIT`. -/
  | testFront (guard : Addr)
  /-- `try_wait_until_at_front`: `queue.pop_front()`. -/
  | popFront (guard : Addr) (processingPanicked : Bool)
  /-- `try_process_unchecked`: the queue-poison assertion and the match on
  the `TaskWaitResult`. -/
  | assertQueueGood (guard : Addr) (result : TaskWaitResult V)
  /-- `try_process_unchecked`: the mutex-poison assertion and the call of
  `task.process`. -/
  | assertMutexUnpoisoned (guard : Addr) (value : V)
  /-- In user code of `task.process`. -/
  | callback (handle : QueueHandle)
  /-- In user code of the closure of `QueueHandle::unlocked`. -/
  | unlocked (handle : QueueHandle)
  /-- `ReLock::drop`: `self.mutex.lock()`. -/
  | reLock (handle : QueueHandle)
  /-- `process_unchecked`: the last block, after the `Ok` branch. -/
  | handOff (guard : Addr) (result : ProcessResult R)
  /-- `process_unchecked` returns.  In `lock_and_process` the guard that it
  returns is dropped. -/
  | returning (guard : Addr) (result : ProcessResult R)
  /-- `process_unchecked`: `mutex.lock()` in the `Err` branch. -/
  | errLock (panic : Panic)
  /-- `process_unchecked`: the block of the `Err` branch. -/
  | errHandOff (guard : Addr) (panic : Panic)
  /-- `process_unchecked`: `drop(guard)` in the `Err` branch. -/
  | resumeUnwind (guard : Addr) (panic : Panic)
  /-- `is_queue_poisoned` and `clear_queue_poison`: `assert_mutex_good`. -/
  | queryAssert
  /-- `is_queue_poisoned` and `clear_queue_poison`: `mutex.lock()`. -/
  | queryLock
  /-- `is_queue_poisoned` and `clear_queue_poison`: the access. -/
  | queryAccess (guard : Addr)
  /-- `is_queue_poisoned` and `clear_queue_poison`: `drop(guard)`. -/
  | queryReturn (guard : Addr) (answer : Option Bool)
  /-- The guard has been dropped, and the call has not returned or unwound
  yet. -/
  | ending (outcome : Outcome R)
  | done (outcome : Outcome R)
  /-- After undefined behaviour, with the guard that the frame had. -/
  | undefined (guard : Option Addr)
  deriving DecidableEq, Repr

/-- A public method with its own arguments.  `process` gets a guard of the
mutex at `guard`. -/
inductive Method (V : Type) where
  | process (guard : Addr) (value : V)
  | lockAndProcess (value : V)
  | isQueuePoisoned
  | clearQueuePoison
  deriving DecidableEq, Repr

/-- A call: the thread, the `mutex` argument and the method. -/
structure Call (V : Type) where
  thread : ThreadId
  mutex : Addr
  method : Method V
  deriving DecidableEq, Repr

/-- The frame of a call. -/
structure Frame (V R : Type) where
  call : Call V
  taskState : TaskState
  pc : Pc V R
  deriving DecidableEq, Repr

variable {M FS V R : Type}

/-- The value that a call submits. -/
def Method.value? : Method V → Option V
  | .process _ value => some value
  | .lockAndProcess value => some value
  | .isQueuePoisoned => none
  | .clearQueuePoison => none

/-- Where a call starts. -/
def Method.entry : Method V → Pc V R
  | .process guard value => .assertMutexGood guard value
  | .lockAndProcess value => .lock value
  | .isQueuePoisoned => .queryAssert
  | .clearQueuePoison => .queryAssert

/-- The guard that a frame has, by the mutex it is a guard of. -/
def Pc.guard? : Pc V R → Option Addr
  | .lock _ => none
  | .assertMutexGood g _ => some g
  | .tryAcquireFrontFast g _ => some g
  | .pushBack g _ => some g
  | .wait g => some g
  | .asleep _ => none
  | .relock _ => none
  | .testFront g => some g
  | .popFront g _ => some g
  | .assertQueueGood g _ => some g
  | .assertMutexUnpoisoned g _ => some g
  | .callback h => h.guard
  | .unlocked h => h.guard
  | .reLock h => h.guard
  | .handOff g _ => some g
  | .returning g _ => some g
  | .errLock _ => none
  | .errHandOff g _ => some g
  | .resumeUnwind g _ => some g
  | .queryAssert => none
  | .queryLock => none
  | .queryAccess g => some g
  | .queryReturn g _ => some g
  | .ending _ => none
  | .done _ => none
  | .undefined g => g

/-- A frame runs user code in a callback and in the closure of `unlocked`. -/
def Pc.isUserCode : Pc V R → Bool
  | .callback _ => true
  | .unlocked _ => true
  | _ => false

/-- `Condvar::notify_one`: the sleeper, if there is one, goes on to lock the
mutex. -/
def Pc.notifyOne : Pc V R → Pc V R
  | .asleep g => .relock g
  | pc => pc

/-- `wake_front_task` and `wake_front_task_panicking`, which differ in the
bits that `wake` sets. -/
def Frame.wake (wake : TaskState → TaskState) (f : Frame V R) : Frame V R :=
  { f with taskState := wake f.taskState, pc := f.pc.notifyOne }

/-! ## States, actions and events -/

/-- The state of a queue and of everything that uses it. -/
structure State (M FS V R : Type) where
  /-- `mutex_address`. -/
  mutexAddress : Nat
  frontExclusive : FrontExclusive FS
  mutexExclusive : MutexExclusive V
  mutexes : Addr → Mutex M
  /-- The calls that were started. -/
  frames : CallId → Option (Frame V R)
  /-- The calls that each thread is in, innermost first. -/
  threads : ThreadId → List CallId

/-- `options`, and an assumption about the code. -/
structure Config where
  options : PanicOptions
  /-- Whether a guard that an unwind left behind in `maybe_uninit_guard` may be
  given back.  The code never does that, so `false` is the code.  With `true`
  the `Err` branch can get the mutex after any unwind, which is how the rest of
  that branch can be studied. -/
  leakReleased : Bool
  deriving DecidableEq, Repr

/-- What the code of a callback may do next. -/
inductive CallbackOp (M FS R : Type) where
  | peek
  | pop
  /-- A write through `mutex_state_mut`. -/
  | mutexState (data : M)
  /-- A write through `front_state`, which the closure of `unlocked` may do
  too. -/
  | frontState (frontState : FS)
  | isQueuePoisoned
  | clearQueuePoison
  /-- The start of `unlocked`, up to the start of its closure. -/
  | unlocked
  /-- The closure of `unlocked` returns or unwinds. -/
  | endUnlocked
  /-- The callback returns. -/
  | ret (r : R)
  /-- The callback unwinds. -/
  | unwind
  deriving DecidableEq, Repr

/-- One choice of the schedule. -/
inductive Action (M FS V R : Type) where
  /-- User code starts a call. -/
  | call (i : CallId) (c : Call V)
  /-- The next block of call `i`. -/
  | step (i : CallId)
  /-- The next operation of the callback of call `i`. -/
  | callback (i : CallId) (op : CallbackOp M FS R)
  /-- A spurious wake-up of call `i`. -/
  | spuriousWake (i : CallId)
  /-- User code of thread `t` locks a mutex. -/
  | lock (t : ThreadId) (a : Addr)
  /-- User code of thread `t` drops a guard. -/
  | unlock (t : ThreadId) (a : Addr)
  /-- Other code poisons a mutex. -/
  | poison (a : Addr)
  /-- `Mutex::clear_poison`. -/
  | clearPoison (a : Addr)
  /-- A leaked guard is given back.  See `Config.leakReleased`. -/
  | releaseLeaked (a : Addr)
  deriving DecidableEq, Repr

/-- What an observer of the queue sees. -/
inductive Event (V R : Type) where
  /-- `assert_mutex_good` returned in call `i`. -/
  | mutexGood (i : CallId)
  /-- Call `i` set `front_locked`. -/
  | flip (i : CallId) (value : V)
  /-- Call `i` pushed its task. -/
  | push (i : CallId) (value : V)
  /-- Call `i` popped the front of the queue after its wait. -/
  | popFront (i : CallId)
  /-- A poison assertion of call `i` failed, and the unwind dropped
  `value`. -/
  | assertFailed (i : CallId) (panic : Panic) (value : Option V)
  /-- The callback of call `i` was called on `value`. -/
  | callback (i : CallId) (value : V)
  /-- `peek` returned in the callback of call `i`. -/
  | peek (i : CallId) (value : Option V)
  /-- The handle of call `i` popped the value of the task of `owner`. -/
  | pop (i owner : CallId) (value : V)
  /-- `pop` returned `None` in the callback of call `i`. -/
  | popNone (i : CallId)
  /-- `is_queue_poisoned` returned in the callback of call `i`. -/
  | isQueuePoisoned (i : CallId) (poisoned : Bool)
  /-- The callback of call `i` returned. -/
  | callbackReturn (i : CallId) (r : R)
  /-- The callback of call `i` unwound. -/
  | callbackUnwind (i : CallId)
  /-- Call `i` dropped its guard for the last time, or returned it, and ends
  with `outcome`. -/
  | leave (i : CallId) (outcome : Outcome R)
  deriving DecidableEq, Repr

/-- The call that an action is about, if there is one. -/
def Action.call? : Action M FS V R → Option CallId
  | .call i _ => some i
  | .step i => some i
  | .callback i _ => some i
  | .spuriousWake i => some i
  | _ => none

/-- The call that shows an event. -/
def Event.call : Event V R → CallId
  | .mutexGood i => i
  | .flip i _ => i
  | .push i _ => i
  | .popFront i => i
  | .assertFailed i _ _ => i
  | .callback i _ => i
  | .peek i _ => i
  | .pop i _ _ => i
  | .popNone i => i
  | .isQueuePoisoned i _ => i
  | .callbackReturn i _ => i
  | .callbackUnwind i => i
  | .leave i _ => i

/-! ## The transition function -/

namespace State

/-- A new queue, with unlocked mutexes and no calls. -/
def new (frontState : FS) (data : Addr → M) : State M FS V R where
  mutexAddress := 0
  frontExclusive := ⟨frontState⟩
  mutexExclusive := .new
  mutexes := fun a => ⟨none, false, data a⟩
  frames := fun _ => none
  threads := fun _ => []

@[simps -fullyApplied]
def setFrame (s : State M FS V R) (i : CallId) (f : Frame V R) :
    State M FS V R :=
  { s with frames := Function.update s.frames i (some f) }

@[simps -fullyApplied]
def setMutex (s : State M FS V R) (a : Addr) (m : Mutex M) : State M FS V R :=
  { s with mutexes := Function.update s.mutexes a m }

@[simps -fullyApplied]
def setExclusive (s : State M FS V R) (x : MutexExclusive V) :
    State M FS V R :=
  { s with mutexExclusive := x }

@[simps -fullyApplied]
def setMutexAddress (s : State M FS V R) (address : Nat) : State M FS V R :=
  { s with mutexAddress := address }

@[simps -fullyApplied]
def setFrontState (s : State M FS V R) (frontState : FS) : State M FS V R :=
  { s with frontExclusive := ⟨frontState⟩ }

/-- The new call `i`, whose frame is `f`, is put on its thread. -/
@[simps -fullyApplied]
def pushFrame (s : State M FS V R) (i : CallId) (f : Frame V R) :
    State M FS V R :=
  { s with
    frames := Function.update s.frames i (some f)
    threads :=
      Function.update s.threads f.call.thread
        (i :: s.threads f.call.thread) }

/-- Call `i`, whose frame is `f`, goes on to `pc`. -/
@[simps -fullyApplied]
def goto (s : State M FS V R) (i : CallId) (f : Frame V R) (pc : Pc V R) :
    State M FS V R :=
  { s with frames := Function.update s.frames i (some { f with pc := pc }) }

/-- Call `i`, whose frame is `f`, ends. -/
@[simps -fullyApplied]
def finish (s : State M FS V R) (i : CallId) (f : Frame V R)
    (outcome : Outcome R) : State M FS V R :=
  { s with
    frames := Function.update s.frames i (some { f with pc := .done outcome })
    threads :=
      Function.update s.threads f.call.thread (s.threads f.call.thread).tail }

/-- The end of `process_unchecked`: wake the front task with `wake`, or set
`front_locked` to `false` when the queue is empty. -/
def wakeNext (s : State M FS V R) (wake : TaskState → TaskState) :
    State M FS V R :=
  match s.mutexExclusive.queue with
  | [] => s.setExclusive { s.mutexExclusive with frontLocked := false }
  | nextFrontTask :: _ =>
      { s with
        frames := Function.update s.frames nextFrontTask.state
          ((s.frames nextFrontTask.state).map (Frame.wake wake)) }

/-- Whether call `i` is the innermost call of its thread. -/
def running (s : State M FS V R) (i : CallId) (f : Frame V R) : Bool :=
  (s.threads f.call.thread).head? = some i

/-- Whether thread `t` is in user code. -/
def inUserCode (s : State M FS V R) (t : ThreadId) : Bool :=
  match s.threads t with
  | [] => true
  | i :: _ =>
      match s.frames i with
      | some f => f.pc.isUserCode
      | none => false

/-- The start of a call.  The guard argument of `process` moves from user code
to the call. -/
def startCall (s : State M FS V R) (i : CallId) (c : Call V) :
    Option (State M FS V R) :=
  let f : Frame V R := ⟨c, .new, c.method.entry⟩
  let s' := s.pushFrame i f
  match c.method with
  | .process guard _ =>
      if (s.mutexes guard).guard = some (.user c.thread) then
        some (s'.setMutex guard ((s.mutexes guard).move (.call i)))
      else none
  | _ => some s'

end State

open State

/-- The next block of call `i`, whose frame is `f`. -/
def stepFrame (cfg : Config) (s : State M FS V R) (i : CallId)
    (f : Frame V R) : Option (State M FS V R × List (Event V R)) :=
  let mutex := f.call.mutex
  match f.pc with
  | .lock value =>
      match (s.mutexes mutex).lock (.call i) with
      | none => none
      | some m =>
          match unwrapPoison m.poisoned cfg.options.unwrapMutexPoison with
          | .ok () =>
              some ((s.setMutex mutex m).goto i f
                (.assertMutexGood mutex value), [])
          | .error p =>
              some ((s.setMutex mutex m.unlockPanicking).goto i f
                (.ending (.unwound p)), [.leave i (.unwound p)])
  | .assertMutexGood g value =>
      match assertMutexGood s.mutexAddress mutex with
      | .ok address =>
          some ((s.setMutexAddress address).goto i f
            (.tryAcquireFrontFast g value), [.mutexGood i])
      | .error p =>
          some ((s.setMutex g (s.mutexes g).unlockPanicking).goto i f
            (.ending (.unwound p)), [.leave i (.unwound p)])
  | .tryAcquireFrontFast g value =>
      match s.mutexExclusive.tryAcquireFrontFast with
      | (true, x) =>
          some ((s.setExclusive x).goto i f (.assertMutexUnpoisoned g value),
            [.flip i value])
      | (false, x) =>
          some ((s.setExclusive x).setFrame i
            { f with taskState := .new, pc := .pushBack g value }, [])
  | .pushBack g value =>
      some ((s.setExclusive (s.mutexExclusive.pushBack ⟨i, some value⟩)).goto
        i f (.wait g), [.push i value])
  | .wait g =>
      some ((s.setMutex g (s.mutexes g).unlock).goto i f (.asleep g), [])
  | .asleep _ => none
  | .relock g =>
      match (s.mutexes g).lock (.call i) with
      | none => none
      | some m => some ((s.setMutex g m).goto i f (.testFront g), [])
  | .testFront g =>
      if f.taskState.isFront then
        some (s.goto i f (.popFront g f.taskState.isPanic), [])
      else some (s.goto i f (.wait g), [])
  | .popFront g processingPanicked =>
      match s.mutexExclusive.popFront processingPanicked with
      | none => some (s.goto i f (.undefined (some g)), [])
      | some (result, x) =>
          some ((s.setExclusive x).goto i f (.assertQueueGood g result),
            [.popFront i])
  | .assertQueueGood g result =>
      match assertQueueGood cfg.options s.mutexExclusive with
      | .error p =>
          some ((s.setMutex g (s.mutexes g).unlockPanicking).goto i f
            (.errLock p), [.assertFailed i p result.value?])
      | .ok () =>
          match result with
          | .process thisValue =>
              some (s.goto i f (.assertMutexUnpoisoned g thisValue), [])
          | .processedElsewhere =>
              some (s.goto i f (.handOff g .processedElsewhere), [])
          | .processingPanicked =>
              some (s.goto i f (.handOff g .processingPanicked), [])
  | .assertMutexUnpoisoned g value =>
      match assertMutexUnpoisoned cfg.options (s.mutexes mutex) with
      | .error p =>
          some ((s.setMutex g (s.mutexes g).unlockPanicking).goto i f
            (.errLock p), [.assertFailed i p (some value)])
      | .ok () =>
          some (s.goto i f (.callback (.new g)), [.callback i value])
  | .callback _ => none
  | .unlocked _ => none
  | .reLock h =>
      match (s.mutexes mutex).lock (.call i) with
      | none => none
      | some m =>
          some ((s.setMutex mutex m).goto i f (.callback (h.restore mutex)), [])
  | .handOff g result =>
      some ((s.goto i f (.returning g result)).wakeNext
        TaskState.wakeFrontTask, [])
  | .returning g result =>
      match f.call.method with
      | .process _ _ =>
          some ((s.setMutex g ((s.mutexes g).move (.user f.call.thread))).finish
            i f (.returned result), [.leave i (.returned result)])
      | _ =>
          some ((s.setMutex g (s.mutexes g).unlock).goto i f
            (.ending (.returned result)), [.leave i (.returned result)])
  | .errLock p =>
      match (s.mutexes mutex).lock (.call i) with
      | none => none
      | some m => some ((s.setMutex mutex m).goto i f (.errHandOff mutex p), [])
  | .errHandOff g p =>
      some (((s.setExclusive { s.mutexExclusive with
        queuePoisoned := true }).goto i f (.resumeUnwind g p)).wakeNext
          TaskState.wakeFrontTaskPanicking, [])
  | .resumeUnwind g p =>
      some ((s.setMutex g (s.mutexes g).unlock).goto i f
        (.ending (.unwound p)), [.leave i (.unwound p)])
  | .queryAssert =>
      match assertMutexGood s.mutexAddress mutex with
      | .ok address =>
          some ((s.setMutexAddress address).goto i f .queryLock,
            [.mutexGood i])
      | .error p =>
          some (s.finish i f (.unwound p), [.leave i (.unwound p)])
  | .queryLock =>
      match (s.mutexes mutex).lock (.call i) with
      | none => none
      | some m => some ((s.setMutex mutex m).goto i f (.queryAccess mutex), [])
  | .queryAccess g =>
      match f.call.method with
      | .clearQueuePoison =>
          some ((s.setExclusive { s.mutexExclusive with
            queuePoisoned := false }).goto i f (.queryReturn g none), [])
      | _ =>
          some (s.goto i f
            (.queryReturn g (some s.mutexExclusive.queuePoisoned)), [])
  | .queryReturn g answer =>
      some ((s.setMutex g (s.mutexes g).unlock).goto i f
        (.ending (.answered answer)), [.leave i (.answered answer)])
  | .ending outcome => some (s.finish i f outcome, [])
  | .done _ => none
  | .undefined _ => none

/-- The next operation of the callback of call `i`, whose frame is `f` and
whose handle is `h`, while the callback is not in `unlocked`.  An operation on
an uninitialised slot is undefined behaviour. -/
def stepCallback (s : State M FS V R) (i : CallId) (f : Frame V R)
    (h : QueueHandle) (op : CallbackOp M FS R) :
    Option (State M FS V R × List (Event V R)) :=
  match h.guard, h.mutexExclusiveGuard with
  | some g, true =>
      match op with
      | .peek =>
          match h.peek s.mutexExclusive with
          | .ok value => some (s, [.peek i value])
          | .error _ => some (s, [])
      | .pop =>
          match h.pop s.mutexExclusive with
          | (.ok (some (owner, value)), h', x) =>
              some ((s.setExclusive x).goto i f (.callback h'),
                [.pop i owner value])
          | (.ok none, _, _) => some (s, [.popNone i])
          | (.error _, h', x) =>
              some ((s.setExclusive x).goto i f (.callback h'), [])
      | .mutexState data =>
          some (s.setMutex g { s.mutexes g with data := data }, [])
      | .frontState frontState =>
          some (s.setFrontState frontState, [])
      | .isQueuePoisoned =>
          some (s, [.isQueuePoisoned i s.mutexExclusive.queuePoisoned])
      | .clearQueuePoison =>
          some (s.setExclusive { s.mutexExclusive with
            queuePoisoned := false }, [])
      | .unlocked =>
          some ((s.setMutex g (s.mutexes g).unlock).goto i f
            (.unlocked h.release), [])
      | .endUnlocked => none
      | .ret r =>
          some (s.goto i f (.handOff g (.processed r)), [.callbackReturn i r])
      | .unwind =>
          -- `maybe_uninit_guard` goes out of scope with the guard in it.
          some ((s.setMutex g ((s.mutexes g).move (.leaked i))).goto i f
            (.errLock .task), [.callbackUnwind i])
  | _, _ => some (s.goto i f (.undefined h.guard), [])

/-- The transition function. -/
def step (cfg : Config) (s : State M FS V R) :
    Action M FS V R → Option (State M FS V R × List (Event V R))
  | .call i c =>
      if (s.frames i).isNone && s.inUserCode c.thread then
        (s.startCall i c).map fun s' => (s', [])
      else none
  | .step i =>
      match s.frames i with
      | some f => if s.running i f then stepFrame cfg s i f else none
      | none => none
  | .callback i op =>
      match s.frames i with
      | some f =>
          if s.running i f then
            match f.pc, op with
            | .callback h, op => stepCallback s i f h op
            | .unlocked _, .frontState frontState =>
                some (s.setFrontState frontState, [])
            | .unlocked h, .endUnlocked => some (s.goto i f (.reLock h), [])
            | _, _ => none
          else none
      | none => none
  | .spuriousWake i =>
      match s.frames i with
      | some f =>
          match f.pc with
          | .asleep g => some (s.goto i f (.relock g), [])
          | _ => none
      | none => none
  | .lock t a =>
      if s.inUserCode t then
        match (s.mutexes a).lock (.user t) with
        | none => none
        | some m => some (s.setMutex a m, [])
      else none
  | .unlock t a =>
      if s.inUserCode t && (s.mutexes a).guard = some (.user t) then
        some (s.setMutex a (s.mutexes a).unlock, [])
      else none
  | .poison a => some (s.setMutex a { s.mutexes a with poisoned := true }, [])
  | .clearPoison a =>
      some (s.setMutex a { s.mutexes a with poisoned := false }, [])
  | .releaseLeaked a =>
      match cfg.leakReleased, (s.mutexes a).guard with
      | true, some (.leaked _) =>
          some (s.setMutex a (s.mutexes a).unlock, [])
      | _, _ => none

/-- The queue as a machine. -/
def machine (M FS V R : Type) (cfg : Config) :
    Machine (State M FS V R) (Action M FS V R) (Event V R) where
  step := step cfg

/-- A `process` call gets a guard of the mutex that it passes. -/
def Call.Matched (c : Call V) : Prop :=
  match c.method with
  | .process guard _ => guard = c.mutex
  | _ => True

instance : (c : Call V) → Decidable c.Matched
  | ⟨_, mutex, .process guard _⟩ => inferInstanceAs (Decidable (guard = mutex))
  | ⟨_, _, .lockAndProcess _⟩ => isTrue trivial
  | ⟨_, _, .isQueuePoisoned⟩ => isTrue trivial
  | ⟨_, _, .clearQueuePoison⟩ => isTrue trivial

/-- An action that starts only matched calls. -/
def Action.Matched : Action M FS V R → Prop
  | .call _ c => c.Matched
  | _ => True

instance : (a : Action M FS V R) → Decidable a.Matched
  | .call _ c => inferInstanceAs (Decidable c.Matched)
  | .step _ => isTrue trivial
  | .callback _ _ => isTrue trivial
  | .spuriousWake _ => isTrue trivial
  | .lock _ _ => isTrue trivial
  | .unlock _ _ => isTrue trivial
  | .poison _ => isTrue trivial
  | .clearPoison _ => isTrue trivial
  | .releaseLeaked _ => isTrue trivial

/-- The runs of a new queue in which every call is matched: each `process` call
is given a guard of the mutex that it passes. -/
def Run (cfg : Config) (frontState : FS) (data : Addr → M)
    (acts : List (Action M FS V R)) (log : List (Event V R))
    (s : State M FS V R) : Prop :=
  (machine M FS V R cfg).Exec (fun _ a => a.Matched)
    (State.new frontState data) acts log s

/-- The events and the state of a list of actions, if each of them is enabled
and every call is matched. -/
def run (cfg : Config) (frontState : FS) (data : Addr → M)
    (acts : List (Action M FS V R)) :
    Option (State M FS V R × List (Event V R)) :=
  (machine M FS V R cfg).exec (fun _ a => a.Matched)
    (State.new frontState data) acts

theorem Run.of_run {cfg : Config} {frontState : FS} {data : Addr → M}
    {acts : List (Action M FS V R)}
    (h : (run cfg frontState data acts).isSome) :
    Run cfg frontState data acts ((run cfg frontState data acts).get h).2
      ((run cfg frontState data acts).get h).1 :=
  Machine.Exec.of_isSome h

end ContentionQueue
