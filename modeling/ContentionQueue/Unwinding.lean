import ContentionQueue.Ownership
import ContentionQueue.Accounting

/-!
# The `Err` branch

When `try_process_unchecked` unwinds, the `Err` branch of `process_unchecked`
locks the mutex again, sets `queue_poisoned` and wakes the next task or clears
`front_locked`.  The lock can only succeed when the unwind has dropped the
guard.

Each poison assertion unwinds with the guard in a local variable, and the
unwind drops it.  `task.process` unwinds with the guard in
`maybe_uninit_guard`, and nothing drops it.  So the branch works for a call if
and only if the callback of the call does not unwind.
-/

namespace ContentionQueue

open Machines State

variable {M FS V R : Type} {cfg : Config} {s s' : State M FS V R}
  {a : Action M FS V R} {evs log : List (Event V R)}
  {acts : List (Action M FS V R)} {frontState : FS} {data : Addr → M}

/-! ## What the branch should do -/

/-- The next task, if there is one, is told to go on and that a call
panicked, and it is not asleep.  Otherwise `front_locked` is clear. -/
def State.PassedOn (s : State M FS V R) : Prop :=
  match s.mutexExclusive.queue with
  | [] => s.mutexExclusive.frontLocked = false
  | nextFrontTask :: _ =>
      ∃ f, s.frames nextFrontTask.state = some f ∧
        f.taskState.isFront = true ∧ f.taskState.isPanic = true ∧
          ∀ g, f.pc ≠ .asleep g

/-- What the `Err` branch of call `i` should do.  Where the branch locks the
mutex, the thread does not own it, and a free mutex is locked.  Then the
branch sets `queue_poisoned` and passes the front on. -/
structure State.ErrBranchOk (cfg : Config) (i : CallId)
    (s : State M FS V R) : Prop where
  notOwned : ∀ f p, s.frames i = some f → f.pc = .errLock p →
    ¬ s.Owns f.call.thread f.call.mutex
  locks : ∀ f p, s.frames i = some f → f.pc = .errLock p →
    (s.mutexes f.call.mutex).guard = none →
      ∃ s' f', step cfg s (.step i) = some (s', []) ∧
        s'.frames i = some f' ∧ f'.pc = .errHandOff f.call.mutex p
  passesOn : ∀ f g p, s.frames i = some f → f.pc = .errHandOff g p →
    ∃ s', step cfg s (.step i) = some (s', []) ∧
      s'.mutexExclusive.queuePoisoned = true ∧ s'.PassedOn

/-- Every state that the run went through has `Q`. -/
def Run.Always (cfg : Config) (frontState : FS) (data : Addr → M)
    (acts : List (Action M FS V R)) (log : List (Event V R))
    (s : State M FS V R) (Q : List (Event V R) → State M FS V R → Prop) :
    Prop :=
  (machine M FS V R cfg).Always (fun _ a => a.Matched)
    (State.new frontState data) acts log s Q

/-! ## The steps of the branch -/

section Steps

variable {i : CallId} {f : Frame V R}

theorem not_asleep_notifyOne (pc : Pc V R) (g : Addr) :
    pc.notifyOne ≠ .asleep g := by
  cases pc <;> simp [Pc.notifyOne]

/-- `mutex.lock()` of the `Err` branch on a free mutex. -/
theorem State.At.errLock_step {p : Panic} (hat : s.At i f (.errLock p))
    (hfree : (s.mutexes f.call.mutex).guard = none) :
    ∃ s' f', step cfg s (.step i) = some (s', []) ∧
      s'.frames i = some f' ∧ f'.pc = .errHandOff f.call.mutex p := by
  have hlock : (s.mutexes f.call.mutex).lock (.call i) =
      some ((s.mutexes f.call.mutex).move (.call i)) :=
    Mutex.lock_eq_some.mpr ⟨hfree, rfl⟩
  refine ⟨(s.setMutex f.call.mutex ((s.mutexes f.call.mutex).move
    (.call i))).goto i f (.errHandOff f.call.mutex p),
    { f with pc := .errHandOff f.call.mutex p }, ?_,
    Function.update_self _ _ _, rfl⟩
  rw [hat.step_eq]
  simp only [stepFrame, hat.pc, hlock]

/-- A hand-off that sets `PANIC_BIT` passes the front on, when every task of
the queue is the task of a call. -/
theorem passedOn_wakeNext
    (hcalls : ∀ t ∈ s.mutexExclusive.queue, (s.frames t.state).isSome) :
    (s.wakeNext TaskState.wakeFrontTaskPanicking).PassedOn := by
  unfold State.PassedOn
  rw [wakeNext_queue]
  cases hq : s.mutexExclusive.queue with
  | nil => simp [wakeNext_nil s _ hq]
  | cons t rest =>
      obtain ⟨f, hf⟩ := Option.isSome_iff_exists.mp
        (hcalls t (by rw [hq]; exact List.mem_cons_self))
      refine ⟨f.wake TaskState.wakeFrontTaskPanicking, ?_,
        TaskState.isFront_wakeFrontTaskPanicking _,
        TaskState.isPanic_wakeFrontTaskPanicking _, not_asleep_notifyOne _⟩
      rw [wakeNext_cons s _ hq]
      simp [hf]

/-- The block of the `Err` branch. -/
theorem State.At.errHandOff_step {g : Addr} {p : Panic}
    (hat : s.At i f (.errHandOff g p))
    (hcalls : ∀ t ∈ s.mutexExclusive.queue, (s.frames t.state).isSome) :
    ∃ s', step cfg s (.step i) = some (s', []) ∧
      s'.mutexExclusive.queuePoisoned = true ∧ s'.PassedOn := by
  refine ⟨_, ?_, ?_, passedOn_wakeNext (s := (s.setExclusive
    { s.mutexExclusive with queuePoisoned := true }).goto i f
      (.resumeUnwind g p)) ?_⟩
  · rw [hat.step_eq]
    simp only [stepFrame, hat.pc]
  · rw [wakeNext_queuePoisoned]
    rfl
  · intro t ht
    rcases eq_or_ne t.state i with hi | hi
    · simp [hi]
    · simpa [hi] using hcalls t ht

end Steps

/-! ## When the branch works -/

/-- After its callback has unwound, a call waits for a mutex that its own
thread owns. -/
theorem Transition.not_errBranchOk (ht : Transition cfg s a s' evs)
    (hb : Basics s) {i : CallId} (he : .callbackUnwind i ∈ evs) :
    ¬ s'.ErrBranchOk cfg i := by
  cases ht <;> simp only [List.mem_singleton, List.not_mem_nil,
    reduceCtorEq, Event.callbackUnwind.injEq] at he
  case unwind j f hd g hin =>
    subst he
    have hg : g = f.call.mutex := (hb.locals.at hin.loc).1 g hin.guard
    intro hok
    refine hok.notOwned _ _ (Function.update_self _ _ _) rfl ?_
    simp [State.Owns, ownerOf, State.threadOf, hg]

theorem Run.errBranchOk (h : Run cfg frontState data acts log s) {i : CallId}
    (hlog : .callbackUnwind i ∉ log) : s.ErrBranchOk cfg i := by
  have hb := h.basics
  have hat : ∀ {f pc}, s.frames i = some f → f.pc = pc → pc.isLive = true →
      pc.isUserCode = false → s.At i f pc := by
    rintro f pc hf rfl hlive huser
    exact hb.nested.at hf hlive huser
  refine ⟨fun f p hf hpc => h.unowned i f hf (by rw [hpc]; rfl) hlog, ?_, ?_⟩
  · intro f p hf hpc hfree
    exact (hat hf hpc rfl rfl).errLock_step hfree
  · intro f g p hf hpc
    refine (hat hf hpc rfl rfl).errHandOff_step fun t ht => ?_
    obtain ⟨l, -, hR⟩ := h.refines
    obtain ⟨f', hf', -⟩ := (hR.mem_ids_iff_pc t.state).mp
      (hR.mem_ids ht)
    rw [hf']
    rfl

/-- In every state of a run the `Err` branch of a call does what it should, if
and only if the callback of the call does not unwind in the run. -/
theorem err_branch_ok_iff (h : Run cfg frontState data acts log s)
    (i : CallId) :
    Run.Always cfg frontState data acts log s
        (fun _ s => s.ErrBranchOk cfg i) ↔
      .callbackUnwind i ∉ log := by
  constructor
  · intro halways he
    refine halways.of_passed (Machine.Exec.passed_after ?_ h he)
    intro acts log s a s' evs run _ hstep he
    exact (transition_of_step hstep).not_errBranchOk (Run.basics run) he
  · rintro hlog acts₁ log₁ s₁ acts₂ log₂ h₁ - - rfl
    exact Run.errBranchOk h₁ fun he => hlog (List.mem_append_left _ he)

/-- Call 0 finds the mutex poisoned, and its assertion unwinds. -/
def poisonedRun : List (Action Unit Nat Nat Nat) :=
  [.lock 0 1, .poison 1, .call 0 ⟨0, 1, .process 1 10⟩, .step 0, .step 0,
    .step 0, .step 0, .step 0, .step 0, .step 0]

/-- In `poisonedRun` the `Err` branch of call 0 does what it should. -/
theorem err_branch_ok_poisoned :
    Run.Always ⟨.default, false⟩ 0 (fun _ => ()) poisonedRun
      ((run ⟨.default, false⟩ 0 (fun _ => ()) poisonedRun).get (by decide)).2
      ((run ⟨.default, false⟩ 0 (fun _ => ()) poisonedRun).get (by decide)).1
      (fun _ s => s.ErrBranchOk ⟨.default, false⟩ 0) :=
  (err_branch_ok_iff (Run.of_run (by decide)) 0).mpr (by decide)

/-- The callback of call 0 unwinds. -/
def selfLockRun : List (Action Unit Nat Nat Nat) :=
  [.call 0 ⟨0, 1, .lockAndProcess 10⟩, .step 0, .step 0, .step 0, .step 0,
    .callback 0 .unwind]

/-- After `selfLockRun`, call 0 waits for a mutex that its own thread owns. -/
theorem err_branch_self_lock :
    ¬ ∀ (acts : List (Action Unit Nat Nat Nat)) (log : List (Event Nat Nat))
      (s : State Unit Nat Nat Nat),
      Run ⟨.default, false⟩ 0 (fun _ => ()) acts log s →
        ∀ i, s.ErrBranchOk ⟨.default, false⟩ i := by
  intro hall
  have hrun : Run ⟨.default, false⟩ 0 (fun _ => ()) selfLockRun _ _ :=
    Run.of_run (by decide)
  have hok := hall _ _ _ hrun 0
  refine hok.notOwned ⟨⟨0, 1, .lockAndProcess 10⟩, .new, .errLock .task⟩
    .task (by decide) rfl (by decide)

end ContentionQueue
