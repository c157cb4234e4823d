import ContentionQueue.Disguise
import ContentionQueue.Lib.Simulation
import ContentionQueue.StateByte

/-!
# `lock_and_process`

`lock_and_process` locks the mutex, calls `process` with the guard, and drops
the guard that `process` returns.  A caller could write these three steps out.
This module shows that nothing would change: the runs with `lock_and_process`
are the runs without it, in which the callers do so.

* `spelling` is the disguise of the calls as calls of `process`.  A call is not
  seen while it locks, and it is never seen when the lock turned it away.  It
  is seen to return when it drops the guard.
* `Transition.spelled` is the step lemma for all steps but four, and
  `spellOut_step` is the step lemma for all.
* `lock_and_process_spelled_out` is the result.
-/

namespace ContentionQueue

open Machines State

variable {M FS V R : Type} {cfg : Config} {s s' : State M FS V R}
  {a : Action M FS V R} {evs log : List (Event V R)}
  {acts : List (Action M FS V R)} {frontState : FS} {data : Addr → M}
  {i : CallId} {f : Frame V R}

/-! ## Calls of `process` in place of `lock_and_process` -/

/-- The call of `process` that `lock_and_process` makes. -/
def Call.spellOut (c : Call V) : Call V :=
  match c.method with
  | .lockAndProcess value => { c with method := .process c.mutex value }
  | _ => c

/-- The last block of a call with this outcome belongs to `lock_and_process`
alone. -/
def Outcome.isOwn : Outcome R → Bool
  | .returned _ => true
  | .unwound .poisonedLock => true
  | _ => false

/-- Before the call of `process` in `lock_and_process`, or turned away there by
a poisoned mutex. -/
def Pc.isLocking : Pc V R → Bool
  | .lock _ => true
  | .ending (.unwound .poisonedLock) => true
  | .done (.unwound .poisonedLock) => true
  | _ => false

/-- After the drop of the guard in `lock_and_process`, which follows the return
of `process`. -/
def Pc.hasReturned : Pc V R → Bool
  | .ending (.returned _) => true
  | _ => false

/-- Not before and not after the call of `process` in `lock_and_process`. -/
def Pc.isProcess (pc : Pc V R) : Bool :=
  !pc.isLocking && !pc.hasReturned

/-- Where the call of `process` is. -/
def Pc.spellOut : Pc V R → Pc V R
  | .ending (.returned result) => .done (.returned result)
  | pc => pc

theorem spellOut_thread (c : Call V) : c.spellOut.thread = c.thread := by
  unfold Call.spellOut
  split <;> rfl

theorem spellOut_mutex (c : Call V) : c.spellOut.mutex = c.mutex := by
  unfold Call.spellOut
  split <;> rfl

theorem spellOut_of_not_lock {c : Call V}
    (h : ∀ v, c.method ≠ .lockAndProcess v) : c.spellOut = c := by
  unfold Call.spellOut
  split
  · rename_i v hmethod
    exact absurd hmethod (h v)
  · rfl

theorem spellOut_clear (c : Call V) :
    c.spellOut.method = .clearQueuePoison ↔ c.method = .clearQueuePoison := by
  obtain ⟨thread, mutex, method⟩ := c
  cases method <;> simp [Call.spellOut]

theorem isProcess_of_plain {pc : Pc V R} (h : pc.isPlain = true) :
    pc.isProcess = true := by
  cases pc
  case ending outcome | done outcome =>
    rcases outcome with result | answer | p
    · first | rfl | cases h
    · rfl
    · cases p <;> first | rfl | cases h
  all_goals first | rfl | cases h

theorem isProcess_of_user {pc : Pc V R} (h : pc.isUserCode = true) :
    pc.isProcess = true := by
  cases pc <;> first | rfl | cases h

theorem isProcess_entry {m : Method V} (h : ∀ v, m ≠ .lockAndProcess v) :
    (m.entry : Pc V R).isProcess = true := by
  cases m
  case lockAndProcess v => exact absurd rfl (h v)
  all_goals rfl

theorem isProcess_ending {outcome : Outcome R} (h : outcome.isOwn = false) :
    (Pc.ending outcome : Pc V R).isProcess = true ∧
      (Pc.done outcome : Pc V R).isProcess = true := by
  rcases outcome with result | answer | p
  · cases h
  · exact ⟨rfl, rfl⟩
  · cases p <;> first | exact ⟨rfl, rfl⟩ | cases h

theorem spellOut_of_isProcess {pc : Pc V R} (h : pc.isProcess = true) :
    pc.isLocking = false ∧ pc.hasReturned = false ∧ pc.spellOut = pc := by
  unfold Pc.isProcess at h
  rw [Bool.and_eq_true, Bool.not_eq_true', Bool.not_eq_true'] at h
  refine ⟨h.1, h.2, ?_⟩
  unfold Pc.spellOut
  split
  · cases h.2
  · rfl

@[simp] theorem isLocking_notifyOne (pc : Pc V R) :
    pc.notifyOne.isLocking = pc.isLocking := by
  cases pc <;> rfl

@[simp] theorem hasReturned_notifyOne (pc : Pc V R) :
    pc.notifyOne.hasReturned = pc.hasReturned := by
  cases pc <;> rfl

@[simp] theorem spellOut_notifyOne (pc : Pc V R) :
    pc.notifyOne.spellOut = pc.spellOut.notifyOne := by
  cases pc
  case ending outcome => cases outcome <;> rfl
  all_goals rfl

/-- What is seen of a call of `lock_and_process`. -/
def Frame.spellOut (f : Frame V R) : Option (Frame V R) :=
  if f.pc.isLocking then none
  else some { f with call := f.call.spellOut, pc := f.pc.spellOut }

theorem Frame.spellOut_of_isProcess (h : f.pc.isProcess = true) :
    f.spellOut = some { f with call := f.call.spellOut } := by
  obtain ⟨hlocking, -, hpc⟩ := ContentionQueue.spellOut_of_isProcess h
  rw [Frame.spellOut, hlocking, hpc]
  rfl

theorem Frame.hasReturned_of_spellOut
    (h : f.spellOut = some { f with call := f.call.spellOut }) :
    f.pc.hasReturned = false := by
  obtain ⟨c, t, pc⟩ := f
  cases pc
  case ending outcome => cases outcome <;> first | rfl | cases h
  all_goals rfl

theorem Frame.spellOut_wake (f : Frame V R) (wake : TaskState → TaskState) :
    (f.wake wake).spellOut = f.spellOut.map (Frame.wake wake) := by
  unfold Frame.spellOut
  simp only [Frame.wake, isLocking_notifyOne, spellOut_notifyOne]
  split <;> rfl

/-- The disguise that spells `lock_and_process` out. -/
def spelling : Disguise V R where
  call := Call.spellOut
  frame := Frame.spellOut
  left := fun f => f.pc.hasReturned
  gone := fun _ _ => false
  thread_call := spellOut_thread
  mutex_call := spellOut_mutex
  process_call := fun hmethod => spellOut_of_not_lock fun v => by simp [hmethod]
  clear_call := spellOut_clear
  plain := fun _ hpc => Frame.spellOut_of_isProcess (isProcess_of_plain hpc)
  user := fun hpc => Frame.spellOut_of_isProcess (isProcess_of_user hpc)
  stays := Frame.hasReturned_of_spellOut
  left_wake := fun f _ => hasReturned_notifyOne f.pc

theorem spelling_shows (h : f.pc.isProcess = true) : spelling.Shows f :=
  Frame.spellOut_of_isProcess h

theorem spelling_hides (h : f.pc.isLocking = true) :
    spelling.frame f = none := by
  simp [spelling, Frame.spellOut, h]

/-- The state in which callers lock and unlock the mutex by themselves. -/
def State.spellOut (s : State M FS V R) : State M FS V R := s.disguise spelling

theorem without_none (m : Mutex M) : m.without (fun _ => false) = m := by
  have hguard : withoutGuard (fun _ => false) m.guard = m.guard := by
    unfold withoutGuard
    split
    · rename_i hm
      simp [hm]
    · rfl
  unfold Mutex.without
  rw [hguard]

@[simp] theorem spellOut_mutexes (s : State M FS V R) :
    s.spellOut.mutexes = s.mutexes := by
  funext b
  exact without_none _

theorem spellOut_setMutex (s : State M FS V R) (b : Addr) (m : Mutex M) :
    (s.setMutex b m).spellOut = s.spellOut.setMutex b m := by
  unfold State.spellOut
  rw [disguise_setMutex]
  congr 1
  exact without_none m

/-! ## What holds of every call -/

/-- The panic that a call passes on. -/
def Pc.passesOn? : Pc V R → Option Panic
  | .errLock p => some p
  | .errHandOff _ p => some p
  | .resumeUnwind _ p => some p
  | _ => none

/-- Only `lock_and_process` locks before `process`, and no call passes on the
panic of its lock. -/
structure Frame.LockOk (f : Frame V R) : Prop where
  method : ∀ v, f.pc = .lock v → f.call.method = .lockAndProcess v
  passesOn : f.pc.passesOn? ≠ some .poisonedLock

theorem lockOk_of_pc (hlock : ∀ v, f.pc ≠ .lock v)
    (hpass : f.pc.passesOn? ≠ some .poisonedLock) : f.LockOk where
  method := fun v hv => absurd hv (hlock v)
  passesOn := hpass

theorem Frame.LockOk.wake (h : f.LockOk) (wake : TaskState → TaskState) :
    (f.wake wake).LockOk := by
  obtain ⟨call, t, pc⟩ := f
  cases pc
  case asleep g =>
    exact lockOk_of_pc (by simp [Frame.wake, Pc.notifyOne])
      (by simp [Frame.wake, Pc.notifyOne, Pc.passesOn?])
  all_goals exact ⟨h.method, h.passesOn⟩

theorem lockOk_entry (c : Call V) :
    (⟨c, .new, c.method.entry⟩ : Frame V R).LockOk := by
  obtain ⟨thread, mutex, method⟩ := c
  cases method
  case lockAndProcess v =>
    refine ⟨fun w hw => ?_, by simp [Method.entry, Pc.passesOn?]⟩
    cases hw
    rfl
  all_goals
    exact lockOk_of_pc (by simp [Method.entry])
      (by simp [Method.entry, Pc.passesOn?])

theorem Transition.lockOk (ht : Transition cfg s a s' evs)
    (h : AllFrames Frame.LockOk s.frames) :
    AllFrames Frame.LockOk s'.frames := by
  have hmove : ∀ {i f pc pc'}, s.At i f pc → (∀ v, pc' ≠ .lock v) →
      pc'.passesOn? = pc.passesOn? →
        AllFrames Frame.LockOk (Function.update s.frames i
          (some { f with pc := pc' })) := by
    intro i f pc pc' hat hlock hpass
    refine h.update (lockOk_of_pc hlock ?_)
    rw [hpass, ← hat.pc]
    exact (h i f hat.frame).passesOn
  cases ht
  case callOther => exact h.update (lockOk_entry _)
  case handOff hat =>
    refine AllFrames.wakeNext ?_ fun _ hf => hf.wake _
    exact hmove hat (by simp) rfl
  case errHandOff hat =>
    refine AllFrames.wakeNext ?_ fun _ hf => hf.wake _
    exact hmove hat (by simp) rfl
  case errLock hat _ => exact hmove hat (by simp) rfl
  case peek | peekPanic | popNone | isQueuePoisoned | frontState |
      frontUnlocked | clearQueuePoison | mutexState | userLock | userUnlock |
      poison | clearPoison | releaseLeaked => exact h
  all_goals exact h.update (lockOk_of_pc (by simp) (by simp [Pc.passesOn?]))

/-- Only `lock_and_process` locks before `process`. -/
theorem Run.lockOk (run : Run cfg frontState data acts log s) :
    AllFrames Frame.LockOk s.frames := by
  induction run with
  | nil => simp [AllFrames, State.new]
  | snoc run _ hstep ih => exact (transition_of_step hstep).lockOk ih

/-! ## Steps that are the same -/

/-- The action does not belong to `lock_and_process` alone. -/
structure State.Spelled (s : State M FS V R) (a : Action M FS V R) : Prop where
  not_call : ∀ i c v, a = .call i c → c.method ≠ .lockAndProcess v
  not_lock : ∀ i f v, a = .step i → s.frames i = some f → f.pc ≠ .lock v
  returns : ∀ i f g r, a = .step i → s.frames i = some f →
    f.pc = .returning g r → ∃ guard v, f.call.method = .process guard v
  not_ending : ∀ i f outcome, a = .step i → s.frames i = some f →
    f.pc = .ending outcome → outcome.isOwn = false

/-- A call that makes a step is in `process`. -/
theorem Transition.isProcess_before (ht : Transition cfg s a s' evs)
    (hspelled : s.Spelled a) (hi : a.call? = some i)
    (hf : s.frames i = some f) : f.pc.isProcess = true := by
  cases ht <;> cases hi
  case callProcess hnew => cases hf.symm.trans hnew
  case callOther hnew => cases hf.symm.trans hnew
  case lock hat | lockPoisoned hat =>
    exact absurd (hat.pc_eq hf) (hspelled.not_lock _ _ _ rfl hf)
  case spuriousWake hpc hframe =>
    obtain rfl := Option.some.inj (hframe.symm.trans hf)
    rw [hpc]
    rfl
  case ending hat =>
    have hown := hspelled.not_ending _ _ _ rfl hf (hat.pc_eq hf)
    rw [hat.pc_eq hf]
    exact (isProcess_ending hown).1
  all_goals
    rename_i hat
    rw [hat.pc_eq hf]
    rfl

/-- A call that has made a step is in `process`. -/
theorem Transition.isProcess_after (ht : Transition cfg s a s' evs)
    (hspelled : s.Spelled a) (hok : AllFrames Frame.LockOk s.frames)
    (hi : a.call? = some i) (hf : s'.frames i = some f) :
    f.pc.isProcess = true := by
  have hsame : s.frames i = some f → f.pc.isProcess = true :=
    ht.isProcess_before hspelled hi
  cases ht <;> cases hi
  case callOther c _ _ _ =>
    obtain rfl := frame_of_update hf
    exact isProcess_entry (hspelled.not_call i c · rfl)
  case lock hat | lockPoisoned hat =>
    exact absurd hat.pc (hspelled.not_lock _ _ _ rfl hat.frame)
  case handOff | errHandOff =>
    rw [pc_of_handOff hf rfl]
    rfl
  case peek | peekPanic | popNone | isQueuePoisoned | frontState |
      frontUnlocked | clearQueuePoison | mutexState => exact hsame hf
  case resumeUnwind p hat =>
    obtain rfl := frame_of_update hf
    have hpass := (hok i _ hat.frame).passesOn
    rw [hat.pc] at hpass
    cases p
    case poisonedLock => exact absurd rfl hpass
    all_goals rfl
  case returnOther hmethod hat =>
    obtain ⟨guard, v, hprocess⟩ :=
      hspelled.returns _ _ _ _ rfl hat.frame hat.pc
    exact absurd hprocess (hmethod guard v)
  case ending hat =>
    obtain rfl := frame_of_update hf
    have hown := hspelled.not_ending _ _ _ rfl hat.frame hat.pc
    exact (isProcess_ending hown).2
  all_goals
    obtain rfl := frame_of_update hf
    rfl

/-- An event that is seen when the callers lock by themselves. -/
def Event.isSpelled : Event V R → Bool
  | .leave _ (.unwound .poisonedLock) => false
  | _ => true

theorem Transition.isSpelled_events (ht : Transition cfg s a s' evs)
    (hspelled : s.Spelled a) (hok : AllFrames Frame.LockOk s.frames) :
    evs.filter Event.isSpelled = evs := by
  cases ht
  case lockPoisoned hat _ _ _ =>
    exact absurd hat.pc (hspelled.not_lock _ _ _ rfl hat.frame)
  case resumeUnwind p hat =>
    have hpass := (hok _ _ hat.frame).passesOn
    rw [hat.pc] at hpass
    cases p
    case poisonedLock => exact absurd rfl hpass
    all_goals rfl
  all_goals rfl

/-- The callers make the steps that do not belong to `lock_and_process`
alone. -/
theorem Transition.spelled (ht : Transition cfg s a s' evs)
    (hspelled : s.Spelled a) (hok : AllFrames Frame.LockOk s.frames) :
    Transition cfg s.spellOut a s'.spellOut evs := by
  refine ht.disguise ⟨?_, ?_, ?_, ?_, ?_, ?_⟩
  · intro i f hi hf
    exact spelling_shows (ht.isProcess_before hspelled hi hf)
  · intro i f hi hf _
    exact spelling_shows (ht.isProcess_after hspelled hok hi hf)
  · intro i _ b
    rfl
  · intro i c hi
    have hmethod := (hspelled.not_call i c · hi)
    exact ⟨spellOut_of_not_lock hmethod,
      spelling_shows (isProcess_entry hmethod)⟩
  · intro i f g r hi hat
    obtain ⟨guard, v, hmethod⟩ := hspelled.returns i f g r hi hat.frame hat.pc
    exact spellOut_of_not_lock (by simp [hmethod])
  · intro i f _ _ j f' wake _ _
    exact f'.spellOut_wake wake

/-! ## The steps of `lock_and_process` -/

section Steps

variable {pc : Pc V R}

/-- A new call is on no thread. -/
theorem State.Nested.not_mem (h : s.Nested) (hnew : s.frames i = none)
    (t : ThreadId) : i ∉ s.threads t := by
  intro hi
  obtain ⟨k, hk, -⟩ := (h.mem t i).mp hi
  rw [kindOf, hnew] at hk
  cases hk

/-- A call is on its own thread only. -/
theorem State.Nested.not_mem_other (h : s.Nested) (hf : s.frames i = some f)
    {t : ThreadId} (ht : t ≠ f.call.thread) : i ∉ s.threads t := by
  intro hi
  obtain ⟨k, hk, hthread, -⟩ := (h.mem t i).mp hi
  rw [kindOf, hf, Option.map_some, Option.some.injEq] at hk
  rw [← hthread, ← hk] at ht
  exact ht rfl

/-- A call that runs is on its thread once. -/
theorem State.Nested.not_mem_tail (h : s.Nested) (hat : s.At i f pc) :
    i ∉ (s.threads f.call.thread).tail := by
  have hnodup := h.nodup f.call.thread
  obtain ⟨rest, hrest⟩ := threads_of_running hat.running
  rw [hrest] at hnodup ⊢
  exact (List.nodup_cons.mp hnodup).1

/-- The thread of a call that ends goes on in user code. -/
theorem State.Nested.inUserCode_finish (h : s.Nested) (hat : s.At i f pc)
    (outcome : Outcome R) :
    (s.finish i f outcome).inUserCode f.call.thread = true := by
  obtain ⟨rest, hrest⟩ := threads_of_running hat.running
  have hi := h.not_mem_tail hat
  rw [hrest, List.tail_cons] at hi
  unfold State.inUserCode
  simp only [finish_threads, finish_frames, Function.update_self, hrest,
    List.tail_cons]
  cases rest with
  | nil => rfl
  | cons j below =>
      have hj : j ≠ i := by
        rintro rfl
        exact hi List.mem_cons_self
      have hmem : j ∈ s.threads f.call.thread := by simp [hrest]
      obtain ⟨k, hk, -⟩ := (h.mem _ j).mp hmem
      have hcalls := h.below _ i (j :: below) hrest j List.mem_cons_self k hk
      obtain ⟨fj, hfj, rfl⟩ := Option.map_eq_some_iff.mp hk
      simpa [hj, hfj, Frame.kind] using hcalls

/-- `lock_and_process` is called, and the caller does nothing yet. -/
theorem spellOut_call {c : Call V} {v : V} (hb : s.Nested)
    (hnew : s.frames i = none) (hmethod : c.method = .lockAndProcess v) :
    (s.pushFrame i ⟨c, .new, c.method.entry⟩).spellOut = s.spellOut := by
  refine disguise_pushFrame_hidden hnew (hb.not_mem hnew) (spelling_hides ?_)
  rw [hmethod]
  rfl

/-- The lock turns a call away, and the caller does not call `process`. -/
theorem spellOut_turnedAway {v : V} (hat : s.At i f (.lock v)) :
    (s.goto i f (.ending (.unwound .poisonedLock))).spellOut = s.spellOut := by
  refine disguise_goto_hidden hat (spelling_hides ?_) (spelling_hides rfl)
  rw [hat.pc]
  rfl

/-- A call ends that is not seen. -/
theorem spellOut_finish (hat : s.At i f pc) (hpc : pc.isLocking = true) :
    (s.finish i f (.unwound .poisonedLock)).spellOut = s.spellOut := by
  refine disguise_finish_hidden hat (spelling_hides ?_) (spelling_hides rfl)
  rw [hat.pc, hpc]

/-- A call ends that has been seen to return. -/
theorem spellOut_finish_returned {r : ProcessResult R} (hb : s.Nested)
    (hat : s.At i f (.ending (.returned r))) :
    (s.finish i f (.returned r)).spellOut = s.spellOut := by
  obtain ⟨call, taskState, pc⟩ := f
  obtain rfl : pc = .ending (.returned r) := hat.pc
  exact disguise_finish_left hat (hb.not_mem_tail hat)
    (fun t ht => hb.not_mem_other hat.frame ht) rfl rfl

/-- `lock_and_process` locks: the caller locks and calls `process`. -/
theorem State.At.spelled_lock (cfg : Config) {v : V} (hb : s.Nested)
    (hat : s.At i f (.lock v)) (hmethod : f.call.method = .lockAndProcess v)
    (hnew : f.taskState = .new)
    (hfree : (s.mutexes f.call.mutex).guard = none) :
    ∃ t, Transition cfg s.spellOut (.lock f.call.thread f.call.mutex) t [] ∧
      Transition cfg t (.call i ⟨f.call.thread, f.call.mutex,
        .process f.call.mutex v⟩)
        ((s.setMutex f.call.mutex ((s.mutexes f.call.mutex).move
          (.call i))).goto i f (.assertMutexGood f.call.mutex v)).spellOut
        [] := by
  obtain ⟨⟨thread, b, method⟩, taskState, pc⟩ := f
  obtain rfl : method = .lockAndProcess v := hmethod
  obtain rfl : taskState = .new := hnew
  obtain rfl : pc = .lock v := hat.pc
  have huser : s.spellOut.inUserCode thread = true := by
    rw [← spellOut_finish hat rfl]
    exact inUserCode_disguise (hb.inUserCode_finish hat _)
  have hframe : s.spellOut.frames i = none := by
    rw [State.spellOut, disguise_frames, hat.frame]
    rfl
  refine ⟨s.spellOut.setMutex b ((s.mutexes b).move (.user thread)), ?_, ?_⟩
  · rw [← spellOut_mutexes] at hfree ⊢
    exact .userLock huser hfree
  · have hreveal : ((s.setMutex b ((s.mutexes b).move (.call i))).goto i _
        (.assertMutexGood b v)).spellOut =
        (s.setMutex b ((s.mutexes b).move (.call i))).spellOut.pushFrame i
          ⟨⟨thread, b, .process b v⟩, .new, .assertMutexGood b v⟩ :=
      disguise_goto_revealed (s := s.setMutex b _) (d := spelling)
        ⟨hat.frame, hat.running, hat.pc⟩ (hb.not_mem_tail hat)
        (fun t ht => hb.not_mem_other hat.frame ht) rfl
        (spelling_shows (f := ⟨⟨thread, b, .lockAndProcess v⟩, .new,
          .assertMutexGood b v⟩) rfl)
    rw [hreveal, spellOut_setMutex]
    have hcall : Transition cfg (s.spellOut.setMutex b
        ((s.mutexes b).move (.user thread)))
        (.call i ⟨thread, b, .process b v⟩) _ [] :=
      .callProcess hframe huser (by simp [Mutex.move])
    simpa [State.setMutex, State.pushFrame, Mutex.move] using hcall

/-- `lock_and_process` drops its guard: `process` returns, and the caller drops
the guard. -/
theorem State.At.spelled_return (cfg : Config) {g : Addr}
    {r : ProcessResult R} {v : V} (hb : s.Nested)
    (hat : s.At i f (.returning g r))
    (hmethod : f.call.method = .lockAndProcess v) :
    ∃ t, Transition cfg s.spellOut (.step i) t [.leave i (.returned r)] ∧
      Transition cfg t (.unlock f.call.thread g)
        ((s.setMutex g (s.mutexes g).unlock).goto i f
          (.ending (.returned r))).spellOut [] := by
  obtain ⟨⟨thread, b, method⟩, taskState, pc⟩ := f
  obtain rfl : method = .lockAndProcess v := hmethod
  obtain rfl : pc = .returning g r := hat.pc
  have hshows : spelling.Shows ⟨⟨thread, b, .lockAndProcess v⟩, taskState,
      .returning g r⟩ := spelling_shows rfl
  have hat' : s.spellOut.At i ⟨⟨thread, b, .process b v⟩, taskState,
      .returning g r⟩ (.returning g r) := hat.disguise hshows
  -- the caller sees the call end, now or when it ends
  have hleave : ((s.setMutex g (s.mutexes g).unlock).goto i
      ⟨⟨thread, b, .lockAndProcess v⟩, taskState, .returning g r⟩
        (.ending (.returned r))).spellOut =
      (s.spellOut.setMutex g (s.mutexes g).unlock).finish i
        ⟨⟨thread, b, .process b v⟩, taskState, .returning g r⟩
          (.returned r) := by
    rw [← spellOut_setMutex]
    exact disguise_goto_left ⟨hat.frame, hat.running, hat.pc⟩
      (hb.not_mem_tail hat) (fun t ht => hb.not_mem_other hat.frame ht) hshows
      rfl rfl
  have hfinish : ∀ m : Mutex M, ((s.setMutex g m).finish i
      ⟨⟨thread, b, .lockAndProcess v⟩, taskState, .returning g r⟩
        (.returned r)).spellOut =
      (s.spellOut.setMutex g m).finish i
        ⟨⟨thread, b, .process b v⟩, taskState, .returning g r⟩
          (.returned r) := by
    intro m
    rw [← spellOut_setMutex]
    exact disguise_finish ⟨hat.frame, hshows, spelling_shows rfl⟩ hat.running
  have huser := inUserCode_disguise (d := spelling) (hb.inUserCode_finish
    (s := s.setMutex g ((s.mutexes g).move (.user thread)))
      ⟨hat.frame, hat.running, hat.pc⟩ (.returned r))
  refine ⟨_, .returnProcess hat' rfl, ?_⟩
  change (State.spellOut _).inUserCode thread = true at huser
  rw [hfinish] at huser
  rw [hleave]
  have hunlock : Transition cfg _ (.unlock thread g) _ [] :=
    .userUnlock huser (by simp [Mutex.move])
  simpa [State.setMutex, State.finish, Mutex.move, Mutex.unlock] using hunlock

end Steps

/-! ## Runs -/

/-- Not a call of `lock_and_process`. -/
def Action.isSpelled : Action M FS V R → Bool
  | .call _ ⟨_, _, .lockAndProcess _⟩ => false
  | _ => true

theorem spellOut_new (frontState : FS) (data : Addr → M) :
    (State.new frontState data : State M FS V R).spellOut =
      State.new frontState data := rfl

/-- The callers go from one state to another without `lock_and_process`. -/
def SpelledExec (cfg : Config) (s : State M FS V R)
    (acts : List (Action M FS V R)) (log : List (Event V R))
    (s' : State M FS V R) : Prop :=
  (machine M FS V R cfg).Exec (fun _ a => a.Matched ∧ a.isSpelled = true) s acts
    log s'

theorem Transition.spelledExec (ht : Transition cfg s a s' evs)
    (ha : a.Matched ∧ a.isSpelled = true) : SpelledExec cfg s [a] evs s' :=
  .single ha (step_of_transition ht)

theorem SpelledExec.snoc {s₁ : State M FS V R} {b : Action M FS V R}
    (h : SpelledExec cfg s [b] log s₁) (ht : Transition cfg s₁ a s' evs)
    (ha : a.Matched ∧ a.isSpelled = true) :
    SpelledExec cfg s [b, a] (log ++ evs) s' :=
  Machine.Exec.snoc h ha (step_of_transition ht)

/-- What the callers do in place of an action. -/
inductive SpelledAs : Action M FS V R → List (Action M FS V R) → Prop
  | same (b : Action M FS V R) (hb : b.isSpelled = true) : SpelledAs b [b]
  | call (j : CallId) (t : ThreadId) (b : Addr) (v : V) :
      SpelledAs (.call j ⟨t, b, .lockAndProcess v⟩) []
  | lock (j : CallId) (t : ThreadId) (b : Addr) (v : V) :
      SpelledAs (.step j) [.lock t b, .call j ⟨t, b, .process b v⟩]
  | unseen (j : CallId) : SpelledAs (.step j) []
  | ret (j : CallId) (t : ThreadId) (b : Addr) :
      SpelledAs (.step j) [.step j, .unlock t b]

/-- A step is matched by the callers. -/
def SpelledStep (cfg : Config) (s : State M FS V R) (a : Action M FS V R)
    (s' : State M FS V R) (evs : List (Event V R)) : Prop :=
  ∃ part, SpelledAs a part ∧
    SpelledExec cfg s.spellOut part (evs.filter Event.isSpelled) s'.spellOut

/-- The guard of a poisoned mutex is dropped again. -/
theorem unlockPanicking_move {m : Mutex M} {p : Place} (hfree : m.guard = none)
    (hpoison : m.poisoned = true) : (m.move p).unlockPanicking = m := by
  obtain ⟨guard, poisoned, data⟩ := m
  cases hfree
  cases hpoison
  rfl

/-- A step at the lock is matched by a lock and a call, or by nothing. -/
theorem Transition.spelledStep_lock {v : V}
    (ht : Transition cfg s (.step i) s' evs) (hb : s.Nested)
    (hok : f.LockOk) (hbyte : f.ByteOk) (hf : s.frames i = some f)
    (hpc : f.pc = .lock v) : SpelledStep cfg s (.step i) s' evs := by
  have hmethod := hok.method v hpc
  have hnew := hbyte.fresh (by rw [hpc]; rfl)
  cases ht
  case lock w hfree hpoison hat =>
    obtain rfl := Option.some.inj (hat.frame.symm.trans hf)
    obtain rfl : w = v := by
      have hsame := hat.pc.symm.trans hpc
      cases hsame
      rfl
    obtain ⟨t, hlock, hcall⟩ := hat.spelled_lock cfg hb hmethod hnew hfree
    have hexec := (hlock.spelledExec ⟨trivial, rfl⟩).snoc hcall ⟨rfl, rfl⟩
    exact ⟨_, .lock .., hexec⟩
  case lockPoisoned f₀ w hfree hunwrap hpoison hat =>
    obtain rfl := Option.some.inj (hat.frame.symm.trans hf)
    have hmutex : ((s.mutexes f₀.call.mutex).move (.call i)).unlockPanicking =
        s.mutexes f₀.call.mutex :=
      unlockPanicking_move hfree hpoison
    have hat' : (s.setMutex f₀.call.mutex (s.mutexes f₀.call.mutex)).At i f₀
        (.lock w) := ⟨hat.frame, hat.running, hat.pc⟩
    refine ⟨[], .unseen i, ?_⟩
    rw [hmutex, spellOut_turnedAway hat', spellOut_setMutex, ← spellOut_mutexes]
    have hsame : s.spellOut.setMutex f₀.call.mutex
        (s.spellOut.mutexes f₀.call.mutex) = s.spellOut := by
      unfold State.setMutex
      rw [Function.update_eq_self]
    rw [hsame]
    exact .nil
  all_goals
    rename_i hat
    have hpc' := hat.pc_eq hf
    rw [hpc] at hpc'
    cases hpc'

/-- The drop of the guard in `lock_and_process` is matched by a return and an
unlock. -/
theorem Transition.spelledStep_return {g : Addr} {r : ProcessResult R} {v : V}
    (ht : Transition cfg s (.step i) s' evs) (hb : s.Nested)
    (hf : s.frames i = some f) (hpc : f.pc = .returning g r)
    (hmethod : f.call.method = .lockAndProcess v) :
    SpelledStep cfg s (.step i) s' evs := by
  cases ht
  case returnProcess hprocess hat =>
    obtain rfl := Option.some.inj (hat.frame.symm.trans hf)
    cases hmethod.symm.trans hprocess
  case returnOther r hother hat =>
    obtain rfl := Option.some.inj (hat.frame.symm.trans hf)
    obtain ⟨t, hreturn, hunlock⟩ := hat.spelled_return cfg hb hmethod
    have hexec := (hreturn.spelledExec ⟨trivial, rfl⟩).snoc hunlock
      ⟨trivial, rfl⟩
    exact ⟨_, .ret .., hexec⟩
  all_goals
    rename_i hat
    have hpc' := hat.pc_eq hf
    rw [hpc] at hpc'
    cases hpc'

/-- The end of `lock_and_process`, after the drop of the guard, is matched by
nothing. -/
theorem Transition.spelledStep_ending {outcome : Outcome R}
    (ht : Transition cfg s (.step i) s' evs) (hb : s.Nested)
    (hf : s.frames i = some f) (hpc : f.pc = .ending outcome)
    (hown : outcome.isOwn = true) : SpelledStep cfg s (.step i) s' evs := by
  refine ⟨[], .unseen i, ?_⟩
  cases ht
  case ending f' o hat =>
    obtain rfl : f' = f := Option.some.inj (hat.frame.symm.trans hf)
    obtain rfl : o = outcome := Pc.ending.inj (hat.pc.symm.trans hpc)
    have hsame : (s.finish i f' o).spellOut = s.spellOut := by
      rcases o with result | answer | p
      · exact spellOut_finish_returned hb hat
      · cases hown
      · cases p
        case poisonedLock => exact spellOut_finish hat rfl
        all_goals cases hown
    rw [hsame]
    exact .nil
  all_goals
    rename_i hat
    have hpc' := hat.pc_eq hf
    rw [hpc] at hpc'
    cases hpc'

/-- The step lemma: a step of `lock_and_process` alone is matched by no step or
by two steps of the caller, and every other step by itself. -/
theorem spellOut_step (run : Run cfg frontState data acts log s)
    (hmatched : a.Matched) (hstep : step cfg s a = some (s', evs)) :
    SpelledStep cfg s a s' evs := by
  have ht : Transition cfg s a s' evs := transition_of_step hstep
  have hb := run.basics.nested
  have hok := run.lockOk
  by_cases hcall : ∃ i c v, a = .call i c ∧ c.method = .lockAndProcess v
  · obtain ⟨i, ⟨t, b, method⟩, v, rfl, rfl⟩ := hcall
    cases ht
    case callOther hnew _ _ =>
      refine ⟨[], .call .., ?_⟩
      rw [spellOut_call hb hnew rfl]
      exact .nil
  by_cases hlock : ∃ i f v, a = .step i ∧ s.frames i = some f ∧ f.pc = .lock v
  · obtain ⟨i, f, v, rfl, hf, hpc⟩ := hlock
    exact ht.spelledStep_lock hb (hok i f hf) (Run.byteOk run i f hf) hf hpc
  by_cases hreturn : ∃ i f g r v, a = .step i ∧ s.frames i = some f ∧
      f.pc = .returning g r ∧ f.call.method = .lockAndProcess v
  · obtain ⟨i, f, g, r, v, rfl, hf, hpc, hmethod⟩ := hreturn
    exact ht.spelledStep_return hb hf hpc hmethod
  by_cases hending : ∃ i f outcome, a = .step i ∧ s.frames i = some f ∧
      f.pc = .ending outcome ∧ outcome.isOwn = true
  · obtain ⟨i, f, outcome, rfl, hf, hpc, hown⟩ := hending
    exact ht.spelledStep_ending hb hf hpc hown
  have hspelled : s.Spelled a := by
    refine ⟨?_, ?_, ?_, ?_⟩
    · intro i c v ha hmethod
      exact hcall ⟨i, c, v, ha, hmethod⟩
    · intro i f v ha hf hpc
      exact hlock ⟨i, f, v, ha, hf, hpc⟩
    · intro i f g r ha hf hpc
      have hok : f.pc.Ok s.mutexAddress f.call := run.basics.locals i f hf
      rw [hpc] at hok
      have hvalue := hok.2.2
      cases hmethod : f.call.method with
      | process guard v => exact ⟨guard, v, rfl⟩
      | lockAndProcess v =>
          exact (hreturn ⟨i, f, g, r, v, ha, hf, hpc, hmethod⟩).elim
      | isQueuePoisoned | clearQueuePoison =>
          rw [hmethod] at hvalue
          cases hvalue
    · intro i f outcome ha hf hpc
      rw [Bool.eq_false_iff]
      exact fun hown => hending ⟨i, f, outcome, ha, hf, hpc, hown⟩
  have hisSpelled : a.isSpelled = true := by
    unfold Action.isSpelled
    split
    · exact absurd rfl (hspelled.not_call _ _ _ rfl)
    · rfl
  refine ⟨[a], .same a hisSpelled, ?_⟩
  rw [ht.isSpelled_events hspelled hok]
  exact (ht.spelled hspelled hok).spelledExec ⟨hmatched, hisSpelled⟩

/-- `lock_and_process` is `process` between a lock and a drop of the guard.
For every run there is a run without calls of `lock_and_process`, in which the
callers lock, call `process` and drop the guard, and everything else is done as
before.  It shows the same events, up to the panics of `lock_and_process` at a
poisoned mutex, and it ends in the same state, where the calls that have passed
the lock are calls of `process`, which have returned when they have dropped the
guard. -/
theorem lock_and_process_spelled_out
    (h : Run cfg frontState data acts log s) :
    ∃ parts, List.Forall₂ SpelledAs acts parts ∧
      Run cfg frontState data parts.flatten (log.filter Event.isSpelled)
        s.spellOut ∧
      ∀ i c v, .call i c ∈ parts.flatten → c.method ≠ .lockAndProcess v := by
  obtain ⟨parts, hparts, hrun⟩ := Machine.Exec.simulates State.spellOut
    Event.isSpelled SpelledAs spellOut_step h
  rw [spellOut_new] at hrun
  refine ⟨parts, hparts, hrun.mono fun _ _ h => h.1, ?_⟩
  intro i c v hmem hmethod
  have hspelled := hrun.forall_mem (P := fun a => a.isSpelled = true)
    (fun _ _ h => h.2) _ hmem
  obtain ⟨thread, mutex, method⟩ := c
  cases hmethod
  cases hspelled

/-- Call 0 of `handOverRun` is a call of `process` in the matching run. -/
theorem lock_and_process_spelled_out_handOver :
    let r := (run ⟨.default, false⟩ 0 (fun _ => ())
      handOverRun).get (by decide)
    (r.1.spellOut.frames 0).map Frame.call = some ⟨0, 1, .process 1 10⟩ ∧
      ∃ parts, List.Forall₂ SpelledAs handOverRun parts ∧
        Run ⟨.default, false⟩ 0 (fun _ => ()) parts.flatten
          (r.2.filter Event.isSpelled) r.1.spellOut ∧
        ∀ i c v, .call i c ∈ parts.flatten → c.method ≠ .lockAndProcess v :=
  ⟨by decide, lock_and_process_spelled_out (Run.of_run (by decide))⟩

end ContentionQueue
