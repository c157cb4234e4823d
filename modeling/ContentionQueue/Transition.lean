import ContentionQueue.System

/-!
# What one action can do

`Transition` lists the cases of `step`, one constructor for each block of the
source and each result of the block.  Every constructor gives the guards that
the action needs and the state and the events that it leaves.
`transition_of_step` is the inversion of `step`: the later modules split a
step with it and do not unfold `step` again.  `step_of_transition` is the
converse, for a proof that has to show a step.

The last section splits `wakeNext` and reads off what it leaves alone.
-/

namespace ContentionQueue

open Machines State

variable {M FS V R : Type} {cfg : Config} {s s' : State M FS V R}

/-- Call `i` runs and stands at `pc`. -/
structure State.At (s : State M FS V R) (i : CallId) (f : Frame V R)
    (pc : Pc V R) : Prop where
  frame : s.frames i = some f
  running : s.running i f = true
  pc : f.pc = pc

/-- Call `i` runs user code of its callback, outside `unlocked`, and the slots
of its handle are initialised. -/
structure State.InCallback (s : State M FS V R) (i : CallId) (f : Frame V R)
    (h : QueueHandle) (g : Addr) : Prop where
  loc : s.At i f (.callback h)
  guard : h.guard = some g
  mutexExclusiveGuard : h.mutexExclusiveGuard = true

/-- The cases of `step`. -/
inductive Transition (cfg : Config) (s : State M FS V R) :
    Action M FS V R → State M FS V R → List (Event V R) → Prop where
  -- calls
  | callProcess {i thread mutex guard value}
      (hnew : s.frames i = none) (huser : s.inUserCode thread = true)
      (hguard : (s.mutexes guard).guard = some (.user thread)) :
      Transition cfg s (.call i ⟨thread, mutex, .process guard value⟩)
        ((s.pushFrame i ⟨⟨thread, mutex, .process guard value⟩, .new,
          .assertMutexGood guard value⟩).setMutex guard
            ((s.mutexes guard).move (.call i))) []
  | callOther {i c} (hnew : s.frames i = none)
      (huser : s.inUserCode c.thread = true)
      (hmethod : ∀ guard value, c.method ≠ .process guard value) :
      Transition cfg s (.call i c)
        (s.pushFrame i ⟨c, .new, c.method.entry⟩) []
  -- `lock_and_process`
  | lock {i f value} (hat : s.At i f (.lock value))
      (hfree : (s.mutexes f.call.mutex).guard = none)
      (hpoison : cfg.options.unwrapMutexPoison = true →
        (s.mutexes f.call.mutex).poisoned = false) :
      Transition cfg s (.step i)
        ((s.setMutex f.call.mutex ((s.mutexes f.call.mutex).move
          (.call i))).goto i f (.assertMutexGood f.call.mutex value)) []
  | lockPoisoned {i f value} (hat : s.At i f (.lock value))
      (hfree : (s.mutexes f.call.mutex).guard = none)
      (hunwrap : cfg.options.unwrapMutexPoison = true)
      (hpoison : (s.mutexes f.call.mutex).poisoned = true) :
      Transition cfg s (.step i)
        ((s.setMutex f.call.mutex ((s.mutexes f.call.mutex).move
          (.call i)).unlockPanicking).goto i f
            (.ending (.unwound .poisonedLock)))
        [.leave i (.unwound .poisonedLock)]
  -- `process`
  | mutexGood {i f g value} (hat : s.At i f (.assertMutexGood g value))
      (hgood : s.mutexAddress = 0 ∨ s.mutexAddress = f.call.mutex) :
      Transition cfg s (.step i)
        ((s.setMutexAddress f.call.mutex).goto i f
          (.tryAcquireFrontFast g value)) [.mutexGood i]
  | mutexMismatch {i f g value} (hat : s.At i f (.assertMutexGood g value))
      (hbad : s.mutexAddress ≠ 0 ∧ s.mutexAddress ≠ f.call.mutex) :
      Transition cfg s (.step i)
        ((s.setMutex g (s.mutexes g).unlockPanicking).goto i f
          (.ending (.unwound .mutexMismatch)))
        [.leave i (.unwound .mutexMismatch)]
  | flip {i f g value} (hat : s.At i f (.tryAcquireFrontFast g value))
      (hlocked : s.mutexExclusive.frontLocked = false) :
      Transition cfg s (.step i)
        ((s.setExclusive { s.mutexExclusive with frontLocked := true }).goto i
          f (.assertMutexUnpoisoned g value)) [.flip i value]
  | contended {i f g value} (hat : s.At i f (.tryAcquireFrontFast g value))
      (hlocked : s.mutexExclusive.frontLocked = true) :
      Transition cfg s (.step i)
        (s.setFrame i { f with taskState := .new, pc := .pushBack g value }) []
  | push {i f g value} (hat : s.At i f (.pushBack g value)) :
      Transition cfg s (.step i)
        ((s.setExclusive (s.mutexExclusive.pushBack ⟨i, some value⟩)).goto
          i f (.wait g)) [.push i value]
  | wait {i f g} (hat : s.At i f (.wait g)) :
      Transition cfg s (.step i)
        ((s.setMutex g (s.mutexes g).unlock).goto i f (.asleep g)) []
  | relock {i f g} (hat : s.At i f (.relock g))
      (hfree : (s.mutexes g).guard = none) :
      Transition cfg s (.step i)
        ((s.setMutex g ((s.mutexes g).move (.call i))).goto i f
          (.testFront g)) []
  | testFront {i f g} (hat : s.At i f (.testFront g))
      (hfront : f.taskState.isFront = true) :
      Transition cfg s (.step i)
        (s.goto i f (.popFront g f.taskState.isPanic)) []
  | testNotFront {i f g} (hat : s.At i f (.testFront g))
      (hfront : f.taskState.isFront = false) :
      Transition cfg s (.step i) (s.goto i f (.wait g)) []
  | popFront {i f g processingPanicked result x}
      (hat : s.At i f (.popFront g processingPanicked))
      (hpop : s.mutexExclusive.popFront processingPanicked =
        some (result, x)) :
      Transition cfg s (.step i)
        ((s.setExclusive x).goto i f (.assertQueueGood g result)) [.popFront i]
  | popNothing {i f g processingPanicked}
      (hat : s.At i f (.popFront g processingPanicked))
      (hpop : s.mutexExclusive.queue = []) :
      Transition cfg s (.step i) (s.goto i f (.undefined (some g))) []
  | queuePoisoned {i f g result} (hat : s.At i f (.assertQueueGood g result))
      (hunwrap : cfg.options.unwrapQueuePoison = true)
      (hpoison : s.mutexExclusive.queuePoisoned = true) :
      Transition cfg s (.step i)
        ((s.setMutex g (s.mutexes g).unlockPanicking).goto i f
          (.errLock .queuePoisoned))
        [.assertFailed i .queuePoisoned result.value?]
  | resultProcess {i f g value}
      (hat : s.At i f (.assertQueueGood g (.process value)))
      (hgood : cfg.options.unwrapQueuePoison = true →
        s.mutexExclusive.queuePoisoned = false) :
      Transition cfg s (.step i)
        (s.goto i f (.assertMutexUnpoisoned g value)) []
  | resultElsewhere {i f g}
      (hat : s.At i f (.assertQueueGood g .processedElsewhere))
      (hgood : cfg.options.unwrapQueuePoison = true →
        s.mutexExclusive.queuePoisoned = false) :
      Transition cfg s (.step i)
        (s.goto i f (.handOff g .processedElsewhere)) []
  | resultPanicked {i f g}
      (hat : s.At i f (.assertQueueGood g .processingPanicked))
      (hgood : cfg.options.unwrapQueuePoison = true →
        s.mutexExclusive.queuePoisoned = false) :
      Transition cfg s (.step i)
        (s.goto i f (.handOff g .processingPanicked)) []
  | mutexPoisoned {i f g value}
      (hat : s.At i f (.assertMutexUnpoisoned g value))
      (hunwrap : cfg.options.unwrapMutexPoison = true)
      (hpoison : (s.mutexes f.call.mutex).poisoned = true) :
      Transition cfg s (.step i)
        ((s.setMutex g (s.mutexes g).unlockPanicking).goto i f
          (.errLock .mutexPoisoned))
        [.assertFailed i .mutexPoisoned (some value)]
  | startCallback {i f g value}
      (hat : s.At i f (.assertMutexUnpoisoned g value))
      (hgood : cfg.options.unwrapMutexPoison = true →
        (s.mutexes f.call.mutex).poisoned = false) :
      Transition cfg s (.step i)
        (s.goto i f (.callback (.new g))) [.callback i value]
  | reLock {i f h} (hat : s.At i f (.reLock h))
      (hfree : (s.mutexes f.call.mutex).guard = none) :
      Transition cfg s (.step i)
        ((s.setMutex f.call.mutex ((s.mutexes f.call.mutex).move
          (.call i))).goto i f (.callback (h.restore f.call.mutex))) []
  | handOff {i f g result} (hat : s.At i f (.handOff g result)) :
      Transition cfg s (.step i)
        ((s.goto i f (.returning g result)).wakeNext
          TaskState.wakeFrontTask) []
  | returnProcess {i f g result guard value}
      (hat : s.At i f (.returning g result))
      (hmethod : f.call.method = .process guard value) :
      Transition cfg s (.step i)
        ((s.setMutex g ((s.mutexes g).move (.user f.call.thread))).finish i f
          (.returned result)) [.leave i (.returned result)]
  | returnOther {i f g result} (hat : s.At i f (.returning g result))
      (hmethod : ∀ guard value, f.call.method ≠ .process guard value) :
      Transition cfg s (.step i)
        ((s.setMutex g (s.mutexes g).unlock).goto i f
          (.ending (.returned result)))
        [.leave i (.returned result)]
  | errLock {i f p} (hat : s.At i f (.errLock p))
      (hfree : (s.mutexes f.call.mutex).guard = none) :
      Transition cfg s (.step i)
        ((s.setMutex f.call.mutex ((s.mutexes f.call.mutex).move
          (.call i))).goto i f (.errHandOff f.call.mutex p)) []
  | errHandOff {i f g p} (hat : s.At i f (.errHandOff g p)) :
      Transition cfg s (.step i)
        (((s.setExclusive { s.mutexExclusive with
          queuePoisoned := true }).goto i f (.resumeUnwind g p)).wakeNext
            TaskState.wakeFrontTaskPanicking) []
  | resumeUnwind {i f g p} (hat : s.At i f (.resumeUnwind g p)) :
      Transition cfg s (.step i)
        ((s.setMutex g (s.mutexes g).unlock).goto i f
          (.ending (.unwound p)))
        [.leave i (.unwound p)]
  -- `is_queue_poisoned` and `clear_queue_poison`
  | queryGood {i f} (hat : s.At i f .queryAssert)
      (hgood : s.mutexAddress = 0 ∨ s.mutexAddress = f.call.mutex) :
      Transition cfg s (.step i)
        ((s.setMutexAddress f.call.mutex).goto i f .queryLock)
        [.mutexGood i]
  | queryMismatch {i f} (hat : s.At i f .queryAssert)
      (hbad : s.mutexAddress ≠ 0 ∧ s.mutexAddress ≠ f.call.mutex) :
      Transition cfg s (.step i) (s.finish i f (.unwound .mutexMismatch))
        [.leave i (.unwound .mutexMismatch)]
  | queryLock {i f} (hat : s.At i f .queryLock)
      (hfree : (s.mutexes f.call.mutex).guard = none) :
      Transition cfg s (.step i)
        ((s.setMutex f.call.mutex ((s.mutexes f.call.mutex).move
          (.call i))).goto i f (.queryAccess f.call.mutex)) []
  | queryClear {i f g} (hat : s.At i f (.queryAccess g))
      (hmethod : f.call.method = .clearQueuePoison) :
      Transition cfg s (.step i)
        ((s.setExclusive { s.mutexExclusive with
          queuePoisoned := false }).goto i f (.queryReturn g none)) []
  | queryRead {i f g} (hat : s.At i f (.queryAccess g))
      (hmethod : f.call.method ≠ .clearQueuePoison) :
      Transition cfg s (.step i)
        (s.goto i f (.queryReturn g (some s.mutexExclusive.queuePoisoned))) []
  | queryReturn {i f g answer} (hat : s.At i f (.queryReturn g answer)) :
      Transition cfg s (.step i)
        ((s.setMutex g (s.mutexes g).unlock).goto i f
          (.ending (.answered answer)))
        [.leave i (.answered answer)]
  | ending {i f outcome} (hat : s.At i f (.ending outcome)) :
      Transition cfg s (.step i) (s.finish i f outcome) []
  -- the callback
  | peek {i f h g value} (hin : s.InCallback i f h g)
      (hpeek : h.peek s.mutexExclusive = .ok value) :
      Transition cfg s (.callback i .peek) s [.peek i value]
  | peekPanic {i f h g p} (hin : s.InCallback i f h g)
      (hpeek : h.peek s.mutexExclusive = .error p) :
      Transition cfg s (.callback i .peek) s []
  | pop {i f h g owner value} (hin : s.InCallback i f h g)
      (htask : s.mutexExclusive.queue[h.nextIdx]? =
        some ⟨owner, some value⟩) :
      Transition cfg s (.callback i .pop)
        ((s.setExclusive { s.mutexExclusive with
          queue := s.mutexExclusive.queue.set h.nextIdx ⟨owner, none⟩ }).goto
            i f (.callback { h with nextIdx := h.nextIdx + 1 }))
        [.pop i owner value]
  | popPanic {i f h g owner} (hin : s.InCallback i f h g)
      (htask : s.mutexExclusive.queue[h.nextIdx]? = some ⟨owner, none⟩) :
      Transition cfg s (.callback i .pop)
        ((s.setExclusive { s.mutexExclusive with
          queue := s.mutexExclusive.queue.set h.nextIdx ⟨owner, none⟩ }).goto
            i f (.callback { h with nextIdx := h.nextIdx + 1 })) []
  | popNone {i f h g} (hin : s.InCallback i f h g)
      (htask : s.mutexExclusive.queue[h.nextIdx]? = none) :
      Transition cfg s (.callback i .pop) s [.popNone i]
  | isQueuePoisoned {i f h g} (hin : s.InCallback i f h g) :
      Transition cfg s (.callback i .isQueuePoisoned) s
        [.isQueuePoisoned i s.mutexExclusive.queuePoisoned]
  | mutexState {i f h g data} (hin : s.InCallback i f h g) :
      Transition cfg s (.callback i (.mutexState data))
        (s.setMutex g { s.mutexes g with data := data }) []
  | frontState {i f h g frontState} (hin : s.InCallback i f h g) :
      Transition cfg s (.callback i (.frontState frontState))
        (s.setFrontState frontState) []
  | frontUnlocked {i f h frontState} (hat : s.At i f (.unlocked h)) :
      Transition cfg s (.callback i (.frontState frontState))
        (s.setFrontState frontState) []
  | clearQueuePoison {i f h g} (hin : s.InCallback i f h g) :
      Transition cfg s (.callback i .clearQueuePoison)
        (s.setExclusive { s.mutexExclusive with queuePoisoned := false }) []
  | unlocked {i f h g} (hin : s.InCallback i f h g) :
      Transition cfg s (.callback i .unlocked)
        ((s.setMutex g (s.mutexes g).unlock).goto i f (.unlocked h.release)) []
  | endUnlocked {i f h} (hat : s.At i f (.unlocked h)) :
      Transition cfg s (.callback i .endUnlocked)
        (s.goto i f (.reLock h)) []
  | ret {i f h g r} (hin : s.InCallback i f h g) :
      Transition cfg s (.callback i (.ret r))
        (s.goto i f (.handOff g (.processed r))) [.callbackReturn i r]
  | unwind {i f h g} (hin : s.InCallback i f h g) :
      Transition cfg s (.callback i .unwind)
        ((s.setMutex g ((s.mutexes g).move (.leaked i))).goto i f
          (.errLock .task)) [.callbackUnwind i]
  | uninit {i f h op} (hat : s.At i f (.callback h))
      (hslot : h.guard = none ∨ h.mutexExclusiveGuard = false) :
      Transition cfg s (.callback i op) (s.goto i f (.undefined h.guard)) []
  -- the environment
  | spuriousWake {i f g} (hframe : s.frames i = some f)
      (hpc : f.pc = .asleep g) :
      Transition cfg s (.spuriousWake i) (s.goto i f (.relock g)) []
  | userLock {t a} (huser : s.inUserCode t = true)
      (hfree : (s.mutexes a).guard = none) :
      Transition cfg s (.lock t a)
        (s.setMutex a ((s.mutexes a).move (.user t))) []
  | userUnlock {t a} (huser : s.inUserCode t = true)
      (hguard : (s.mutexes a).guard = some (.user t)) :
      Transition cfg s (.unlock t a) (s.setMutex a (s.mutexes a).unlock) []
  | poison {a} :
      Transition cfg s (.poison a)
        (s.setMutex a { s.mutexes a with poisoned := true }) []
  | clearPoison {a} :
      Transition cfg s (.clearPoison a)
        (s.setMutex a { s.mutexes a with poisoned := false }) []
  | releaseLeaked {a i} (hcfg : cfg.leakReleased = true)
      (hguard : (s.mutexes a).guard = some (.leaked i)) :
      Transition cfg s (.releaseLeaked a)
        (s.setMutex a (s.mutexes a).unlock) []

/-! ## The hand-off -/

theorem wakeNext_nil (s : State M FS V R) (wake : TaskState → TaskState)
    (h : s.mutexExclusive.queue = []) :
    s.wakeNext wake =
      s.setExclusive { s.mutexExclusive with frontLocked := false } := by
  unfold wakeNext
  rw [h]

theorem wakeNext_cons (s : State M FS V R) (wake : TaskState → TaskState)
    {t : Task V} {rest : List (Task V)}
    (h : s.mutexExclusive.queue = t :: rest) :
    s.wakeNext wake = { s with
      frames := Function.update s.frames t.state
        ((s.frames t.state).map (Frame.wake wake)) } := by
  unfold wakeNext
  rw [h]

@[simp] theorem wakeNext_mutexes (s : State M FS V R)
    (wake : TaskState → TaskState) :
    (s.wakeNext wake).mutexes = s.mutexes := by
  unfold wakeNext
  split <;> rfl

@[simp] theorem wakeNext_threads (s : State M FS V R)
    (wake : TaskState → TaskState) :
    (s.wakeNext wake).threads = s.threads := by
  unfold wakeNext
  split <;> rfl

@[simp] theorem wakeNext_mutexAddress (s : State M FS V R)
    (wake : TaskState → TaskState) :
    (s.wakeNext wake).mutexAddress = s.mutexAddress := by
  unfold wakeNext
  split <;> rfl

@[simp] theorem wakeNext_frontExclusive (s : State M FS V R)
    (wake : TaskState → TaskState) :
    (s.wakeNext wake).frontExclusive = s.frontExclusive := by
  unfold wakeNext
  split <;> rfl

@[simp] theorem wakeNext_queue (s : State M FS V R)
    (wake : TaskState → TaskState) :
    (s.wakeNext wake).mutexExclusive.queue = s.mutexExclusive.queue := by
  unfold wakeNext
  split <;> rfl

@[simp] theorem wakeNext_queuePoisoned (s : State M FS V R)
    (wake : TaskState → TaskState) :
    (s.wakeNext wake).mutexExclusive.queuePoisoned =
      s.mutexExclusive.queuePoisoned := by
  unfold wakeNext
  split <;> rfl

/-- A hand-off touches the frame of the call at the head of the queue only. -/
theorem wakeNext_frame (s : State M FS V R) (wake : TaskState → TaskState)
    (i : CallId) : (s.wakeNext wake).frames i = s.frames i ∨
      ∃ t rest, s.mutexExclusive.queue = t :: rest ∧ t.state = i ∧
        (s.wakeNext wake).frames i = (s.frames i).map (Frame.wake wake) := by
  cases hq : s.mutexExclusive.queue with
  | nil =>
      rw [wakeNext_nil s wake hq]
      exact Or.inl rfl
  | cons t rest =>
      rw [wakeNext_cons s wake hq]
      rcases eq_or_ne i t.state with rfl | hi
      · exact Or.inr ⟨t, rest, rfl, rfl, Function.update_self _ _ _⟩
      · exact Or.inl (Function.update_of_ne hi _ _)

/-- A hand-off leaves a frame alone or wakes it. -/
theorem wakeNext_frames (s : State M FS V R) (wake : TaskState → TaskState)
    (i : CallId) :
    (s.wakeNext wake).frames i = s.frames i ∨
      (s.wakeNext wake).frames i = (s.frames i).map (Frame.wake wake) := by
  rcases wakeNext_frame s wake i with hsame | ⟨-, -, -, -, hwoken⟩
  · exact Or.inl hsame
  · exact Or.inr hwoken

/-- What a hand-off leaves of a function of the frames that a wake-up does not
change. -/
theorem wakeNext_map {β : Type} (p : Frame V R → β)
    (wake : TaskState → TaskState) (hp : ∀ f, p (f.wake wake) = p f)
    (s : State M FS V R) (i : CallId) :
    ((s.wakeNext wake).frames i).map p = (s.frames i).map p := by
  rcases wakeNext_frames s wake i with h | h <;> rw [h]
  rw [Option.map_map]
  congr 1
  funext f
  exact hp f

/-! ## The inversion of `step` -/

theorem transition_of_stepFrame {i : CallId} {f : Frame V R}
    {evs : List (Event V R)} (hframe : s.frames i = some f)
    (hrun : s.running i f = true)
    (h : stepFrame cfg s i f = some (s', evs)) :
    Transition cfg s (.step i) s' evs := by
  have hat : s.At i f f.pc := ⟨hframe, hrun, rfl⟩
  unfold stepFrame at h
  cases hpc : f.pc <;> rw [hpc] at hat <;> simp only [hpc] at h
  case lock value =>
    split at h
    · cases h
    · rename_i m hlock
      obtain ⟨hfree, rfl⟩ := Mutex.lock_eq_some.mp hlock
      split at h <;> rename_i hp <;> cases h
      · exact .lock hat hfree (unwrapPoison_eq_ok.mp hp)
      · obtain ⟨⟨hu, hm⟩, rfl⟩ := unwrapPoison_eq_error.mp hp
        exact .lockPoisoned hat hfree hu hm
  case assertMutexGood g value =>
    split at h <;> rename_i hgood <;> cases h
    · obtain ⟨hsame, rfl⟩ := assertMutexGood_eq_ok.mp hgood
      exact .mutexGood hat hsame
    · obtain ⟨hbad, rfl⟩ := assertMutexGood_eq_error.mp hgood
      exact .mutexMismatch hat hbad
  case tryAcquireFrontFast g value =>
    unfold MutexExclusive.tryAcquireFrontFast at h
    split_ifs at h with hlocked <;> cases h
    · exact .contended hat hlocked
    · exact .flip hat (by simpa using hlocked)
  case pushBack g value =>
    cases h
    exact .push hat
  case wait g =>
    cases h
    exact .wait hat
  case asleep g => cases h
  case relock g =>
    split at h
    · cases h
    · rename_i m hlock
      obtain ⟨hfree, rfl⟩ := Mutex.lock_eq_some.mp hlock
      cases h
      exact .relock hat hfree
  case testFront g =>
    split_ifs at h with hfront <;> cases h
    · exact .testFront hat hfront
    · exact .testNotFront hat (by simpa using hfront)
  case popFront g processingPanicked =>
    split at h <;> rename_i hpop <;> cases h
    · exact .popNothing hat (MutexExclusive.popFront_eq_none.mp hpop)
    · exact .popFront hat hpop
  case assertQueueGood g result =>
    split at h <;> rename_i hgood
    · cases h
      obtain ⟨⟨hu, hq⟩, rfl⟩ := assertQueueGood_eq_error.mp hgood
      exact .queuePoisoned hat hu hq
    · have hgood := assertQueueGood_eq_ok.mp hgood
      cases result <;> cases h
      · exact .resultProcess hat hgood
      · exact .resultElsewhere hat hgood
      · exact .resultPanicked hat hgood
  case assertMutexUnpoisoned g value =>
    split at h <;> rename_i hgood <;> cases h
    · obtain ⟨⟨hu, hm⟩, rfl⟩ := assertMutexUnpoisoned_eq_error.mp hgood
      exact .mutexPoisoned hat hu hm
    · exact .startCallback hat (assertMutexUnpoisoned_eq_ok.mp hgood)
  case callback hd => cases h
  case unlocked hd => cases h
  case reLock hd =>
    split at h
    · cases h
    · rename_i m hlock
      obtain ⟨hfree, rfl⟩ := Mutex.lock_eq_some.mp hlock
      cases h
      exact .reLock hat hfree
  case handOff g result =>
    cases h
    exact .handOff hat
  case returning g result =>
    split at h <;> rename_i hmethod <;> cases h
    · exact .returnProcess hat hmethod
    · exact .returnOther hat hmethod
  case errLock p =>
    split at h
    · cases h
    · rename_i m hlock
      obtain ⟨hfree, rfl⟩ := Mutex.lock_eq_some.mp hlock
      cases h
      exact .errLock hat hfree
  case errHandOff g p =>
    cases h
    exact .errHandOff hat
  case resumeUnwind g p =>
    cases h
    exact .resumeUnwind hat
  case queryAssert =>
    split at h <;> rename_i hgood <;> cases h
    · obtain ⟨hsame, rfl⟩ := assertMutexGood_eq_ok.mp hgood
      exact .queryGood hat hsame
    · obtain ⟨hbad, rfl⟩ := assertMutexGood_eq_error.mp hgood
      exact .queryMismatch hat hbad
  case queryLock =>
    split at h
    · cases h
    · rename_i m hlock
      obtain ⟨hfree, rfl⟩ := Mutex.lock_eq_some.mp hlock
      cases h
      exact .queryLock hat hfree
  case queryAccess g =>
    split at h <;> rename_i hmethod <;> cases h
    · exact .queryClear hat hmethod
    · exact .queryRead hat hmethod
  case queryReturn g answer =>
    cases h
    exact .queryReturn hat
  case ending outcome =>
    cases h
    exact .ending hat
  case done outcome => cases h
  case undefined guard => cases h

theorem transition_of_stepCallback {i : CallId} {f : Frame V R}
    {hd : QueueHandle} {op : CallbackOp M FS R} {evs : List (Event V R)}
    (hat : s.At i f (.callback hd))
    (h : stepCallback s i f hd op = some (s', evs)) :
    Transition cfg s (.callback i op) s' evs := by
  unfold stepCallback at h
  split at h
  · rename_i g hguard hslot
    have hin : s.InCallback i f hd g := ⟨hat, hguard, hslot⟩
    cases op <;> simp only at h
    case peek =>
      split at h <;> rename_i hpeek <;> cases h
      · exact .peek hin hpeek
      · exact .peekPanic hin hpeek
    case pop =>
      unfold QueueHandle.pop Task.take at h
      cases htask : s.mutexExclusive.queue[hd.nextIdx]? with
      | none =>
          simp only [htask] at h
          cases h
          exact .popNone hin htask
      | some nextTask =>
          obtain ⟨owner, value⟩ := nextTask
          cases value with
          | none =>
              simp only [htask] at h
              cases h
              exact .popPanic hin htask
          | some value =>
              simp only [htask] at h
              cases h
              exact .pop hin htask
    case mutexState data =>
      cases h
      exact .mutexState hin
    case frontState frontState =>
      cases h
      exact .frontState hin
    case isQueuePoisoned =>
      cases h
      exact .isQueuePoisoned hin
    case clearQueuePoison =>
      cases h
      exact .clearQueuePoison hin
    case unlocked =>
      cases h
      exact .unlocked hin
    case endUnlocked => cases h
    case ret r =>
      cases h
      exact .ret hin
    case unwind =>
      cases h
      exact .unwind hin
  · rename_i hslot
    cases h
    refine .uninit hat ?_
    cases hguard : hd.guard with
    | none => exact Or.inl rfl
    | some g => exact Or.inr (by simpa using hslot g hguard)

/-- Every step is one of the cases of `Transition`. -/
theorem transition_of_step {a : Action M FS V R} {evs : List (Event V R)}
    (h : step cfg s a = some (s', evs)) : Transition cfg s a s' evs := by
  cases a <;> simp only [step] at h
  case call i c =>
    split_ifs at h with hcond
    simp only [Bool.and_eq_true, Option.isNone_iff_eq_none] at hcond
    obtain ⟨hnew, huser⟩ := hcond
    obtain ⟨thread, mutex, method⟩ := c
    unfold State.startCall at h
    cases method with
    | process guard value =>
        simp only at h
        split_ifs at h with hguard
        · cases h
          exact .callProcess hnew huser hguard
        · cases h
    | lockAndProcess value =>
        cases h
        exact .callOther hnew huser (by simp)
    | isQueuePoisoned =>
        cases h
        exact .callOther hnew huser (by simp)
    | clearQueuePoison =>
        cases h
        exact .callOther hnew huser (by simp)
  case step i =>
    split at h
    · rename_i f hframe
      split_ifs at h with hrun
      exact transition_of_stepFrame hframe hrun h
    · cases h
  case callback i op =>
    split at h
    · rename_i f hframe
      split_ifs at h with hrun
      split at h
      · rename_i hd op hpc
        exact transition_of_stepCallback ⟨hframe, hrun, hpc⟩ h
      · rename_i hd frontState hpc
        cases h
        exact .frontUnlocked ⟨hframe, hrun, hpc⟩
      · rename_i hd hpc
        cases h
        exact .endUnlocked ⟨hframe, hrun, hpc⟩
      · cases h
    · cases h
  case spuriousWake i =>
    split at h
    · rename_i f hframe
      split at h
      · rename_i g hpc
        cases h
        exact .spuriousWake hframe hpc
      · cases h
    · cases h
  case lock t a =>
    split_ifs at h with huser
    split at h
    · cases h
    · rename_i m hlock
      obtain ⟨hfree, rfl⟩ := Mutex.lock_eq_some.mp hlock
      cases h
      exact .userLock huser hfree
  case unlock t a =>
    split_ifs at h with hcond
    simp only [Bool.and_eq_true, decide_eq_true_eq] at hcond
    cases h
    exact .userUnlock hcond.1 hcond.2
  case poison a =>
    cases h
    exact .poison
  case clearPoison a =>
    cases h
    exact .clearPoison
  case releaseLeaked a =>
    split at h
    · rename_i i hcfg hguard
      cases h
      exact .releaseLeaked hcfg hguard
    · cases h

/-! ## The steps of the cases -/

/-- The step of a running call is its next block. -/
theorem State.At.step_eq {i : CallId} {f : Frame V R} {pc : Pc V R}
    (hat : s.At i f pc) :
    step cfg s (.step i) = stepFrame cfg s i f := by
  simp only [step, hat.frame, hat.running, if_true]

/-- The step of a callback is the operation on its handle. -/
theorem State.InCallback.step_eq {i : CallId} {f : Frame V R}
    {h : QueueHandle} {g : Addr} (hin : s.InCallback i f h g)
    (op : CallbackOp M FS R) :
    step cfg s (.callback i op) = stepCallback s i f h op := by
  simp only [step, hin.loc.frame, hin.loc.running, hin.loc.pc, if_true]

/-- Every case of `Transition` is a step. -/
theorem step_of_transition {a : Action M FS V R} {evs : List (Event V R)}
    (ht : Transition cfg s a s' evs) : step cfg s a = some (s', evs) := by
  cases ht
  case callProcess hnew huser hguard =>
    simp only [step, startCall, hnew, huser, hguard]
    rfl
  case callOther i c hnew huser hmethod =>
    obtain ⟨thread, mutex, method⟩ := c
    cases method
    case process guard value => exact absurd rfl (hmethod guard value)
    all_goals
      simp only [step, startCall, hnew, huser]
      rfl
  case endUnlocked hat | frontUnlocked hat =>
    simp only [step, hat.frame, hat.running, hat.pc, if_true]
  case uninit h op hat hslot =>
    simp only [step, hat.frame, hat.running, hat.pc, if_true, stepCallback]
    split
    · rename_i hguard hexclusive
      simp [hguard, hexclusive] at hslot
    · rfl
  case spuriousWake hframe hpc => simp only [step, hframe, hpc]
  case userLock huser hfree => simp [step, huser, Mutex.lock, Mutex.move, hfree]
  case userUnlock huser hguard => simp [step, huser, hguard]
  case releaseLeaked hcfg hguard => simp [step, hcfg, hguard]
  case poison | clearPoison => rfl
  case peek hin hpeek | peekPanic hin hpeek =>
    simp [hin.step_eq, stepCallback, hin.guard, hin.mutexExclusiveGuard, hpeek]
  case pop hin htask | popPanic hin htask | popNone hin htask =>
    simp [hin.step_eq, stepCallback, hin.guard, hin.mutexExclusiveGuard,
      QueueHandle.pop, Task.take, htask]
  case isQueuePoisoned hin | mutexState hin | frontState hin |
      clearQueuePoison hin | unlocked hin | ret hin | unwind hin =>
    simp [hin.step_eq, stepCallback, hin.guard, hin.mutexExclusiveGuard]
  case lock i f value hat hfree hpoison =>
    have hlock : (s.mutexes f.call.mutex).lock (.call i) = some _ :=
      Mutex.lock_eq_some.mpr ⟨hfree, rfl⟩
    have hok : unwrapPoison _ _ = .ok () := unwrapPoison_eq_ok.mpr hpoison
    simp only [hat.step_eq, stepFrame, hat.pc, hlock, Mutex.poisoned_move, hok]
  case lockPoisoned hat hfree hunwrap hpoison =>
    simp [hat.step_eq, stepFrame, hat.pc, Mutex.lock, Mutex.move, hfree,
      unwrapPoison, hunwrap, hpoison]
  case relock hat hfree | reLock hat hfree | errLock hat hfree |
      queryLock hat hfree =>
    simp [hat.step_eq, stepFrame, hat.pc, Mutex.lock, Mutex.move, hfree]
  case mutexGood hat hgood | queryGood hat hgood =>
    have hok := assertMutexGood_eq_ok.mpr ⟨hgood, rfl⟩
    simp only [hat.step_eq, stepFrame, hat.pc, hok]
  case mutexMismatch hat hbad | queryMismatch hat hbad =>
    have herror := assertMutexGood_eq_error.mpr ⟨hbad, rfl⟩
    simp only [hat.step_eq, stepFrame, hat.pc, herror]
  case flip hat hlocked | contended hat hlocked =>
    simp [hat.step_eq, stepFrame, hat.pc, MutexExclusive.tryAcquireFrontFast,
      hlocked, setExclusive]
  case testFront hat hfront | testNotFront hat hfront =>
    simp [hat.step_eq, stepFrame, hat.pc, hfront]
  case popFront hat hpop =>
    simp [hat.step_eq, stepFrame, hat.pc, hpop]
  case popNothing hat hpop =>
    simp [hat.step_eq, stepFrame, hat.pc, MutexExclusive.popFront, hpop]
  case queuePoisoned hat hunwrap hpoison =>
    simp [hat.step_eq, stepFrame, hat.pc, assertQueueGood, hunwrap, hpoison]
  case resultProcess hat hgood | resultElsewhere hat hgood |
      resultPanicked hat hgood =>
    have hok : assertQueueGood _ _ = .ok () := assertQueueGood_eq_ok.mpr hgood
    simp only [hat.step_eq, stepFrame, hat.pc, hok]
  case mutexPoisoned hat hunwrap hpoison =>
    simp [hat.step_eq, stepFrame, hat.pc, assertMutexUnpoisoned, hunwrap,
      hpoison]
  case startCallback hat hgood =>
    have hok : assertMutexUnpoisoned _ _ = .ok () :=
      assertMutexUnpoisoned_eq_ok.mpr hgood
    simp only [hat.step_eq, stepFrame, hat.pc, hok]
  case returnProcess hat hmethod =>
    simp only [hat.step_eq, stepFrame, hat.pc, hmethod]
  case returnOther hat hmethod =>
    simp only [hat.step_eq, stepFrame, hat.pc]
  case queryClear hat hmethod =>
    simp only [hat.step_eq, stepFrame, hat.pc, hmethod]
  case queryRead hat hmethod =>
    simp only [hat.step_eq, stepFrame, hat.pc]
  case push hat | wait hat | handOff hat | errHandOff hat | resumeUnwind hat |
      queryReturn hat | ending hat =>
    simp only [hat.step_eq, stepFrame, hat.pc]

/-! ## The other calls -/

/-- The events of an action are events of its call. -/
theorem Transition.call_of_event {a : Action M FS V R} {evs : List (Event V R)}
    (ht : Transition cfg s a s' evs) {e : Event V R} (he : e ∈ evs) :
    a.call? = some e.call := by
  cases ht <;> simp only [List.not_mem_nil, List.mem_singleton] at he <;>
    (subst he; rfl)

/-- The frame that an update puts in place. -/
theorem frame_of_update {frames : CallId → Option (Frame V R)} {i : CallId}
    {x f : Frame V R} (h : Function.update frames i (some x) i = some f) :
    x = f := by
  rw [Function.update_self] at h
  exact Option.some.inj h

/-- The frame that a hand-off leaves in place. -/
theorem frame_of_wakeNext {wake : TaskState → TaskState} {i : CallId}
    {f : Frame V R} (h : (s.wakeNext wake).frames i = some f) :
    ∃ f₀, s.frames i = some f₀ ∧ (f = f₀ ∨ f = f₀.wake wake) := by
  rcases wakeNext_frames s wake i with hsame | hwoken
  · exact ⟨f, hsame ▸ h, .inl rfl⟩
  · rw [hwoken] at h
    obtain ⟨f₀, hf₀, rfl⟩ := Option.map_eq_some_iff.mp h
    exact ⟨f₀, hf₀, .inr rfl⟩

/-- The program counter of a call that hands the front over. -/
theorem pc_of_handOff {wake : TaskState → TaskState} {i : CallId}
    {f f' : Frame V R} {pc : Pc V R}
    (hf' : ((s.goto i f pc).wakeNext wake).frames i = some f')
    (hpc : pc.notifyOne = pc) : f'.pc = pc := by
  obtain ⟨f₀, hf₀, hwoken⟩ := frame_of_wakeNext hf'
  obtain rfl := frame_of_update hf₀
  rcases hwoken with rfl | rfl
  · rfl
  · exact hpc

/-- The program counter of a running call. -/
theorem State.At.pc_eq {i : CallId} {f f' : Frame V R} {pc : Pc V R}
    (hat : s.At i f pc) (hf' : s.frames i = some f') : f'.pc = pc := by
  rw [hat.frame, Option.some.injEq] at hf'
  rw [← hf', hat.pc]

/-- The program counter of a callback. -/
theorem State.InCallback.pc_eq {i : CallId} {f f' : Frame V R}
    {h : QueueHandle} {g : Addr} (hin : s.InCallback i f h g)
    (hf' : s.frames i = some f') : f'.pc = .callback h :=
  hin.loc.pc_eq hf'

/-- What an action does to the frame of another call: it wakes the call at the
head of the queue, or leaves the frame in place. -/
theorem Transition.woken {a : Action M FS V R} {evs : List (Event V R)}
    (ht : Transition cfg s a s' evs) {o : CallId} (ho : a.call? ≠ some o) :
    s'.frames o = s.frames o ∨
      ∃ i f t rest, a = .step i ∧ s.mutexExclusive.queue = t :: rest ∧
        t.state = o ∧
        ((∃ g r, s.At i f (.handOff g r) ∧ s'.frames o =
            (s.frames o).map (Frame.wake TaskState.wakeFrontTask)) ∨
          ∃ g p, s.At i f (.errHandOff g p) ∧
            s'.mutexExclusive.queuePoisoned = true ∧ s'.frames o =
              (s.frames o).map
                (Frame.wake TaskState.wakeFrontTaskPanicking)) := by
  have hne : ∀ {i : CallId} {x : Option (Frame V R)}, some i ≠ some o →
      Function.update s.frames i x o = s.frames o :=
    fun hi => Function.update_of_ne (fun heq => hi (by rw [heq])) _ _
  cases ht
  case handOff i f g result hat =>
    rcases wakeNext_frame (s.goto i f (.returning g result))
      TaskState.wakeFrontTask o with hsame | ⟨t, rest, hq, hstate, hwoken⟩
    · exact Or.inl (hsame.trans (hne ho))
    · rw [goto_frames, hne ho] at hwoken
      exact Or.inr ⟨i, f, t, rest, rfl, hq, hstate, .inl ⟨g, result, hat, hwoken⟩⟩
  case errHandOff i f g p hat =>
    rcases wakeNext_frame ((s.setExclusive { s.mutexExclusive with
      queuePoisoned := true }).goto i f (.resumeUnwind g p))
      TaskState.wakeFrontTaskPanicking o with
      hsame | ⟨t, rest, hq, hstate, hwoken⟩
    · exact Or.inl (hsame.trans (hne ho))
    · rw [goto_frames, setExclusive_frames, hne ho] at hwoken
      refine Or.inr ⟨i, f, t, rest, rfl, hq, hstate, .inr ⟨g, p, hat, ?_, hwoken⟩⟩
      rw [wakeNext_queuePoisoned]
      rfl
  all_goals first | exact Or.inl rfl | exact Or.inl (hne ho)

/-- Another call is left alone or woken. -/
theorem Transition.other {a : Action M FS V R} {evs : List (Event V R)}
    (ht : Transition cfg s a s' evs) {j : CallId} (hj : a.call? ≠ some j) :
    s'.frames j = s.frames j ∨
      ∃ wake, s'.frames j = (s.frames j).map (Frame.wake wake) := by
  rcases ht.woken hj with hsame | ⟨_, _, _, _, -, -, -, hwoken⟩
  · exact Or.inl hsame
  · rcases hwoken with ⟨_, _, -, hwoken⟩ | ⟨_, _, -, -, hwoken⟩
    · exact Or.inr ⟨_, hwoken⟩
    · exact Or.inr ⟨_, hwoken⟩

/-- A call that an action is not about was there before. -/
theorem Transition.frame_before {a : Action M FS V R}
    {evs : List (Event V R)} (ht : Transition cfg s a s' evs) {j : CallId}
    (hj : a.call? ≠ some j) {f : Frame V R} (hf : s'.frames j = some f) :
    ∃ f₀, s.frames j = some f₀ ∧ f.call = f₀.call ∧
      (f.pc = f₀.pc ∨ f.pc = f₀.pc.notifyOne) := by
  rcases ht.other hj with hsame | ⟨wake, hwoken⟩
  · exact ⟨f, hsame ▸ hf, rfl, Or.inl rfl⟩
  · rw [hwoken] at hf
    obtain ⟨f₀, hf₀, rfl⟩ := Option.map_eq_some_iff.mp hf
    exact ⟨f₀, hf₀, rfl, Or.inr rfl⟩

/-- What an action of another call leaves of the program counter, up to a
wake-up. -/
theorem Transition.pc_before {a : Action M FS V R} {evs : List (Event V R)}
    (ht : Transition cfg s a s' evs) {j : CallId} (hj : a.call? ≠ some j)
    {f : Frame V R} (hf : s'.frames j = some f) {q : Pc V R → Prop}
    (hq : ∀ pc : Pc V R, q pc.notifyOne → q pc) (h : q f.pc) :
    ∃ f₀, s.frames j = some f₀ ∧ f.call = f₀.call ∧ q f₀.pc := by
  obtain ⟨f₀, hf₀, hcall, hsame | hwoken⟩ := ht.frame_before hj hf
  · exact ⟨f₀, hf₀, hcall, hsame ▸ h⟩
  · exact ⟨f₀, hf₀, hcall, hq _ (hwoken ▸ h)⟩

/-- A call that an action is not about is there afterwards. -/
theorem Transition.frame_after {a : Action M FS V R}
    {evs : List (Event V R)} (ht : Transition cfg s a s' evs) {j : CallId}
    (hj : a.call? ≠ some j) {f : Frame V R} (hf : s.frames j = some f) :
    ∃ f', s'.frames j = some f' ∧ f'.call = f.call ∧
      (f'.pc = f.pc ∨ f'.pc = f.pc.notifyOne) := by
  rcases ht.other hj with hsame | ⟨wake, hwoken⟩
  · exact ⟨f, hsame.trans hf, rfl, Or.inl rfl⟩
  · exact ⟨f.wake wake, by rw [hwoken, hf]; rfl, rfl, Or.inr rfl⟩

/-- A frame that was not there is the frame of a call that was started. -/
theorem Transition.eq_call {a : Action M FS V R} {evs : List (Event V R)}
    (ht : Transition cfg s a s' evs) {i : CallId} {f : Frame V R}
    (hold : s.frames i = none) (hf : s'.frames i = some f) :
    a = .call i f.call := by
  have hi : a.call? = some i := by
    by_contra hi
    obtain ⟨f₀, hf₀, -⟩ := ht.frame_before hi hf
    cases hold.symm.trans hf₀
  cases ht <;> cases hi
  case callProcess =>
    obtain rfl := frame_of_update hf
    rfl
  case callOther =>
    obtain rfl := frame_of_update hf
    rfl
  case spuriousWake hframe => cases hold.symm.trans hframe
  all_goals
    rename_i hloc
    first
    | cases hold.symm.trans hloc.frame
    | cases hold.symm.trans hloc.loc.frame

/-- The rule for a property of each call and the events so far.  The calls
that an action is not about keep it when it survives the events of other calls
and a wake-up, and what is left is the call that the action is about. -/
theorem Transition.forall_frames {a : Action M FS V R}
    {evs log : List (Event V R)} (ht : Transition cfg s a s' evs)
    {P : List (Event V R) → CallId → Frame V R → Prop}
    (h : ∀ i f, s.frames i = some f → P log i f)
    (hmono : ∀ i f, P log i f → (∀ e ∈ evs, e.call ≠ i) →
      P (log ++ evs) i f)
    (hwake : ∀ i f wake, P (log ++ evs) i f → P (log ++ evs) i (f.wake wake))
    (hself : ∀ i f, a.call? = some i → s'.frames i = some f →
      P (log ++ evs) i f) :
    ∀ i f, s'.frames i = some f → P (log ++ evs) i f := by
  intro i f hf
  by_cases hi : a.call? = some i
  · exact hself i f hi hf
  have hevs : ∀ e ∈ evs, e.call ≠ i := by
    rintro e he rfl
    exact hi (ht.call_of_event he)
  rcases ht.other hi with hsame | ⟨wake, hwoken⟩
  · exact hmono i f (h i f (hsame ▸ hf)) hevs
  · rw [hwoken] at hf
    obtain ⟨f₀, hf₀, rfl⟩ := Option.map_eq_some_iff.mp hf
    exact hwake i f₀ wake (hmono i f₀ (h i f₀ hf₀) hevs)

theorem isSome_wakeNext (s : State M FS V R) (wake : TaskState → TaskState)
    (i : CallId) :
    ((s.wakeNext wake).frames i).isSome = (s.frames i).isSome := by
  rcases wakeNext_frames s wake i with h | h <;> rw [h]
  exact Option.isSome_map

/-- The call of an action has a frame afterwards. -/
theorem Transition.isSome_call {a : Action M FS V R} {evs : List (Event V R)}
    (ht : Transition cfg s a s' evs) {i : CallId} (hi : a.call? = some i) :
    (s'.frames i).isSome = true := by
  have hat : ∀ {j f pc}, s.At j f pc → (s.frames j).isSome = true := by
    intro j f pc hat
    rw [hat.frame]
    rfl
  have hin : ∀ {j f h g}, s.InCallback j f h g →
      (s.frames j).isSome = true := fun hin => hat hin.loc
  cases ht <;> cases hi <;>
    first
    | exact hin (by assumption)
    | exact hat (by assumption)
    | simp [isSome_wakeNext]

/-- A call keeps its frame. -/
theorem Transition.isSome {a : Action M FS V R} {evs : List (Event V R)}
    (ht : Transition cfg s a s' evs) {i : CallId}
    (h : (s.frames i).isSome = true) : (s'.frames i).isSome = true := by
  by_cases hi : a.call? = some i
  · exact ht.isSome_call hi
  rcases ht.other hi with hsame | ⟨wake, hwoken⟩
  · rwa [hsame]
  · rwa [hwoken, Option.isSome_map]

/-- Only the `Err` branch sets `queue_poisoned`, and only the two ways to
clear the queue poison clear it. -/
theorem Transition.queuePoisoned_cases {a : Action M FS V R}
    {evs : List (Event V R)} (ht : Transition cfg s a s' evs) :
    s'.mutexExclusive.queuePoisoned = s.mutexExclusive.queuePoisoned ∨
      (s'.mutexExclusive.queuePoisoned = true ∧
        ∃ i f g p, a = .step i ∧ s.At i f (.errHandOff g p)) ∨
      s'.mutexExclusive.queuePoisoned = false ∧
        ((∃ i f g, a = .step i ∧ s.At i f (.queryAccess g) ∧
            f.call.method = .clearQueuePoison) ∨
          ∃ i f hd g, a = .callback i .clearQueuePoison ∧
            s.InCallback i f hd g) := by
  cases ht
  case errHandOff hat =>
    rw [wakeNext_queuePoisoned]
    exact .inr (.inl ⟨rfl, _, _, _, _, rfl, hat⟩)
  case queryClear hat hmethod =>
    exact .inr (.inr ⟨rfl, .inl ⟨_, _, _, rfl, hat, hmethod⟩⟩)
  case clearQueuePoison hin =>
    exact .inr (.inr ⟨rfl, .inr ⟨_, _, _, _, rfl, hin⟩⟩)
  case handOff => exact .inl (wakeNext_queuePoisoned _ _)
  case popFront hpop =>
    obtain ⟨t, -, -, hx⟩ := MutexExclusive.popFront_eq_some hpop
    rw [hx]
    exact .inl rfl
  all_goals exact .inl rfl

/-- Every event is an event of a call that was started. -/
theorem Run.isSome_of_event {frontState : FS} {data : Addr → M}
    {acts : List (Action M FS V R)} {log : List (Event V R)}
    (h : Run cfg frontState data acts log s) :
    ∀ e ∈ log, (s.frames e.call).isSome = true := by
  refine Machine.Exec.invariant
    (I := fun log s => ∀ e ∈ log, (s.frames e.call).isSome = true)
    (by simp) ?_ h
  intro log s a s' evs hI _ hstep e he
  have ht := transition_of_step hstep
  rcases List.mem_append.mp he with he | he
  · exact ht.isSome (hI e he)
  · exact ht.isSome_call (ht.call_of_event he)

end ContentionQueue
