import ContentionQueue.Transition
import ContentionQueue.Lib.Locks
import ContentionQueue.Lib.Stacks

/-!
# Guards, threads and local variables

Four invariants of the machine say what a frame can rely on before anything is
known about the queue.

* `owners`.  The mutexes and the frames agree about who has which guard, so a
  mutex has one owner.
* `nested`.  The threads are the stacks of their live calls.
* `slots`.  The slots of a handle are initialised in the callback, and not in
  `unlocked`.
* `locals`, when no `process` call with a wrong guard gets past
  `assert_mutex_good`.  After it a guard is of the mutex that the call was
  given, and that mutex is the registered one.

`Basics` collects them and `Transition.basics` is their step lemma.  It holds
along the runs without wrong guards, `GuardedRun`, and the runs of matched calls
are among them (`Run.guarded`).  Two calls that have passed `assert_mutex_good`
cannot have a guard at the same time (`Basics.exclusive`), which is the mutual
exclusion that every later invariant rests on.
-/

namespace ContentionQueue

open Machines State

variable {M FS V R : Type} {cfg : Config} {s s' : State M FS V R}
  {a : Action M FS V R} {evs : List (Event V R)}

/-! ## Views of a state -/

/-- A call that has not ended. -/
def Pc.isLive : Pc V R → Bool
  | .done _ => false
  | _ => true

/-- A frame as its thread sees it. -/
def Frame.kind (f : Frame V R) : Stacks.Kind ThreadId where
  thread := f.call.thread
  live := f.pc.isLive
  calls := f.pc.isUserCode

/-- Where the guard of each mutex is. -/
def State.guardAt (s : State M FS V R) (a : Addr) : Option Place :=
  (s.mutexes a).guard

/-- The guard of each call. -/
def State.guardOf (s : State M FS V R) (i : CallId) : Option Addr :=
  (s.frames i).bind fun f => f.pc.guard?

/-- The kind of each call. -/
def State.kindOf (s : State M FS V R) (i : CallId) :
    Option (Stacks.Kind ThreadId) :=
  (s.frames i).map Frame.kind

theorem place_call_injective : Function.Injective Place.call :=
  fun _ _ h => Place.call.inj h

@[simp] theorem guard?_notifyOne (pc : Pc V R) :
    pc.notifyOne.guard? = pc.guard? := by
  cases pc <;> rfl

@[simp] theorem isLive_notifyOne (pc : Pc V R) :
    pc.notifyOne.isLive = pc.isLive := by
  cases pc <;> rfl

@[simp] theorem isUserCode_notifyOne (pc : Pc V R) :
    pc.notifyOne.isUserCode = pc.isUserCode := by
  cases pc <;> rfl

@[simp] theorem kind_wake (wake : TaskState → TaskState) (f : Frame V R) :
    (f.wake wake).kind = f.kind := by
  simp [Frame.kind, Frame.wake]

theorem guardOf_eq_map (s : State M FS V R) (i : CallId) :
    s.guardOf i = ((s.frames i).map fun f => f.pc.guard?).join := by
  unfold guardOf
  cases s.frames i <;> rfl

@[simp] theorem guardAt_setMutex (s : State M FS V R) (a : Addr)
    (m : Mutex M) :
    (s.setMutex a m).guardAt = Function.update s.guardAt a m.guard := by
  funext b
  rcases eq_or_ne b a with rfl | hb
  · simp [guardAt]
  · simp [guardAt, hb]

@[simp] theorem update_guardAt (s : State M FS V R) (a : Addr) :
    Function.update s.guardAt a (s.mutexes a).guard = s.guardAt :=
  Function.update_eq_self a _

@[simp] theorem guardAt_setMutexAddress (s : State M FS V R) (n : Nat) :
    (s.setMutexAddress n).guardAt = s.guardAt := rfl

@[simp] theorem guardAt_setFrontState (s : State M FS V R) (x : FS) :
    (s.setFrontState x).guardAt = s.guardAt := rfl

@[simp] theorem guardAt_setExclusive (s : State M FS V R)
    (x : MutexExclusive V) : (s.setExclusive x).guardAt = s.guardAt := rfl

@[simp] theorem guardAt_setFrame (s : State M FS V R) (i : CallId)
    (f : Frame V R) : (s.setFrame i f).guardAt = s.guardAt := rfl

@[simp] theorem guardAt_pushFrame (s : State M FS V R) (i : CallId)
    (f : Frame V R) : (s.pushFrame i f).guardAt = s.guardAt := rfl

@[simp] theorem guardAt_goto (s : State M FS V R) (i : CallId)
    (f : Frame V R) (pc : Pc V R) : (s.goto i f pc).guardAt = s.guardAt := rfl

@[simp] theorem guardAt_finish (s : State M FS V R) (i : CallId)
    (f : Frame V R) (o : Outcome R) :
    (s.finish i f o).guardAt = s.guardAt := rfl

@[simp] theorem guardAt_wakeNext (s : State M FS V R)
    (wake : TaskState → TaskState) :
    (s.wakeNext wake).guardAt = s.guardAt := by
  funext a
  simp [guardAt]

@[simp] theorem guardOf_setMutex (s : State M FS V R) (a : Addr)
    (m : Mutex M) : (s.setMutex a m).guardOf = s.guardOf := rfl

@[simp] theorem guardOf_setMutexAddress (s : State M FS V R) (n : Nat) :
    (s.setMutexAddress n).guardOf = s.guardOf := rfl

@[simp] theorem guardOf_setFrontState (s : State M FS V R) (x : FS) :
    (s.setFrontState x).guardOf = s.guardOf := rfl

@[simp] theorem guardOf_setExclusive (s : State M FS V R)
    (x : MutexExclusive V) : (s.setExclusive x).guardOf = s.guardOf := rfl

@[simp] theorem guardOf_setFrame (s : State M FS V R) (i : CallId)
    (f : Frame V R) : (s.setFrame i f).guardOf =
      Function.update s.guardOf i f.pc.guard? := by
  funext j
  rcases eq_or_ne j i with rfl | hj
  · simp [guardOf]
  · simp [guardOf, hj]

@[simp] theorem guardOf_pushFrame (s : State M FS V R) (i : CallId)
    (f : Frame V R) : (s.pushFrame i f).guardOf =
      Function.update s.guardOf i f.pc.guard? :=
  guardOf_setFrame s i f

@[simp] theorem guardOf_goto (s : State M FS V R) (i : CallId)
    (f : Frame V R) (pc : Pc V R) :
    (s.goto i f pc).guardOf = Function.update s.guardOf i pc.guard? :=
  guardOf_setFrame s i { f with pc := pc }

@[simp] theorem guardOf_finish (s : State M FS V R) (i : CallId)
    (f : Frame V R) (o : Outcome R) :
    (s.finish i f o).guardOf = Function.update s.guardOf i none :=
  guardOf_setFrame s i { f with pc := .done o }

@[simp] theorem guardOf_wakeNext (s : State M FS V R)
    (wake : TaskState → TaskState) :
    (s.wakeNext wake).guardOf = s.guardOf := by
  funext i
  rw [guardOf_eq_map, guardOf_eq_map,
    wakeNext_map (fun f => f.pc.guard?) wake (fun f => by simp [Frame.wake])]

@[simp] theorem kindOf_setMutex (s : State M FS V R) (a : Addr)
    (m : Mutex M) : (s.setMutex a m).kindOf = s.kindOf := rfl

@[simp] theorem kindOf_setMutexAddress (s : State M FS V R) (n : Nat) :
    (s.setMutexAddress n).kindOf = s.kindOf := rfl

@[simp] theorem kindOf_setFrontState (s : State M FS V R) (x : FS) :
    (s.setFrontState x).kindOf = s.kindOf := rfl

@[simp] theorem kindOf_setExclusive (s : State M FS V R)
    (x : MutexExclusive V) : (s.setExclusive x).kindOf = s.kindOf := rfl

@[simp] theorem kindOf_setFrame (s : State M FS V R) (i : CallId)
    (f : Frame V R) : (s.setFrame i f).kindOf =
      Function.update s.kindOf i (some f.kind) := by
  funext j
  rcases eq_or_ne j i with rfl | hj
  · simp [kindOf]
  · simp [kindOf, hj]

@[simp] theorem kindOf_pushFrame (s : State M FS V R) (i : CallId)
    (f : Frame V R) : (s.pushFrame i f).kindOf =
      Function.update s.kindOf i (some f.kind) :=
  kindOf_setFrame s i f

@[simp] theorem kindOf_goto (s : State M FS V R) (i : CallId)
    (f : Frame V R) (pc : Pc V R) : (s.goto i f pc).kindOf =
      Function.update s.kindOf i (some { f with pc := pc }.kind) :=
  kindOf_setFrame s i { f with pc := pc }

@[simp] theorem kindOf_finish (s : State M FS V R) (i : CallId)
    (f : Frame V R) (o : Outcome R) : (s.finish i f o).kindOf =
      Function.update s.kindOf i (some { f with pc := .done o }.kind) :=
  kindOf_setFrame s i { f with pc := .done o }

@[simp] theorem kindOf_wakeNext (s : State M FS V R)
    (wake : TaskState → TaskState) :
    (s.wakeNext wake).kindOf = s.kindOf := by
  funext i
  exact wakeNext_map Frame.kind wake (kind_wake wake) s i

theorem State.At.guardOf {i : CallId} {f : Frame V R} {pc : Pc V R}
    (h : s.At i f pc) : s.guardOf i = pc.guard? := by
  simp [State.guardOf, h.frame, h.pc]

theorem State.At.kindOf {i : CallId} {f : Frame V R} {pc : Pc V R}
    (h : s.At i f pc) : s.kindOf i = some f.kind := by
  simp [State.kindOf, h.frame]

theorem State.At.top {i : CallId} {f : Frame V R} {pc : Pc V R}
    (h : s.At i f pc) : (s.threads f.call.thread).head? = some i := by
  simpa [State.running] using h.running

/-! ## Properties of single frames -/

/-- Every frame has `P`. -/
def AllFrames (P : Frame V R → Prop)
    (frames : CallId → Option (Frame V R)) : Prop :=
  ∀ i f, frames i = some f → P f

section AllFrames

variable {P Q : Frame V R → Prop} {frames : CallId → Option (Frame V R)}

theorem AllFrames.update (h : AllFrames P frames) {i : CallId}
    {f : Frame V R} (hf : P f) :
    AllFrames P (Function.update frames i (some f)) := by
  intro j f' hf'
  rcases eq_or_ne j i with rfl | hj
  · rw [Function.update_self, Option.some.injEq] at hf'
    exact hf' ▸ hf
  · rw [Function.update_of_ne hj] at hf'
    exact h j f' hf'

theorem AllFrames.mono (h : AllFrames P frames) (himp : ∀ f, P f → Q f) :
    AllFrames Q frames :=
  fun i f hf => himp f (h i f hf)

theorem AllFrames.wakeNext (h : AllFrames P s.frames)
    {wake : TaskState → TaskState} (hwake : ∀ f, P f → P (f.wake wake)) :
    AllFrames P (s.wakeNext wake).frames := by
  intro j f hf
  rcases wakeNext_frames s wake j with hj | hj <;> rw [hj] at hf
  · exact h j f hf
  · obtain ⟨f', hf', rfl⟩ := Option.map_eq_some_iff.mp hf
    exact hwake f' (h j f' hf')

end AllFrames

/-! ## The slots of a handle -/

/-- Both slots of a handle are initialised in the callback, and none of them
in `unlocked`. -/
def Pc.SlotsOk : Pc V R → Prop
  | .callback h => h.guard.isSome ∧ h.mutexExclusiveGuard = true
  | .unlocked h => h.guard = none ∧ h.mutexExclusiveGuard = false
  | .reLock h => h.guard = none ∧ h.mutexExclusiveGuard = false
  | _ => True

/-- The slots of every handle are as the code expects them. -/
def State.SlotsOk (s : State M FS V R) : Prop :=
  AllFrames (fun f => f.pc.SlotsOk) s.frames

theorem slotsOk_entry (m : Method V) : (m.entry : Pc V R).SlotsOk := by
  cases m <;> trivial

theorem slotsOk_notifyOne {pc : Pc V R} (h : pc.SlotsOk) :
    pc.notifyOne.SlotsOk := by
  cases pc <;> exact h

theorem State.SlotsOk.at (h : s.SlotsOk) {i : CallId} {f : Frame V R}
    {pc : Pc V R} (hat : s.At i f pc) : pc.SlotsOk :=
  hat.pc ▸ h i f hat.frame

/-- No callback finds an uninitialised slot. -/
theorem State.SlotsOk.not_uninit (h : s.SlotsOk) {i : CallId}
    {f : Frame V R} {hd : QueueHandle} (hat : s.At i f (.callback hd))
    (hslot : hd.guard = none ∨ hd.mutexExclusiveGuard = false) : False := by
  obtain ⟨hguard, hexclusive⟩ := h.at hat
  rcases hslot with hnone | hfalse
  · simp [hnone] at hguard
  · simp [hfalse] at hexclusive

theorem Transition.slotsOk (ht : Transition cfg s a s' evs) (h : s.SlotsOk) :
    s'.SlotsOk := by
  have hwake : ∀ (wake : TaskState → TaskState) (f : Frame V R),
      f.pc.SlotsOk → (f.wake wake).pc.SlotsOk :=
    fun _ _ => slotsOk_notifyOne
  cases ht
  case callOther => exact h.update (slotsOk_entry _)
  case handOff hat =>
    refine AllFrames.wakeNext ?_ (hwake _)
    exact h.update trivial
  case errHandOff hat =>
    refine AllFrames.wakeNext ?_ (hwake _)
    exact h.update trivial
  case reLock => exact h.update ⟨rfl, rfl⟩
  case startCallback => exact h.update ⟨rfl, rfl⟩
  case unlocked => exact h.update ⟨rfl, rfl⟩
  case endUnlocked hat =>
    have hslots := h.at hat
    exact h.update hslots
  case pop hin _ =>
    have hslots := h.at hin.loc
    exact h.update hslots
  case popPanic hin _ =>
    have hslots := h.at hin.loc
    exact h.update hslots
  all_goals first | exact h | exact h.update trivial

/-! ## Owners -/

/-- The mutexes and the calls agree about the guards. -/
def State.Owners (s : State M FS V R) : Prop :=
  Locks.Agree Place.call s.guardAt s.guardOf

theorem owners_new (frontState : FS) (data : Addr → M) :
    (State.new frontState data : State M FS V R).Owners := by
  intro i b
  simp [guardAt, guardOf, State.new]

/-- A mutex that is not locked, or whose guard is not in a call. -/
def State.NoCall (s : State M FS V R) (b : Addr) : Prop :=
  ∀ i, s.guardAt b ≠ some (.call i)

theorem noCall_of_free {b : Addr} (h : (s.mutexes b).guard = none) :
    s.NoCall b := by
  simp [NoCall, guardAt, h]

theorem noCall_of_user {b : Addr} {t : ThreadId}
    (h : (s.mutexes b).guard = some (.user t)) : s.NoCall b := by
  simp [NoCall, guardAt, h]

theorem noCall_of_leaked {b : Addr} {i : CallId}
    (h : (s.mutexes b).guard = some (.leaked i)) : s.NoCall b := by
  simp [NoCall, guardAt, h]

/-- Call `i`, which has no guard, locks a mutex. -/
theorem State.Owners.acquire (h : s.Owners) {i : CallId} {f : Frame V R}
    {pc : Pc V R} {b : Addr} (hat : s.At i f pc) (hnone : pc.guard? = none)
    (hfree : (s.mutexes b).guard = none) :
    Locks.Agree Place.call (Function.update s.guardAt b (some (.call i)))
      (Function.update s.guardOf i (some b)) :=
  Locks.Agree.acquire h place_call_injective (noCall_of_free hfree)
    (hat.guardOf.trans hnone)

/-- Call `i` drops its guard. -/
theorem State.Owners.release (h : s.Owners) {i : CallId} {f : Frame V R}
    {pc : Pc V R} {b : Addr} (hat : s.At i f pc) (hguard : pc.guard? = some b) :
    Locks.Agree Place.call (Function.update s.guardAt b none)
      (Function.update s.guardOf i none) :=
  Locks.Agree.release h place_call_injective (hat.guardOf.trans hguard)
    (by simp)

theorem Transition.owners (ht : Transition cfg s a s' evs) (hs : s.SlotsOk)
    (h : s.Owners) : s'.Owners := by
  unfold State.Owners
  cases ht
  case callProcess i thread mutex guard value hnew _ hguard =>
    have hnone : s.guardOf i = none := by simp [guardOf, hnew]
    have hmove := Locks.Agree.acquire h place_call_injective
      (noCall_of_user hguard) hnone
    simpa [Pc.guard?, guardAt, guardOf] using hmove
  case callOther i c hnew _ hmethod =>
    have hnone : s.guardOf i = none := by simp [guardOf, hnew]
    have hentry : (c.method.entry : Pc V R).guard? = none := by
      rcases hm : c.method with ⟨g, v⟩ | v | _ | _
      · exact absurd hm (hmethod g v)
      all_goals rfl
    simpa [hentry] using Locks.Agree.keep h hnone
  -- a call that has no guard locks a mutex
  case lock hat hfree _ =>
    simpa [Pc.guard?] using h.acquire hat rfl hfree
  case relock hat hfree =>
    simpa [Pc.guard?] using h.acquire hat rfl hfree
  case reLock hat hfree =>
    simpa [Pc.guard?, QueueHandle.restore] using
      h.acquire hat (hs.at hat).1 hfree
  case errLock hat hfree =>
    simpa [Pc.guard?] using h.acquire hat rfl hfree
  case queryLock hat hfree =>
    simpa [Pc.guard?] using h.acquire hat rfl hfree
  -- a call drops its guard
  case lockPoisoned hat hfree _ _ =>
    have hlock := h.acquire hat rfl hfree
    have hdrop := Locks.Agree.release hlock place_call_injective
      (Function.update_self _ _ _) (p := none) (by simp)
    simpa [Pc.guard?] using hdrop
  case mutexMismatch hat _ => simpa [Pc.guard?] using h.release hat rfl
  case wait hat => simpa [Pc.guard?] using h.release hat rfl
  case queuePoisoned hat _ _ => simpa [Pc.guard?] using h.release hat rfl
  case mutexPoisoned hat _ _ => simpa [Pc.guard?] using h.release hat rfl
  case returnOther hat _ => simpa [Pc.guard?] using h.release hat rfl
  case resumeUnwind hat => simpa [Pc.guard?] using h.release hat rfl
  case queryReturn hat => simpa [Pc.guard?] using h.release hat rfl
  case unlocked hin =>
    simpa [Pc.guard?, QueueHandle.release] using h.release hin.loc hin.guard
  -- a call gives its guard away
  case returnProcess i f g result guard value hat _ =>
    have hmove := Locks.Agree.release h place_call_injective hat.guardOf
      (p := some (.user f.call.thread)) (by simp)
    simpa using hmove
  case unwind i f hd g hin =>
    have hmove := Locks.Agree.release h place_call_injective
      (hin.loc.guardOf.trans hin.guard) (p := some (.leaked i)) (by simp)
    simpa [Pc.guard?] using hmove
  -- other code has the guard
  case userLock hfree =>
    simpa using Locks.Agree.outside h (noCall_of_free hfree) (by simp)
  case userUnlock hguard =>
    simpa using Locks.Agree.outside h (noCall_of_user hguard)
      (p := none) (by simp)
  case releaseLeaked hguard =>
    simpa using Locks.Agree.outside h (noCall_of_leaked hguard)
      (p := none) (by simp)
  -- a call goes on with the guard that it has
  case spuriousWake i f g hframe hpc =>
    have hnone : s.guardOf i = none := by simp [guardOf, hframe, hpc, Pc.guard?]
    simpa [Pc.guard?] using Locks.Agree.keep h hnone
  case ret hin =>
    simpa [Pc.guard?] using
      Locks.Agree.keep h (hin.loc.guardOf.trans hin.guard)
  case pop hin _ | popPanic hin _ =>
    simpa [Pc.guard?] using Locks.Agree.keep h hin.loc.guardOf
  case push hat | handOff hat | errHandOff hat | endUnlocked hat |
      ending hat =>
    simpa [Pc.guard?] using Locks.Agree.keep h hat.guardOf
  case mutexGood hat _ | flip hat _ | contended hat _ | testFront hat _ |
      testNotFront hat _ | popFront hat _ | popNothing hat _ |
      resultProcess hat _ | resultElsewhere hat _ | resultPanicked hat _ |
      startCallback hat _ | queryGood hat _ | queryMismatch hat _ |
      queryClear hat _ | queryRead hat _ | uninit hat _ =>
    simpa [Pc.guard?, QueueHandle.new] using Locks.Agree.keep h hat.guardOf
  -- no call takes part
  case poison | clearPoison | mutexState =>
    simpa [State.Owners] using h
  all_goals exact h

/-! ## Threads -/

/-- The threads are the stacks of their live calls. -/
def State.Nested (s : State M FS V R) : Prop :=
  Stacks.Nested s.threads s.kindOf

theorem nested_new (frontState : FS) (data : Addr → M) :
    (State.new frontState data : State M FS V R).Nested where
  mem := by simp [State.new, kindOf]
  nodup := by simp [State.new]
  below := by simp [State.new]

section Nested

variable {s₁ : State M FS V R} {i : CallId} {f : Frame V R} {pc pc' : Pc V R}

/-- The running call goes on as `f'`.  `s₁` differs from `s` in other
parts. -/
theorem State.Nested.setFrame (h : s.Nested) (hat : s.At i f pc)
    {f' : Frame V R} (hlive : pc.isLive = true)
    (hlive' : f'.pc.isLive = true) (hcall : f'.call = f.call)
    (hthreads : s₁.threads = s.threads) (hkind : s₁.kindOf = s.kindOf) :
    (s₁.setFrame i f').Nested := by
  have hlive : f.kind.live = true := by rwa [Frame.kind, hat.pc]
  have hthread : f'.kind.thread = f.kind.thread := by
    rw [Frame.kind, Frame.kind, hcall]
  unfold State.Nested
  rw [kindOf_setFrame, setFrame_threads, hthreads, hkind]
  exact Stacks.Nested.move h hat.kindOf hlive hat.top hthread hlive'

theorem State.Nested.goto (h : s.Nested) (hat : s.At i f pc)
    (hlive : pc.isLive = true) (hlive' : pc'.isLive = true)
    (hthreads : s₁.threads = s.threads) (hkind : s₁.kindOf = s.kindOf) :
    (s₁.goto i f pc').Nested :=
  h.setFrame hat hlive hlive' rfl hthreads hkind

/-- The running call ends. -/
theorem State.Nested.finish (h : s.Nested) (hat : s.At i f pc)
    {outcome : Outcome R} (hthreads : s₁.threads = s.threads)
    (hkind : s₁.kindOf = s.kindOf) : (s₁.finish i f outcome).Nested := by
  unfold State.Nested
  rw [kindOf_finish, finish_threads, hthreads, hkind]
  exact Stacks.Nested.pop h hat.kindOf hat.top rfl

/-- User code starts a call. -/
theorem State.Nested.pushFrame (h : s.Nested) (hnew : s.frames i = none)
    (huser : s.inUserCode f.call.thread = true)
    (hlive : f.pc.isLive = true) : (s.pushFrame i f).Nested := by
  unfold State.Nested
  rw [kindOf_pushFrame, pushFrame_threads]
  refine Stacks.Nested.push (k := f.kind) h (by simp [kindOf, hnew]) hlive ?_
  intro j hj k hk
  obtain ⟨f', hf', rfl⟩ := Option.map_eq_some_iff.mp hk
  unfold inUserCode at huser
  cases hs : s.threads f.call.thread with
  | nil => simp [Frame.kind, hs] at hj
  | cons top rest =>
      simp only [Frame.kind, hs, List.head?_cons, Option.some.injEq] at hj
      subst hj
      simpa [hs, hf', Frame.kind] using huser

theorem State.Nested.wakeNext (h : s.Nested)
    (wake : TaskState → TaskState) : (s.wakeNext wake).Nested := by
  simpa [State.Nested] using h

/-- A live call outside user code runs. -/
theorem State.Nested.at (h : s.Nested) (hframe : s.frames i = some f)
    (hlive : f.pc.isLive = true) (huser : f.pc.isUserCode = false) :
    s.At i f f.pc := by
  refine ⟨hframe, ?_, rfl⟩
  have htop := Stacks.Nested.top h (i := i) (k := f.kind)
    (by simp [kindOf, hframe]) hlive huser
  simpa [State.running, Frame.kind] using htop

end Nested

theorem Transition.nested (ht : Transition cfg s a s' evs) (h : s.Nested) :
    s'.Nested := by
  cases ht
  case callProcess hnew huser _ =>
    exact State.Nested.pushFrame h hnew huser rfl
  case callOther c hnew huser _ =>
    refine h.pushFrame hnew huser ?_
    cases c.method <;> rfl
  case handOff hat | errHandOff hat =>
    refine State.Nested.wakeNext ?_ _
    exact h.goto hat rfl rfl rfl rfl
  case spuriousWake hframe hpc =>
    have hat := h.at hframe (by rw [hpc]; rfl) (by rw [hpc]; rfl)
    rw [hpc] at hat
    exact h.goto hat rfl rfl rfl rfl
  case contended hat _ => exact h.setFrame hat rfl rfl rfl rfl rfl
  case returnProcess hat _ | queryMismatch hat _ => exact h.finish hat rfl rfl
  case ending hat => exact h.finish hat rfl rfl
  case lockPoisoned hat _ _ _ => exact h.goto hat rfl rfl rfl rfl
  case pop hin _ | popPanic hin _ => exact h.goto hin.loc rfl rfl rfl rfl
  case ret hin | unwind hin | unlocked hin =>
    exact h.goto hin.loc rfl rfl rfl rfl
  case push hat | wait hat | endUnlocked hat | resumeUnwind hat |
      queryReturn hat => exact h.goto hat rfl rfl rfl rfl
  case mutexMismatch hat _ | returnOther hat _ =>
    exact h.goto hat rfl rfl rfl rfl
  case lock hat _ _ | queuePoisoned hat _ _ | mutexPoisoned hat _ _ =>
    exact h.goto hat rfl rfl rfl rfl
  case mutexGood hat _ | flip hat _ | relock hat _ | testFront hat _ |
      testNotFront hat _ | popFront hat _ | popNothing hat _ |
      resultProcess hat _ | resultElsewhere hat _ | resultPanicked hat _ |
      startCallback hat _ | reLock hat _ | errLock hat _ | queryGood hat _ |
      queryLock hat _ | queryClear hat _ | queryRead hat _ | uninit hat _ =>
    exact h.goto hat rfl rfl rfl rfl
  all_goals exact h

/-! ## Local variables -/

/-- A call of `process` returns a result and a query returns an answer. -/
def Outcome.Ok (c : Call V) : Outcome R → Prop
  | .returned _ => c.method.value?.isSome
  | .answered _ => c.method.value? = none
  | .unwound _ => True

/-- What the local variables of a call `c` at a program counter hold, when
`mutex_address` is `address`. -/
def Pc.Ok (address : Nat) (c : Call V) : Pc V R → Prop
  | .lock v => c.method.value? = some v
  | .assertMutexGood _ v => c.method.value? = some v
  | .tryAcquireFrontFast g v =>
      g = c.mutex ∧ address = c.mutex ∧ c.method.value? = some v
  | .pushBack g v =>
      g = c.mutex ∧ address = c.mutex ∧ c.method.value? = some v
  | .wait g => g = c.mutex ∧ address = c.mutex ∧ c.method.value?.isSome
  | .asleep g => g = c.mutex ∧ address = c.mutex ∧ c.method.value?.isSome
  | .relock g => g = c.mutex ∧ address = c.mutex ∧ c.method.value?.isSome
  | .testFront g => g = c.mutex ∧ address = c.mutex ∧ c.method.value?.isSome
  | .popFront g _ => g = c.mutex ∧ address = c.mutex ∧ c.method.value?.isSome
  | .assertQueueGood g _ =>
      g = c.mutex ∧ address = c.mutex ∧ c.method.value?.isSome
  | .assertMutexUnpoisoned g _ =>
      g = c.mutex ∧ address = c.mutex ∧ c.method.value?.isSome
  | .callback h =>
      (∀ g, h.guard = some g → g = c.mutex) ∧ address = c.mutex ∧
        c.method.value?.isSome
  | .unlocked _ => address = c.mutex ∧ c.method.value?.isSome
  | .reLock _ => address = c.mutex ∧ c.method.value?.isSome
  | .handOff g _ => g = c.mutex ∧ address = c.mutex ∧ c.method.value?.isSome
  | .returning g _ => g = c.mutex ∧ address = c.mutex ∧ c.method.value?.isSome
  | .errLock _ => address = c.mutex ∧ c.method.value?.isSome
  | .errHandOff g _ => g = c.mutex ∧ address = c.mutex ∧ c.method.value?.isSome
  | .resumeUnwind g _ =>
      g = c.mutex ∧ address = c.mutex ∧ c.method.value?.isSome
  | .queryAssert => c.method.value? = none
  | .queryLock => address = c.mutex ∧ c.method.value? = none
  | .queryAccess g => g = c.mutex ∧ address = c.mutex ∧ c.method.value? = none
  | .queryReturn g _ =>
      g = c.mutex ∧ address = c.mutex ∧ c.method.value? = none
  | .ending outcome => outcome.Ok c
  | .done outcome => outcome.Ok c
  | .undefined _ => True

/-- Whether `assert_mutex_good` has returned in a call that has not left. -/
def Pc.isRegistered : Pc V R → Bool
  | .lock _ => false
  | .assertMutexGood _ _ => false
  | .queryAssert => false
  | .ending _ => false
  | .done _ => false
  | .undefined _ => false
  | _ => true

/-- The local variables of every call are as `Pc.Ok` says. -/
def State.Locals (s : State M FS V R) : Prop :=
  AllFrames (fun f => f.pc.Ok s.mutexAddress f.call) s.frames

/-- The `assert_mutex_good` of a `process` call does not return when the guard
is not a guard of the mutex. -/
def GuardMatches (s : State M FS V R) : Action M FS V R → Prop
  | .step i => ∀ f g v, s.At i f (.assertMutexGood g v) →
      s.mutexAddress = 0 ∨ s.mutexAddress = f.call.mutex → g = f.call.mutex
  | _ => True

/-- `GuardMatches` for a step of call `i`, as a test. -/
def State.guardMatches (s : State M FS V R) (i : CallId) : Bool :=
  match s.frames i with
  | some ⟨c, t, .assertMutexGood g v⟩ =>
      decide (s.running i ⟨c, t, .assertMutexGood g v⟩ = true →
        s.mutexAddress = 0 ∨ s.mutexAddress = c.mutex → g = c.mutex)
  | _ => true

theorem guardMatches_iff {i : CallId} : s.guardMatches i = true ↔
    GuardMatches s (.step i : Action M FS V R) := by
  unfold State.guardMatches
  constructor
  · rintro h ⟨c, t, pc⟩ g v hat hgood
    obtain rfl : pc = .assertMutexGood g v := hat.pc
    rw [hat.frame] at h
    exact of_decide_eq_true h hat.running hgood
  · intro h
    split
    · rename_i c t g v hf
      exact decide_eq_true fun hrun hgood => h _ g v ⟨hf, hrun, rfl⟩ hgood
    · rfl

instance (s : State M FS V R) :
    (a : Action M FS V R) → Decidable (GuardMatches s a)
  | .call _ _ => isTrue trivial
  | .step i => decidable_of_iff (s.guardMatches i = true) guardMatches_iff
  | .callback _ _ => isTrue trivial
  | .spuriousWake _ => isTrue trivial
  | .lock _ _ => isTrue trivial
  | .unlock _ _ => isTrue trivial
  | .poison _ => isTrue trivial
  | .clearPoison _ => isTrue trivial
  | .releaseLeaked _ => isTrue trivial

/-- The guard with which a call comes to its `assert_mutex_good`. -/
def Pc.entryGuard? : Pc V R → Option Addr
  | .assertMutexGood g _ => some g
  | _ => none

/-- When call `i` comes to its `assert_mutex_good` with a guard of the
registered mutex, it passes that mutex.  If it passed another one, the
assertion would panic and poison the registered mutex. -/
def State.SparesMutex (s : State M FS V R) (i : CallId) : Prop :=
  ∀ f ∈ s.frames i, ∀ g ∈ f.pc.entryGuard?, s.mutexAddress = g →
    f.call.mutex = g

instance (s : State M FS V R) (i : CallId) : Decidable (s.SparesMutex i) :=
  inferInstanceAs (Decidable (∀ f ∈ s.frames i, ∀ g ∈ f.pc.entryGuard?, _))

theorem ok_entry (c : Call V) (address : Nat) :
    (c.method.entry : Pc V R).Ok address c := by
  obtain ⟨thread, mutex, method⟩ := c
  cases method <;> exact rfl

theorem ok_notifyOne {address : Nat} {c : Call V} {pc : Pc V R}
    (h : pc.Ok address c) : pc.notifyOne.Ok address c := by
  cases pc <;> exact h

/-- A registered mutex is the one that the call was given. -/
theorem ok_registered {address : Nat} {c : Call V} {pc : Pc V R}
    (h : pc.Ok address c) (hreg : pc.isRegistered = true) :
    address = c.mutex := by
  cases pc <;> first | (cases hreg; done) | exact h.2.1 | exact h.1

/-- The guard of a call is a guard of the mutex that it was given. -/
theorem ok_guard {address : Nat} {c : Call V} {pc : Pc V R} {g : Addr}
    (h : pc.Ok address c) (hslots : pc.SlotsOk)
    (hreg : pc.isRegistered = true) (hg : pc.guard? = some g) :
    g = c.mutex := by
  cases pc
  case callback hd => exact h.1 g hg
  case unlocked hd =>
    rw [Pc.guard?, hslots.1] at hg
    cases hg
  case reLock hd =>
    rw [Pc.guard?, hslots.1] at hg
    cases hg
  all_goals
    first
    | (cases hreg; done)
    | (cases hg; done)
    | (cases hg; exact h.1)

/-- The registration of the first mutex does not change what a call knows. -/
theorem ok_register {address address' : Nat} {c : Call V} {pc : Pc V R}
    (h : pc.Ok address c) (hset : address = 0 ∨ address = address') :
    pc.Ok address' c := by
  rcases hset with rfl | rfl
  · have hpos : (0 : Nat) ≠ c.mutex := c.mutex.pos.ne
    cases hreg : pc.isRegistered with
    | true =>
        exact absurd (ok_registered h hreg) hpos
    | false => cases pc <;> first | (cases hreg; done) | exact h
  · exact h

theorem State.Locals.at (h : s.Locals) {i : CallId} {f : Frame V R}
    {pc : Pc V R} (hat : s.At i f pc) : pc.Ok s.mutexAddress f.call :=
  hat.pc ▸ h i f hat.frame

/-- A step keeps the local variables in order, when no `process` call with a
wrong guard gets past `assert_mutex_good`. -/
theorem Transition.locals (ht : Transition cfg s a s' evs)
    (hmatches : GuardMatches s a) (h : s.Locals) : s'.Locals := by
  have hwake : ∀ (address : Nat) (wake : TaskState → TaskState)
      (f : Frame V R), f.pc.Ok address f.call →
        (f.wake wake).pc.Ok address (f.wake wake).call :=
    fun _ _ _ => ok_notifyOne
  have hregister : ∀ {address : Nat},
      s.mutexAddress = 0 ∨ s.mutexAddress = address →
        AllFrames (fun f => f.pc.Ok address f.call) s.frames :=
    fun hset => AllFrames.mono h fun _ hf => ok_register hf hset
  have hsome : ∀ {c : Call V} {v : V}, c.method.value? = some v →
      c.method.value?.isSome := by
    intro c v hv
    rw [hv]
    rfl
  cases ht
  case callProcess => exact AllFrames.update h rfl
  case callOther c _ _ _ => exact AllFrames.update h (ok_entry c _)
  case lock hat _ _ =>
    have hok := h.at hat
    exact AllFrames.update h hok
  case mutexGood hat hgood =>
    have hok := h.at hat
    have hguard := hmatches _ _ _ hat hgood
    exact (hregister hgood).update ⟨hguard, rfl, hok⟩
  case queryGood hat hgood =>
    have hok := h.at hat
    exact (hregister hgood).update ⟨rfl, hok⟩
  case flip hat _ | push hat =>
    have hok := h.at hat
    exact AllFrames.update h ⟨hok.1, hok.2.1, hsome hok.2.2⟩
  case startCallback hat _ =>
    have hok := h.at hat
    exact AllFrames.update h ⟨fun _ hg => Option.some.inj hg ▸ hok.1, hok.2⟩
  case unlocked hin => exact AllFrames.update h (h.at hin.loc).2
  case unwind hin => exact AllFrames.update h (h.at hin.loc).2
  case ret hin =>
    have hok := h.at hin.loc
    exact AllFrames.update h ⟨hok.1 _ hin.guard, hok.2⟩
  case pop hin _ | popPanic hin _ =>
    have hok := h.at hin.loc
    exact AllFrames.update h hok
  case reLock hat _ =>
    have hok := h.at hat
    exact AllFrames.update h ⟨fun _ hg => (Option.some.inj hg).symm, hok⟩
  case errLock hat _ | queryLock hat _ =>
    have hok := h.at hat
    exact AllFrames.update h ⟨rfl, hok⟩
  case handOff hat | errHandOff hat =>
    have hok := h.at hat
    unfold State.Locals
    rw [wakeNext_mutexAddress]
    refine AllFrames.wakeNext ?_ (hwake _ _)
    exact AllFrames.update h hok
  case spuriousWake i f g hframe hpc =>
    have hok : f.pc.Ok s.mutexAddress f.call := h i f hframe
    rw [hpc] at hok
    exact AllFrames.update h hok
  case queuePoisoned hat _ _ | mutexPoisoned hat _ _ =>
    exact AllFrames.update h (h.at hat).2
  case returnProcess hat _ | returnOther hat _ =>
    exact AllFrames.update h (h.at hat).2.2
  case queryReturn hat => exact AllFrames.update h (h.at hat).2.2
  case lockPoisoned => exact AllFrames.update h trivial
  case mutexMismatch | resumeUnwind | queryMismatch | popNothing | uninit =>
    exact AllFrames.update h trivial
  case wait hat | endUnlocked hat | ending hat =>
    have hok := h.at hat
    exact AllFrames.update h hok
  case contended hat _ | relock hat _ | testFront hat _ |
      testNotFront hat _ | popFront hat _ | resultProcess hat _ |
      resultElsewhere hat _ | resultPanicked hat _ | queryClear hat _ |
      queryRead hat _ =>
    have hok := h.at hat
    exact AllFrames.update h hok
  all_goals exact h

/-! ## The basic invariant -/

/-- What holds of every state that is reached when no `process` call with a
wrong guard gets past `assert_mutex_good`. -/
structure Basics (s : State M FS V R) : Prop where
  slots : s.SlotsOk
  owners : s.Owners
  nested : s.Nested
  locals : s.Locals

theorem basics_new (frontState : FS) (data : Addr → M) :
    Basics (State.new frontState data : State M FS V R) where
  slots := by simp [State.SlotsOk, AllFrames, State.new]
  owners := owners_new frontState data
  nested := nested_new frontState data
  locals := by simp [State.Locals, AllFrames, State.new]

theorem Transition.basics (ht : Transition cfg s a s' evs)
    (hmatches : GuardMatches s a) (h : Basics s) : Basics s' where
  slots := ht.slotsOk h.slots
  owners := ht.owners h.slots h.owners
  nested := ht.nested h.nested
  locals := ht.locals hmatches h.locals

/-- Call `i` has a guard of the registered mutex. -/
def State.Inside (s : State M FS V R) (i : CallId) : Prop :=
  ∃ g, s.guardOf i = some g ∧ s.mutexAddress = g

/-- One call at a time has a guard of the registered mutex. -/
theorem Basics.exclusive (h : Basics s) {i j : CallId} (hi : s.Inside i)
    (hj : s.Inside j) : i = j := by
  obtain ⟨g, hg, hreg⟩ := hi
  obtain ⟨g', hg', hreg'⟩ := hj
  have heq : g = g' := PNat.coe_injective (hreg.symm.trans hreg')
  subst heq
  exact Locks.Agree.unique h.owners place_call_injective hg hg'

/-- A call that has passed `assert_mutex_good` and has a guard has a guard of
the registered mutex. -/
theorem Basics.inside (h : Basics s) {i : CallId} {f : Frame V R} {g : Addr}
    (hframe : s.frames i = some f) (hreg : f.pc.isRegistered = true)
    (hguard : f.pc.guard? = some g) : s.Inside i := by
  have hok := h.locals i f hframe
  have hg := ok_guard hok (h.slots i f hframe) hreg hguard
  refine ⟨g, ?_, hg ▸ ok_registered hok hreg⟩
  simp [guardOf, hframe, hguard]

/-! ## Matched calls -/

/-- The guard with which a call comes to its `assert_mutex_good` is a guard of
the mutex that it passes. -/
def Frame.EntryGuard (f : Frame V R) : Prop :=
  ∀ g v, f.pc = .assertMutexGood g v → g = f.call.mutex

theorem entryGuard_entry {c : Call V} (hc : c.Matched) :
    (⟨c, .new, c.method.entry⟩ : Frame V R).EntryGuard := by
  intro g v hpc
  obtain ⟨thread, mutex, method⟩ := c
  cases method with
  | process guard value =>
      cases hpc
      exact hc
  | lockAndProcess value => cases hpc
  | isQueuePoisoned => cases hpc
  | clearQueuePoison => cases hpc

theorem entryGuard_wake {f : Frame V R} (h : f.EntryGuard)
    (wake : TaskState → TaskState) : (f.wake wake).EntryGuard := by
  intro g v hpc
  refine h g v ?_
  cases hf : f.pc <;> simp [Frame.wake, hf, Pc.notifyOne] at hpc ⊢
  exact hpc

/-- Every call at its `assert_mutex_good` has a guard of the mutex that it
passes. -/
def State.EntryGuards (s : State M FS V R) : Prop :=
  AllFrames Frame.EntryGuard s.frames

theorem entryGuards_new (frontState : FS) (data : Addr → M) :
    (State.new frontState data : State M FS V R).EntryGuards := by
  simp [State.EntryGuards, AllFrames, State.new]

theorem Transition.entryGuards (ht : Transition cfg s a s' evs)
    (hmatched : a.Matched) (h : s.EntryGuards) : s'.EntryGuards := by
  cases ht
  case callProcess =>
    refine AllFrames.update h ?_
    rintro g v hpc
    cases hpc
    exact hmatched
  case callOther c _ _ _ =>
    have hc : c.Matched := hmatched
    exact AllFrames.update h (entryGuard_entry hc)
  case lock => exact AllFrames.update h fun g v hpc => by cases hpc; rfl
  case handOff | errHandOff =>
    refine AllFrames.wakeNext ?_ fun _ hf => entryGuard_wake hf _
    exact AllFrames.update h (by simp [Frame.EntryGuard])
  all_goals
    first
    | exact h
    | exact AllFrames.update h (by simp [Frame.EntryGuard])

theorem State.EntryGuards.guardMatches (h : s.EntryGuards) :
    GuardMatches s a := by
  cases a with
  | step i =>
      intro f g v hat _
      exact h i f hat.frame g v hat.pc
  | _ => exact trivial

theorem State.EntryGuards.sparesMutex (h : s.EntryGuards) (i : CallId) :
    s.SparesMutex i := by
  intro f hf g hg _
  cases hpc : f.pc <;> simp [hpc, Pc.entryGuard?] at hg
  subst hg
  exact (h i f hf _ _ hpc).symm

/-! ## Runs without wrong guards -/

section Runs

variable {frontState : FS} {data : Addr → M} {acts : List (Action M FS V R)}
  {log : List (Event V R)}

/-- The runs of a new queue in which no `process` call with a wrong guard gets
past `assert_mutex_good`. -/
def GuardedRun (cfg : Config) (frontState : FS) (data : Addr → M)
    (acts : List (Action M FS V R)) (log : List (Event V R))
    (s : State M FS V R) : Prop :=
  (machine M FS V R cfg).Exec GuardMatches (State.new frontState data) acts log
    s

theorem Run.entryGuards (h : Run cfg frontState data acts log s) :
    s.EntryGuards :=
  Machine.Exec.invariant (I := fun _ s => s.EntryGuards)
    (entryGuards_new frontState data)
    (fun hI hmatched hstep =>
      (transition_of_step hstep).entryGuards hmatched hI) h

/-- Matched calls have no wrong guards. -/
theorem Run.guarded (h : Run cfg frontState data acts log s) :
    GuardedRun cfg frontState data acts log s :=
  Machine.Exec.mono_of_reached
    (fun run _ => (Run.entryGuards run).guardMatches) h

/-- `Basics` holds along every run without wrong guards. -/
theorem GuardedRun.basics (h : GuardedRun cfg frontState data acts log s) :
    Basics s :=
  Machine.Exec.invariant (I := fun _ s => Basics s)
    (basics_new frontState data)
    (fun hI hmatches hstep =>
      (transition_of_step hstep).basics hmatches hI) h

theorem Run.basics (h : Run cfg frontState data acts log s) : Basics s :=
  h.guarded.basics

end Runs

end ContentionQueue
