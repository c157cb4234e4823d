import ContentionQueue.Transition

/-!
# Disguises

A disguise is another way to look at a state: it changes what is seen of some
calls, hides other calls, and takes guards away from calls.  It is used to
compare the runs of two programs, where the states of one are the states of the
other in a disguise.

* `Disguise` is what is seen of a call and of a guard, and `State.disguise` is
  the state that is seen.
* `Disguise.Shows` says that a call is seen at its own program counter.
* `Transition.disguise` is the result: a step of such a call is a step of the
  state that is seen.
-/

namespace ContentionQueue

open Machines State

variable {M FS V R : Type} {cfg : Config} {s s' s₁ : State M FS V R}
  {a : Action M FS V R} {evs : List (Event V R)}

/-! ## The state that is seen -/

/-- Outside the loop of `wait_until_at_front`, not turned away by a poisoned
lock, and not about to return. -/
def Pc.isPlain : Pc V R → Bool
  | .wait _ => false
  | .relock _ => false
  | .testFront _ => false
  | .lock _ => false
  | .ending (.returned _) => false
  | .ending (.unwound .poisonedLock) => false
  | .done (.unwound .poisonedLock) => false
  | _ => true

/-- What is seen of the calls and of their guards.  A call that is seen at its
own program counter stays so from one plain program counter to the next, and
user code is always seen. -/
structure Disguise (V R : Type) where
  /-- The arguments of a call. -/
  call : Call V → Call V
  /-- The frame of a call, if it is seen. -/
  frame : Frame V R → Option (Frame V R)
  /-- The calls that are seen to have returned before they do. -/
  left : Frame V R → Bool
  /-- The calls whose guard of a mutex is not seen. -/
  gone : Addr → CallId → Bool
  thread_call : ∀ c, (call c).thread = c.thread
  mutex_call : ∀ c, (call c).mutex = c.mutex
  process_call : ∀ {c g v}, c.method = .process g v → call c = c
  clear_call : ∀ c, (call c).method = .clearQueuePoison ↔
    c.method = .clearQueuePoison
  plain : ∀ {f t pc}, frame f = some { f with call := call f.call } →
    pc.isPlain = true → frame ⟨f.call, t, pc⟩ = some ⟨call f.call, t, pc⟩
  user : ∀ {f}, f.pc.isUserCode = true →
    frame f = some { f with call := call f.call }
  stays : ∀ {f}, frame f = some { f with call := call f.call } →
    left f = false
  left_wake : ∀ f wake, left (f.wake wake) = left f

/-- A guard, unless it is of a call that has lost it. -/
def withoutGuard (gone : CallId → Bool) : Option Place → Option Place
  | some (.call i) => if gone i then none else some (.call i)
  | place => place

/-- The mutex without the guards of some calls. -/
def Mutex.without (gone : CallId → Bool) (m : Mutex M) : Mutex M :=
  { m with guard := withoutGuard gone m.guard }

namespace Disguise

/-- The call is seen at its own program counter. -/
def Shows (d : Disguise V R) (f : Frame V R) : Prop :=
  d.frame f = some { f with call := d.call f.call }

end Disguise

namespace State

/-- Whether call `i` is seen on its thread. -/
def isSeen (s : State M FS V R) (d : Disguise V R) (i : CallId) : Bool :=
  (s.frames i).all fun f => (d.frame f).isSome && !d.left f

/-- The state that is seen. -/
def disguise (s : State M FS V R) (d : Disguise V R) : State M FS V R :=
  { s with
    mutexes := fun b => (s.mutexes b).without (d.gone b)
    frames := fun i => (s.frames i).bind d.frame
    threads := fun t => (s.threads t).filter (s.isSeen d) }

end State

section Disguise

variable {d : Disguise V R} {i : CallId} {f : Frame V R}

/-! ## Guards -/

theorem guard_without_of_free {gone : CallId → Bool} {m : Mutex M}
    (h : m.guard = none) : (m.without gone).guard = none := by
  simp [Mutex.without, withoutGuard, h]

theorem guard_without_of_user {gone : CallId → Bool} {m : Mutex M}
    {t : ThreadId} (h : m.guard = some (.user t)) :
    (m.without gone).guard = some (.user t) := by
  simp [Mutex.without, withoutGuard, h]

theorem guard_without_of_leaked {gone : CallId → Bool} {m : Mutex M}
    (h : m.guard = some (.leaked i)) :
    (m.without gone).guard = some (.leaked i) := by
  simp [Mutex.without, withoutGuard, h]

theorem without_move {gone : CallId → Bool} (hgone : gone i = false)
    (m : Mutex M) :
    (m.move (.call i)).without gone = (m.without gone).move (.call i) := by
  simp [Mutex.without, Mutex.move, withoutGuard, hgone]

theorem without_of_gone {gone : CallId → Bool} {m : Mutex M}
    (h : withoutGuard gone m.guard = none) : m.without gone = m.unlock := by
  unfold Mutex.without
  rw [h]
  rfl

/-! ## Updates of the state that is seen -/

@[simp] theorem disguise_frames (s : State M FS V R) (d : Disguise V R)
    (i : CallId) : (s.disguise d).frames i = (s.frames i).bind d.frame := rfl

@[simp] theorem disguise_threads (s : State M FS V R) (d : Disguise V R)
    (t : ThreadId) :
    (s.disguise d).threads t = (s.threads t).filter (s.isSeen d) := rfl

theorem disguise_setMutex (s : State M FS V R) (d : Disguise V R) (b : Addr)
    (m : Mutex M) : (s.setMutex b m).disguise d =
      (s.disguise d).setMutex b (m.without (d.gone b)) := by
  simp only [State.disguise, setMutex, State.mk.injEq, true_and]
  refine ⟨?_, rfl⟩
  funext c
  rcases eq_or_ne c b with rfl | hc
  · simp
  · simp [hc]

theorem disguise_setExclusive (s : State M FS V R) (d : Disguise V R)
    (x : MutexExclusive V) : (s.setExclusive x).disguise d =
      (s.disguise d).setExclusive x := rfl

theorem disguise_setMutexAddress (s : State M FS V R) (d : Disguise V R)
    (address : Nat) : (s.setMutexAddress address).disguise d =
      (s.disguise d).setMutexAddress address := rfl

theorem isSeen_of_shows (hf : s.frames i = some f) (hshows : d.Shows f) :
    s.isSeen d i = true := by
  have hstays := d.stays hshows
  unfold Disguise.Shows at hshows
  simp [isSeen, hf, hshows, hstays]

/-- The stack of the thread of a call that runs. -/
theorem threads_of_running (hrun : s.running i f = true) :
    ∃ rest, s.threads f.call.thread = i :: rest := by
  have htop : (s.threads f.call.thread).head? = some i := by
    simpa [running] using hrun
  exact List.head?_eq_some_iff.mp htop

/-- A frame that is seen before and after an update. -/
theorem isSeen_update (hold : s.isSeen d i = true)
    (hframes : s₁.frames = Function.update s.frames i (some f))
    (hshows : d.Shows f) : s₁.isSeen d = s.isSeen d := by
  funext j
  rcases eq_or_ne j i with rfl | hj
  · rw [hold]
    refine isSeen_of_shows ?_ hshows
    rw [hframes, Function.update_self]
  · simp [isSeen, hframes, hj]

theorem bind_update {f' : Frame V R} (hseen : d.frame f = some f') :
    (fun j => (Function.update s.frames i (some f) j).bind d.frame) =
      Function.update (fun j => (s.frames j).bind d.frame) i (some f') := by
  funext j
  rcases eq_or_ne j i with rfl | hj
  · simp [hseen]
  · simp [hj]

/-- A call is seen at its own program counter, and it would be if its frame
were `f'`. -/
structure Disguise.Moves (d : Disguise V R) (frame? : Option (Frame V R))
    (f f' : Frame V R) : Prop where
  frame : frame? = some f
  before : d.Shows f
  after : d.Shows f'

theorem disguise_setFrame {f' : Frame V R} (h : d.Moves (s.frames i) f f') :
    (s.setFrame i f').disguise d =
      (s.disguise d).setFrame i { f' with call := d.call f'.call } := by
  have hseen := isSeen_of_shows h.frame h.before
  have hsame : (s.setFrame i f').isSeen d = s.isSeen d :=
    isSeen_update hseen rfl h.after
  simp only [State.disguise, hsame]
  simp only [setFrame, bind_update h.after]

/-- A call that is seen goes on. -/
theorem disguise_goto {pc : Pc V R}
    (h : d.Moves (s.frames i) f { f with pc := pc }) :
    (s.goto i f pc).disguise d =
      (s.disguise d).goto i { f with call := d.call f.call } pc :=
  disguise_setFrame h

/-- A call that is seen ends. -/
theorem disguise_finish {outcome : Outcome R}
    (h : d.Moves (s.frames i) f { f with pc := .done outcome })
    (hrun : s.running i f = true) :
    (s.finish i f outcome).disguise d =
      (s.disguise d).finish i { f with call := d.call f.call } outcome := by
  have hseen := isSeen_of_shows h.frame h.before
  have hsame : (s.finish i f outcome).isSeen d = s.isSeen d :=
    isSeen_update hseen rfl h.after
  simp only [State.disguise, hsame]
  simp only [finish, bind_update h.after, d.thread_call, State.mk.injEq,
    true_and]
  funext t
  rcases eq_or_ne t f.call.thread with rfl | ht
  · obtain ⟨rest, hthread⟩ := threads_of_running hrun
    simp [hthread, hseen]
  · simp [ht]

/-- A call that is seen starts. -/
theorem disguise_pushFrame (hnew : s.frames i = none) (hshows : d.Shows f) :
    (s.pushFrame i f).disguise d =
      (s.disguise d).pushFrame i { f with call := d.call f.call } := by
  have hold : s.isSeen d i = true := by simp [isSeen, hnew]
  have hsame : (s.pushFrame i f).isSeen d = s.isSeen d :=
    isSeen_update hold rfl hshows
  simp only [State.disguise, hsame]
  simp only [pushFrame, bind_update hshows, d.thread_call, State.mk.injEq,
    true_and]
  funext t
  rcases eq_or_ne t f.call.thread with rfl | ht
  · simp [hold]
  · simp [ht]

/-! ## Calls that are not seen -/

/-- The calls that are seen of other calls. -/
theorem filter_isSeen {calls : List CallId} (hi : i ∉ calls)
    (h : ∀ j, j ≠ i → s₁.frames j = s.frames j) :
    calls.filter (s₁.isSeen d) = calls.filter (s.isSeen d) := by
  refine List.filter_congr fun j hj => ?_
  have hne : j ≠ i := by
    rintro rfl
    exact hi hj
  simp only [State.isSeen, h j hne]

/-- A call that is not seen starts. -/
theorem disguise_pushFrame_hidden (hnew : s.frames i = none)
    (hthreads : ∀ t, i ∉ s.threads t) (hhidden : d.frame f = none) :
    (s.pushFrame i f).disguise d = s.disguise d := by
  have hframes : ∀ j, j ≠ i → (s.pushFrame i f).frames j = s.frames j :=
    fun j hj => Function.update_of_ne hj _ _
  have hseen : (s.pushFrame i f).isSeen d i = false := by
    simp [State.isSeen, hhidden]
  simp only [State.disguise, State.mk.injEq]
  refine ⟨rfl, rfl, rfl, rfl, ?_, ?_⟩
  · funext j
    rcases eq_or_ne j i with rfl | hj
    · simp [hnew, hhidden]
    · rw [hframes j hj]
  · funext t
    rw [← filter_isSeen (hthreads t) hframes]
    rcases eq_or_ne t f.call.thread with rfl | ht
    · simp [hseen]
    · simp [ht]

/-- A call that is not seen goes on. -/
theorem disguise_goto_hidden {pc pc' : Pc V R} (hat : s.At i f pc)
    (hhidden : d.frame f = none)
    (hhidden' : d.frame { f with pc := pc' } = none) :
    (s.goto i f pc').disguise d = s.disguise d := by
  have hseen : (s.goto i f pc').isSeen d = s.isSeen d := by
    funext j
    rcases eq_or_ne j i with rfl | hj
    · simp [State.isSeen, hat.frame, hhidden, hhidden']
    · simp [State.isSeen, hj]
  simp only [State.disguise, hseen, State.mk.injEq]
  refine ⟨rfl, rfl, rfl, rfl, ?_, rfl⟩
  funext j
  rcases eq_or_ne j i with rfl | hj
  · simp [hat.frame, hhidden, hhidden']
  · simp [hj]

/-- A call that is not seen ends. -/
theorem disguise_finish_hidden {pc : Pc V R} {outcome : Outcome R}
    (hat : s.At i f pc) (hhidden : d.frame f = none)
    (hhidden' : d.frame { f with pc := .done outcome } = none) :
    (s.finish i f outcome).disguise d = s.disguise d := by
  have hframes : ∀ j, ((s.finish i f outcome).frames j).bind d.frame =
      (s.frames j).bind d.frame := by
    intro j
    rcases eq_or_ne j i with rfl | hj
    · simp [hat.frame, hhidden, hhidden']
    · simp [hj]
  have hseen : (s.finish i f outcome).isSeen d = s.isSeen d := by
    funext j
    rcases eq_or_ne j i with rfl | hj
    · simp [State.isSeen, hat.frame, hhidden, hhidden']
    · simp [State.isSeen, hj]
  have hself : s.isSeen d i = false := by
    simp [State.isSeen, hat.frame, hhidden]
  simp only [State.disguise, hseen, hframes, State.mk.injEq]
  refine ⟨rfl, rfl, rfl, rfl, trivial, ?_⟩
  funext t
  rcases eq_or_ne t f.call.thread with rfl | ht
  · obtain ⟨rest, hthread⟩ := threads_of_running hat.running
    simp [hthread, hself]
  · simp [ht]

/-- A call that was not seen comes to be seen, as if it had started. -/
theorem disguise_goto_revealed {pc pc' : Pc V R}
    (hat : s.At i f pc) (honce : i ∉ (s.threads f.call.thread).tail)
    (hother : ∀ t, t ≠ f.call.thread → i ∉ s.threads t)
    (hhidden : d.frame f = none) (hshows : d.Shows { f with pc := pc' }) :
    (s.goto i f pc').disguise d = (s.disguise d).pushFrame i
      { f with call := d.call f.call, pc := pc' } := by
  have hframes : ∀ j, j ≠ i → (s.goto i f pc').frames j = s.frames j :=
    fun j hj => Function.update_of_ne hj _ _
  have hnow : (s.goto i f pc').isSeen d i = true :=
    isSeen_of_shows (Function.update_self _ _ _) hshows
  have hself : s.isSeen d i = false := by
    simp [State.isSeen, hat.frame, hhidden]
  simp only [State.disguise, pushFrame, State.mk.injEq, d.thread_call]
  refine ⟨rfl, rfl, rfl, rfl, bind_update hshows, ?_⟩
  funext t
  rcases eq_or_ne t f.call.thread with rfl | ht
  · obtain ⟨rest, hrest⟩ := threads_of_running hat.running
    have hi : i ∉ rest := by
      simpa [hrest] using honce
    have hbelow := filter_isSeen (d := d) hi hframes
    rw [Function.update_self]
    simp only [goto_threads, hrest, List.filter_cons, hnow, hself, if_true,
      Bool.false_eq_true, if_false, hbelow]
  · rw [Function.update_of_ne ht]
    exact filter_isSeen (hother t ht) hframes

/-! ## Calls that are seen to have returned -/

/-- A call is seen to return before it does. -/
theorem disguise_goto_left {pc pc' : Pc V R} {outcome : Outcome R}
    (hat : s.At i f pc) (honce : i ∉ (s.threads f.call.thread).tail)
    (hother : ∀ t, t ≠ f.call.thread → i ∉ s.threads t)
    (hshows : d.Shows f)
    (hdone : d.frame { f with pc := pc' } =
      some { f with call := d.call f.call, pc := .done outcome })
    (hleft : d.left { f with pc := pc' } = true) :
    (s.goto i f pc').disguise d =
      (s.disguise d).finish i { f with call := d.call f.call } outcome := by
  have hframes : ∀ j, j ≠ i → (s.goto i f pc').frames j = s.frames j :=
    fun j hj => Function.update_of_ne hj _ _
  have hnow : (s.goto i f pc').isSeen d i = false := by
    simp [State.isSeen, hleft]
  have hself : s.isSeen d i = true := isSeen_of_shows hat.frame hshows
  simp only [State.disguise, finish, State.mk.injEq, d.thread_call]
  refine ⟨rfl, rfl, rfl, rfl, bind_update hdone, ?_⟩
  funext t
  rcases eq_or_ne t f.call.thread with rfl | ht
  · obtain ⟨rest, hrest⟩ := threads_of_running hat.running
    have hi : i ∉ rest := by
      simpa [hrest] using honce
    have hbelow := filter_isSeen (d := d) hi hframes
    rw [Function.update_self]
    simp only [goto_threads, hrest, List.filter_cons, hnow, hself, if_true,
      Bool.false_eq_true, if_false, List.tail_cons, hbelow]
  · rw [Function.update_of_ne ht]
    exact filter_isSeen (hother t ht) hframes

/-- A call returns that was seen to return before. -/
theorem disguise_finish_left {pc : Pc V R} {outcome : Outcome R}
    (hat : s.At i f pc) (honce : i ∉ (s.threads f.call.thread).tail)
    (hother : ∀ t, t ≠ f.call.thread → i ∉ s.threads t)
    (hleft : d.left f = true)
    (hsame : d.frame { f with pc := .done outcome } = d.frame f) :
    (s.finish i f outcome).disguise d = s.disguise d := by
  have hframes : ∀ j, j ≠ i → (s.finish i f outcome).frames j = s.frames j :=
    fun j hj => Function.update_of_ne hj _ _
  have hself : s.isSeen d i = false := by
    simp [State.isSeen, hat.frame, hleft]
  simp only [State.disguise, State.mk.injEq]
  refine ⟨rfl, rfl, rfl, rfl, ?_, ?_⟩
  · funext j
    rcases eq_or_ne j i with rfl | hj
    · simp [hat.frame, hsame]
    · rw [hframes j hj]
  · funext t
    rcases eq_or_ne t f.call.thread with rfl | ht
    · obtain ⟨rest, hrest⟩ := threads_of_running hat.running
      have hi : i ∉ rest := by
        simpa [hrest] using honce
      simp only [finish_threads, Function.update_self, hrest, List.tail_cons,
        List.filter_cons, hself, Bool.false_eq_true, if_false]
      exact filter_isSeen hi hframes
    · rw [finish_threads, Function.update_of_ne ht]
      exact filter_isSeen (hother t ht) hframes

/-- What is seen of the call at the head of the queue is woken with it. -/
def State.WakesAlike (s : State M FS V R) (d : Disguise V R) : Prop :=
  ∀ j f wake, (∀ t, TaskState.isFront (wake t) = true) →
    s.frames j = some f →
      d.frame (f.wake wake) = (d.frame f).map (Frame.wake wake)

theorem disguise_wakeNext {wake : TaskState → TaskState}
    (hwake : ∀ t, (wake t).isFront = true) (h : s.WakesAlike d) :
    (s.wakeNext wake).disguise d = (s.disguise d).wakeNext wake := by
  cases hq : s.mutexExclusive.queue with
  | nil =>
      rw [wakeNext_nil s wake hq, wakeNext_nil (s.disguise d) wake hq]
      rfl
  | cons t rest =>
      rw [wakeNext_cons s wake hq, wakeNext_cons (s.disguise d) wake hq]
      have hseen : State.isSeen { s with
          frames := Function.update s.frames t.state
            ((s.frames t.state).map (Frame.wake wake)) } d = s.isSeen d := by
        funext j
        unfold State.isSeen
        rcases eq_or_ne j t.state with rfl | hj
        · cases hf : s.frames t.state with
          | none => simp
          | some f => simp [h _ f wake hwake hf, d.left_wake]
        · simp [hj]
      simp only [State.disguise, hseen, State.mk.injEq, true_and, and_true]
      funext j
      rcases eq_or_ne j t.state with rfl | hj
      · cases hf : s.frames t.state with
        | none => simp
        | some f => simp [h _ f wake hwake hf]
      · simp [hj]

/-- A call that is seen at its own program counter. -/
theorem State.At.disguise {pc : Pc V R} (hat : s.At i f pc)
    (hshows : d.Shows f) :
    (s.disguise d).At i { f with call := d.call f.call } pc where
  frame := by
    rw [disguise_frames, hat.frame]
    exact hshows
  running := by
    obtain ⟨rest, hthread⟩ := threads_of_running hat.running
    have hseen := isSeen_of_shows hat.frame hshows
    simp [State.running, d.thread_call, hthread, hseen]
  pc := hat.pc

theorem State.InCallback.disguise {h : QueueHandle} {g : Addr}
    (hin : s.InCallback i f h g) (hshows : d.Shows f) :
    (s.disguise d).InCallback i { f with call := d.call f.call } h g :=
  ⟨hin.loc.disguise hshows, hin.guard, hin.mutexExclusiveGuard⟩

/-- User code is always seen. -/
theorem inUserCode_disguise {t : ThreadId} (h : s.inUserCode t = true) :
    (s.disguise d).inUserCode t = true := by
  unfold State.inUserCode at h ⊢
  split at h
  · rename_i hthread
    simp [hthread]
  · rename_i i rest hthread
    split at h
    · rename_i f hf
      have hshows := d.user h
      have hseen := isSeen_of_shows hf hshows
      simp [hthread, hseen, hf, hshows, h]
    · cases h

end Disguise

/-! ## Steps -/

/-- A block that passes the front on. -/
def Pc.isHandOff : Pc V R → Bool
  | .handOff _ _ => true
  | .errHandOff _ _ => true
  | _ => false

/-- The call of a step is seen at its own program counter before and after the
step, and it has its guards. -/
structure Disguise.Follows (d : Disguise V R) (s : State M FS V R)
    (a : Action M FS V R) (s' : State M FS V R) : Prop where
  before : ∀ i f, a.call? = some i → s.frames i = some f → d.Shows f
  after : ∀ i f, a.call? = some i → s'.frames i = some f →
    f.pc.isPlain = false → d.Shows f
  kept : ∀ i, a.call? = some i → ∀ b, d.gone b i = false
  starts : ∀ i c, a = .call i c →
    d.call c = c ∧ d.Shows ⟨c, .new, c.method.entry⟩
  returns : ∀ i f g r, a = .step i → s.At i f (.returning g r) →
    d.call f.call = f.call
  wakes : ∀ i f, s.frames i = some f → f.pc.isHandOff = true →
    s.WakesAlike d

theorem State.WakesAlike.goto {d : Disguise V R} {i : CallId} {f : Frame V R}
    {pc : Pc V R} (h : s.WakesAlike d) (hf : d.Shows f)
    (hpc : pc.isPlain = true) (hawake : pc.notifyOne = pc) :
    (s.goto i f pc).WakesAlike d := by
  intro j f' wake hwake hf'
  rcases eq_or_ne j i with rfl | hj
  · obtain rfl := frame_of_update hf'
    have hshows : d.frame { f with pc := pc } = some _ := d.plain hf hpc
    have hwoken : d.frame ⟨f.call, wake f.taskState, pc⟩ = some _ :=
      d.plain hf hpc
    simp only [Frame.wake, hawake, hshows, hwoken, Option.map_some]
  · refine h j f' wake hwake ?_
    rw [goto_frames, Function.update_of_ne hj] at hf'
    exact hf'

/-- A step of a call that is seen at its own program counter is a step of the
state that is seen. -/
theorem Transition.disguise {d : Disguise V R}
    (ht : Transition cfg s a s' evs) (h : d.Follows s a s') :
    Transition cfg (s.disguise d) a (s'.disguise d) evs := by
  have hloc : ∀ {i f pc}, s.At i f pc → a.call? = some i →
      (s.disguise d).At i { f with call := d.call f.call } pc := by
    intro i f pc hat hi
    exact hat.disguise (h.before i f hi hat.frame)
  have hplain : ∀ {i f pc}, s.frames i = some f → a.call? = some i →
      pc.isPlain = true → d.Moves (s.frames i) f { f with pc := pc } := by
    intro i f pc hf hi hpc
    have hshows := h.before i f hi hf
    exact ⟨hf, hshows, d.plain hshows hpc⟩
  have henter : ∀ {i f pc}, s.frames i = some f → a.call? = some i →
      s'.frames i = some { f with pc := pc } → pc.isPlain = false →
        d.Moves (s.frames i) f { f with pc := pc } := by
    intro i f pc hf hi hf' hpc
    exact ⟨hf, h.before i f hi hf, h.after i _ hi hf' hpc⟩
  have hcallback : ∀ {i f hd g}, s.InCallback i f hd g → a.call? = some i →
      (s.disguise d).InCallback i { f with call := d.call f.call } hd g := by
    intro i f hd g hin hi
    exact hin.disguise (h.before i f hi hin.loc.frame)
  have hmove : ∀ {i}, a.call? = some i → ∀ b,
      ((s.mutexes b).move (.call i)).without (d.gone b) =
        ((s.disguise d).mutexes b).move (.call i) :=
    fun hi b => without_move (h.kept _ hi b) _
  have hfree' : ∀ {b}, (s.mutexes b).guard = none →
      ((s.disguise d).mutexes b).guard = none :=
    fun hfree => guard_without_of_free hfree
  cases ht
  -- calls and the environment
  case callProcess i thread mutex guard value hnew huser hguard =>
    have hshows : d.Shows ⟨⟨thread, mutex, .process guard value⟩, .new,
        .assertMutexGood guard value⟩ := (h.starts _ _ rfl).2
    rw [disguise_setMutex, disguise_pushFrame hnew hshows,
      hmove rfl, d.process_call rfl]
    refine .callProcess ?_ (inUserCode_disguise huser)
      (guard_without_of_user hguard)
    rw [disguise_frames, hnew, Option.bind_none]
  case callOther i c hnew huser hmethod =>
    obtain ⟨hcall, hshows⟩ := h.starts _ _ rfl
    rw [disguise_pushFrame hnew hshows, hcall]
    refine .callOther ?_ (inUserCode_disguise huser) hmethod
    rw [disguise_frames, hnew, Option.bind_none]
  case userLock huser hfree =>
    rw [disguise_setMutex]
    exact .userLock (inUserCode_disguise huser) (hfree' hfree)
  case userUnlock huser hguard =>
    rw [disguise_setMutex]
    exact .userUnlock (inUserCode_disguise huser)
      (guard_without_of_user hguard)
  case poison =>
    rw [disguise_setMutex]
    exact .poison
  case clearPoison =>
    rw [disguise_setMutex]
    exact .clearPoison
  case releaseLeaked hcfg hguard =>
    rw [disguise_setMutex]
    exact .releaseLeaked hcfg (guard_without_of_leaked hguard)
  -- the loop of `wait_until_at_front`
  case spuriousWake i f g hframe hpc =>
    have hmoves := henter hframe rfl (Function.update_self _ _ _) rfl
    rw [disguise_goto hmoves]
    refine .spuriousWake (f := { f with call := d.call f.call }) ?_ hpc
    rw [disguise_frames, hframe]
    exact hmoves.before
  case push hat =>
    rw [disguise_goto]
    · exact .push (hloc hat rfl)
    · exact henter hat.frame rfl (Function.update_self _ _ _) rfl
  case testNotFront hat hfront =>
    rw [disguise_goto]
    · exact .testNotFront (hloc hat rfl) hfront
    · exact henter hat.frame rfl (Function.update_self _ _ _) rfl
  case relock hat hfree =>
    rw [disguise_goto, disguise_setMutex, hmove rfl]
    · exact .relock (hloc hat rfl) (hfree' hfree)
    · exact henter hat.frame rfl (Function.update_self _ _ _) rfl
  case wait hat =>
    rw [disguise_goto, disguise_setMutex]
    · exact .wait (hloc hat rfl)
    · exact hplain hat.frame rfl rfl
  -- the hand-offs
  case handOff hat =>
    have hwakes := h.wakes _ _ hat.frame (by rw [hat.pc]; rfl)
    have hshows := h.before _ _ rfl hat.frame
    rw [disguise_wakeNext TaskState.isFront_wakeFrontTask, disguise_goto]
    · exact .handOff (hloc hat rfl)
    · exact hplain hat.frame rfl rfl
    · exact hwakes.goto hshows rfl rfl
  case errHandOff hat =>
    have hwakes := h.wakes _ _ hat.frame (by rw [hat.pc]; rfl)
    have hshows := h.before _ _ rfl hat.frame
    rw [disguise_wakeNext TaskState.isFront_wakeFrontTaskPanicking,
      disguise_goto, disguise_setExclusive]
    · exact .errHandOff (hloc hat rfl)
    · exact hplain hat.frame rfl rfl
    · exact State.WakesAlike.goto (s := s.setExclusive _) hwakes hshows rfl rfl
  -- the mutex argument
  case lock i f value hat hfree hpoison =>
    rw [disguise_goto, disguise_setMutex, hmove rfl]
    · rw [← d.mutex_call f.call] at hfree hpoison ⊢
      exact .lock (hloc hat rfl) (hfree' hfree) hpoison
    · exact hplain hat.frame rfl rfl
  case lockPoisoned i f value hat hfree hunwrap hpoison =>
    rw [disguise_goto, disguise_setMutex]
    · rw [← d.mutex_call f.call] at hfree hpoison ⊢
      exact .lockPoisoned (hloc hat rfl) (hfree' hfree) hunwrap hpoison
    · exact henter hat.frame rfl (Function.update_self _ _ _) rfl
  case mutexGood i f g value hat hgood =>
    rw [disguise_goto, disguise_setMutexAddress]
    · rw [← d.mutex_call f.call] at hgood ⊢
      exact .mutexGood (hloc hat rfl) hgood
    · exact hplain hat.frame rfl rfl
  case mutexMismatch i f g value hat hbad =>
    rw [disguise_goto, disguise_setMutex]
    · rw [← d.mutex_call f.call] at hbad
      exact .mutexMismatch (hloc hat rfl) hbad
    · exact hplain hat.frame rfl rfl
  case mutexPoisoned i f g value hat hunwrap hpoison =>
    rw [disguise_goto, disguise_setMutex]
    · rw [← d.mutex_call f.call] at hpoison
      exact .mutexPoisoned (hloc hat rfl) hunwrap hpoison
    · exact hplain hat.frame rfl rfl
  case startCallback i f g value hat hgood =>
    rw [disguise_goto]
    · rw [← d.mutex_call f.call] at hgood
      exact .startCallback (hloc hat rfl) hgood
    · exact hplain hat.frame rfl rfl
  case reLock i f hd hat hfree =>
    rw [disguise_goto, disguise_setMutex, hmove rfl]
    · rw [← d.mutex_call f.call] at hfree ⊢
      exact .reLock (hloc hat rfl) (hfree' hfree)
    · exact hplain hat.frame rfl rfl
  case errLock i f p hat hfree =>
    rw [disguise_goto, disguise_setMutex, hmove rfl]
    · rw [← d.mutex_call f.call] at hfree ⊢
      exact .errLock (hloc hat rfl) (hfree' hfree)
    · exact hplain hat.frame rfl rfl
  case queryGood i f hat hgood =>
    rw [disguise_goto, disguise_setMutexAddress]
    · rw [← d.mutex_call f.call] at hgood ⊢
      exact .queryGood (hloc hat rfl) hgood
    · exact hplain hat.frame rfl rfl
  case queryMismatch i f hat hbad =>
    rw [disguise_finish]
    · rw [← d.mutex_call f.call] at hbad
      exact .queryMismatch (hloc hat rfl) hbad
    · exact hplain hat.frame rfl rfl
    · exact hat.running
  case queryLock i f hat hfree =>
    rw [disguise_goto, disguise_setMutex, hmove rfl]
    · rw [← d.mutex_call f.call] at hfree ⊢
      exact .queryLock (hloc hat rfl) (hfree' hfree)
    · exact hplain hat.frame rfl rfl
  -- the method
  case returnProcess i f g r guard value hat hmethod =>
    have hat' := hloc hat rfl
    rw [disguise_finish, disguise_setMutex, d.process_call hmethod]
    · rw [d.process_call hmethod] at hat'
      exact .returnProcess hat' hmethod
    · exact hplain hat.frame rfl rfl
    · exact hat.running
  case returnOther i f g r hat hmethod =>
    have hat' := hloc hat rfl
    have hcall := h.returns i f g r rfl hat
    rw [disguise_goto, disguise_setMutex, hcall]
    · rw [hcall] at hat'
      exact .returnOther hat' hmethod
    · exact henter hat.frame rfl (Function.update_self _ _ _) rfl
  case queryClear hat hmethod =>
    rw [disguise_goto]
    · exact .queryClear (hloc hat rfl) ((d.clear_call _).mpr hmethod)
    · exact hplain hat.frame rfl rfl
  case queryRead hat hmethod =>
    rw [disguise_goto]
    · exact .queryRead (hloc hat rfl) fun hclear =>
        hmethod ((d.clear_call _).mp hclear)
    · exact hplain hat.frame rfl rfl
  -- the other blocks
  case contended i f g value hat hlocked =>
    have hshows := h.before i f rfl hat.frame
    rw [disguise_setFrame (f := f)]
    · exact .contended (hloc hat rfl) hlocked
    · exact ⟨hat.frame, hshows, d.plain hshows rfl⟩
  case queuePoisoned hat hunwrap hpoison =>
    rw [disguise_goto, disguise_setMutex]
    · exact .queuePoisoned (hloc hat rfl) hunwrap hpoison
    · exact hplain hat.frame rfl rfl
  case resumeUnwind i f g p hat =>
    rw [disguise_goto, disguise_setMutex]
    · exact .resumeUnwind (hloc hat rfl)
    · cases p
      case poisonedLock =>
        exact henter hat.frame rfl (Function.update_self _ _ _) rfl
      all_goals exact hplain hat.frame rfl rfl
  case queryReturn hat =>
    rw [disguise_goto, disguise_setMutex]
    · exact .queryReturn (hloc hat rfl)
    · exact hplain hat.frame rfl rfl
  case ending i f outcome hat =>
    rw [disguise_finish]
    · exact .ending (hloc hat rfl)
    · cases hplains : (Pc.done outcome : Pc V R).isPlain
      · exact henter hat.frame rfl (Function.update_self _ _ _) hplains
      · exact hplain hat.frame rfl hplains
    · exact hat.running
  case flip hat _ | testFront hat _ | popFront hat _ | popNothing hat _ |
      resultProcess hat _ | resultElsewhere hat _ | resultPanicked hat _ |
      endUnlocked hat | uninit hat _ =>
    have hat' := hloc hat rfl
    rw [disguise_goto]
    · constructor <;> assumption
    · exact hplain hat.frame rfl rfl
  -- the callback
  case peek hin _ | peekPanic hin _ | popNone hin _ | isQueuePoisoned hin |
      frontState hin | clearQueuePoison hin =>
    have hin' := hcallback hin rfl
    constructor <;> assumption
  case frontUnlocked hat =>
    exact .frontUnlocked (hloc hat rfl)
  case mutexState hin =>
    rw [disguise_setMutex]
    exact .mutexState (hcallback hin rfl)
  case pop hin _ | popPanic hin _ | ret hin =>
    have hin' := hcallback hin rfl
    rw [disguise_goto]
    · constructor <;> assumption
    · exact hplain hin.loc.frame rfl rfl
  case unlocked hin =>
    rw [disguise_goto, disguise_setMutex]
    · exact .unlocked (hcallback hin rfl)
    · exact hplain hin.loc.frame rfl rfl
  case unwind hin =>
    rw [disguise_goto, disguise_setMutex]
    · exact .unwind (hcallback hin rfl)
    · exact hplain hin.loc.frame rfl rfl

end ContentionQueue
