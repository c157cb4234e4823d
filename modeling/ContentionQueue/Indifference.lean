import ContentionQueue.Overlay

/-!
# Ignored poison

With `unwrap_mutex_poison = false` and `unwrap_queue_poison = false` the poison
flags have no influence.  Two states that differ in the flags only go through
the same runs, and the states that they reach differ in the flags only.

* `Hidden` says what may differ: the poison flags of some mutexes, and what
  some calls of `is_queue_poisoned` have answered.  `queue_poisoned` may always
  differ.
* `State.forget` clears what may differ, so `State.Agree` is equality after
  `forget`.
* `step_forget` is the step lemma: what a step does to the rest of the state
  depends on the rest of the state.
-/

namespace ContentionQueue

open Machines State

variable {M FS V R : Type} {cfg : Config} {s s' t : State M FS V R}
  {a : Action M FS V R}

/-! ## What may differ -/

/-- The parts of a state that may differ, next to `queue_poisoned`. -/
structure Hidden where
  /-- The mutexes whose poison flags may differ. -/
  mutex : Addr → Bool
  /-- The calls of `is_queue_poisoned` whose answers may differ. -/
  answer : CallId → Bool

/-- An outcome without the answer of `is_queue_poisoned`. -/
def Outcome.forgetAnswer : Outcome R → Outcome R
  | .returned result => .returned result
  | .answered _ => .answered none
  | .unwound p => .unwound p

/-- A program counter without the answer of `is_queue_poisoned`. -/
def Pc.forgetAnswer : Pc V R → Pc V R
  | .queryReturn g _ => .queryReturn g none
  | .ending outcome => .ending outcome.forgetAnswer
  | .done outcome => .done outcome.forgetAnswer
  | pc => pc

/-- A frame without the answer of `is_queue_poisoned`. -/
def Frame.forgetAnswer (f : Frame V R) : Frame V R :=
  { f with pc := f.pc.forgetAnswer }

/-- An event without the answer of `is_queue_poisoned`. -/
def Event.forgetAnswer : Event V R → Event V R
  | .leave i outcome => .leave i outcome.forgetAnswer
  | e => e

namespace Hidden

def forgetMutex (u : Hidden) (a : Addr) (m : Mutex M) : Mutex M :=
  if u.mutex a then { m with poisoned := false } else m

def forgetOutcome (u : Hidden) (i : CallId) (outcome : Outcome R) :
    Outcome R :=
  if u.answer i then outcome.forgetAnswer else outcome

def forgetPc (u : Hidden) (i : CallId) (pc : Pc V R) : Pc V R :=
  if u.answer i then pc.forgetAnswer else pc

def forgetFrame (u : Hidden) (i : CallId) (f : Frame V R) : Frame V R :=
  { f with pc := u.forgetPc i f.pc }

def forgetEvent (u : Hidden) (e : Event V R) : Event V R :=
  if u.answer e.call then e.forgetAnswer else e

theorem isUserCode_forgetPc (u : Hidden) (i : CallId) (pc : Pc V R) :
    (u.forgetPc i pc).isUserCode = pc.isUserCode := by
  unfold forgetPc
  split
  · cases pc <;> rfl
  · rfl

/-- The overlay that clears what may differ. -/
def overlay (u : Hidden) : Overlay M V R where
  exclusive := fun x => { x with queuePoisoned := false }
  mutex := u.forgetMutex
  frame := u.forgetFrame
  call_frame := fun _ _ => rfl
  isUserCode_frame := fun i f => u.isUserCode_forgetPc i f.pc

end Hidden

namespace State

/-- The state without what may differ. -/
def forget (s : State M FS V R) (u : Hidden) : State M FS V R :=
  s.overlay u.overlay

end State

/-- The result of a step without what may differ. -/
def Hidden.forgetResult (u : Hidden) (r : State M FS V R × List (Event V R)) :
    State M FS V R × List (Event V R) :=
  (r.1.forget u, r.2.map u.forgetEvent)

section Forget

variable {u : Hidden} {i : CallId} {f : Frame V R}

@[simp] theorem forgetMutex_self (u : Hidden) (b : Addr) (m : Mutex M) :
    u.forgetMutex b (u.forgetMutex b m) = u.forgetMutex b m := by
  unfold Hidden.forgetMutex
  split <;> rfl

@[simp] theorem guard_forgetMutex (u : Hidden) (b : Addr) (m : Mutex M) :
    (u.forgetMutex b m).guard = m.guard := by
  unfold Hidden.forgetMutex
  split <;> rfl

@[simp] theorem forgetMutex_move (u : Hidden) (b : Addr) (m : Mutex M)
    (p : Place) : u.forgetMutex b ((u.forgetMutex b m).move p) =
      u.forgetMutex b (m.move p) := by
  unfold Hidden.forgetMutex
  split <;> rfl

@[simp] theorem forgetMutex_unlock (u : Hidden) (b : Addr) (m : Mutex M) :
    u.forgetMutex b (u.forgetMutex b m).unlock = u.forgetMutex b m.unlock := by
  unfold Hidden.forgetMutex
  split <;> rfl

@[simp] theorem forgetMutex_unlockPanicking (u : Hidden) (b : Addr)
    (m : Mutex M) : u.forgetMutex b (u.forgetMutex b m).unlockPanicking =
      u.forgetMutex b m.unlockPanicking := by
  unfold Hidden.forgetMutex
  split <;> rfl

@[simp] theorem data_forgetMutex (u : Hidden) (b : Addr) (m : Mutex M) :
    (u.forgetMutex b m).data = m.data := by
  unfold Hidden.forgetMutex
  split <;> rfl

@[simp] theorem forgetMutex_mk (u : Hidden) (b : Addr) (m : Mutex M)
    (guard : Option Place) (data : M) :
    u.forgetMutex b ⟨guard, (u.forgetMutex b m).poisoned, data⟩ =
      u.forgetMutex b ⟨guard, m.poisoned, data⟩ := by
  unfold Hidden.forgetMutex
  split <;> rfl

@[simp] theorem forgetPc_self (u : Hidden) (i : CallId) (pc : Pc V R) :
    u.forgetPc i (u.forgetPc i pc) = u.forgetPc i pc := by
  unfold Hidden.forgetPc
  split
  · cases pc
    case ending outcome | done outcome => cases outcome <;> rfl
    all_goals rfl
  · rfl

@[simp] theorem forgetFrame_self (u : Hidden) (i : CallId) (f : Frame V R) :
    u.forgetFrame i (u.forgetFrame i f) = u.forgetFrame i f := by
  simp [Hidden.forgetFrame]

@[simp] theorem forget_self (s : State M FS V R) (u : Hidden) :
    (s.forget u).forget u = s.forget u := by
  simp [State.forget, State.overlay, Hidden.overlay, Function.comp_def]

@[simp] theorem forget_mutexAddress (s : State M FS V R) (u : Hidden) :
    (s.forget u).mutexAddress = s.mutexAddress := rfl

@[simp] theorem forget_mutexes (s : State M FS V R) (u : Hidden) (b : Addr) :
    (s.forget u).mutexes b = u.forgetMutex b (s.mutexes b) := rfl

@[simp] theorem forget_mutexExclusive (s : State M FS V R) (u : Hidden) :
    (s.forget u).mutexExclusive =
      { s.mutexExclusive with queuePoisoned := false } := rfl

@[simp] theorem forget_frames (s : State M FS V R) (u : Hidden)
    (i : CallId) :
    (s.forget u).frames i = (s.frames i).map (u.forgetFrame i) := rfl

@[simp] theorem forget_setMutex (s : State M FS V R) (u : Hidden) (b : Addr)
    (m : Mutex M) : (s.setMutex b m).forget u =
      (s.forget u).setMutex b (u.forgetMutex b m) :=
  overlay_setMutex _ s b m

@[simp] theorem forget_setExclusive (s : State M FS V R) (u : Hidden)
    (x : MutexExclusive V) : (s.setExclusive x).forget u =
      (s.forget u).setExclusive { x with queuePoisoned := false } := rfl

@[simp] theorem forget_setMutexAddress (s : State M FS V R) (u : Hidden)
    (address : Nat) : (s.setMutexAddress address).forget u =
      (s.forget u).setMutexAddress address := rfl

@[simp] theorem forget_setFrontState (s : State M FS V R) (u : Hidden)
    (frontState : FS) : (s.setFrontState frontState).forget u =
      (s.forget u).setFrontState frontState := rfl

@[simp] theorem forget_setFrame (s : State M FS V R) (u : Hidden)
    (i : CallId) (f : Frame V R) : (s.setFrame i f).forget u =
      (s.forget u).setFrame i (u.forgetFrame i f) :=
  overlay_setFrame _ s i f

@[simp] theorem forget_goto (s : State M FS V R) (u : Hidden) (i : CallId)
    (f : Frame V R) (pc : Pc V R) : (s.goto i f pc).forget u =
      (s.forget u).goto i f (u.forgetPc i pc) :=
  overlay_goto _ s i f rfl

@[simp] theorem goto_forgetFrame (s : State M FS V R) (u : Hidden)
    (i : CallId) (f : Frame V R) (pc : Pc V R) :
    s.goto i (u.forgetFrame i f) pc = s.goto i f pc := rfl

@[simp] theorem finish_forgetFrame (s : State M FS V R) (u : Hidden)
    (i : CallId) (f : Frame V R) (outcome : Outcome R) :
    s.finish i (u.forgetFrame i f) outcome = s.finish i f outcome := rfl

@[simp] theorem forgetPc_ending (u : Hidden) (i : CallId)
    (outcome : Outcome R) : u.forgetPc i (.ending outcome : Pc V R) =
      .ending (u.forgetOutcome i outcome) := by
  unfold Hidden.forgetPc Hidden.forgetOutcome
  split <;> rfl

@[simp] theorem forgetOutcome_self (u : Hidden) (i : CallId)
    (outcome : Outcome R) : u.forgetOutcome i (u.forgetOutcome i outcome) =
      u.forgetOutcome i outcome := by
  unfold Hidden.forgetOutcome
  split
  · cases outcome <;> rfl
  · rfl

theorem forgetPc_done (u : Hidden) (i : CallId) (outcome : Outcome R) :
    u.forgetPc i (.done outcome : Pc V R) =
      .done (u.forgetOutcome i outcome) := by
  unfold Hidden.forgetPc Hidden.forgetOutcome
  split <;> rfl

@[simp] theorem forget_finish (s : State M FS V R) (u : Hidden) (i : CallId)
    (f : Frame V R) (outcome : Outcome R) : (s.finish i f outcome).forget u =
      (s.forget u).finish i f (u.forgetOutcome i outcome) := by
  refine overlay_finish _ s i f ?_
  simp [Hidden.overlay, Hidden.forgetFrame, forgetPc_done]

@[simp] theorem forget_pushFrame (s : State M FS V R) (u : Hidden)
    (i : CallId) (f : Frame V R) : (s.pushFrame i f).forget u =
      (s.forget u).pushFrame i (u.forgetFrame i f) :=
  overlay_pushFrame _ s i f

@[simp] theorem forgetFrame_wake (u : Hidden) (i : CallId) (f : Frame V R)
    (wake : TaskState → TaskState) :
    u.forgetFrame i (f.wake wake) = (u.forgetFrame i f).wake wake := by
  simp only [Hidden.forgetFrame, Hidden.forgetPc, Frame.wake, Frame.mk.injEq,
    true_and]
  split
  · cases f.pc <;> rfl
  · rfl

@[simp] theorem forget_wakeNext (s : State M FS V R) (u : Hidden)
    (wake : TaskState → TaskState) :
    (s.wakeNext wake).forget u = (s.forget u).wakeNext wake := by
  cases hq : s.mutexExclusive.queue with
  | nil =>
      rw [wakeNext_nil s wake hq, wakeNext_nil (s.forget u) wake hq]
      rfl
  | cons task rest =>
      rw [wakeNext_cons s wake hq, wakeNext_cons (s.forget u) wake hq]
      simp only [State.forget, State.overlay, State.mk.injEq, true_and,
        and_true]
      funext j
      rcases eq_or_ne j task.state with rfl | hj
      · simp [Hidden.overlay, Function.comp_def]
      · simp [hj]

/-! ## Steps -/

/-- Whether a query is before its access to `queue_poisoned`. -/
def Pc.isQuery : Pc V R → Bool
  | .queryAssert => true
  | .queryLock => true
  | .queryAccess _ => true
  | _ => false

/-- The call is one of `is_queue_poisoned` that has not read the flag. -/
def Frame.Asks (f : Frame V R) : Prop :=
  f.pc.isQuery = true ∧ f.call.method ≠ .clearQueuePoison

@[simp] theorem lock_forgetMutex (u : Hidden) (b : Addr) (m : Mutex M)
    (p : Place) :
    (u.forgetMutex b m).lock p = (m.lock p).map (u.forgetMutex b) := by
  obtain ⟨guard, poisoned, data⟩ := m
  unfold Hidden.forgetMutex
  cases u.mutex b <;> cases guard <;> rfl

theorem assertQueueGood_ignored (x : MutexExclusive V) :
    assertQueueGood ⟨false, false⟩ x = .ok () := rfl

theorem assertMutexUnpoisoned_ignored (m : Mutex M) :
    assertMutexUnpoisoned ⟨false, false⟩ m = .ok () := rfl

theorem unwrapPoison_ignored (poisoned : Bool) :
    unwrapPoison poisoned false = .ok () := rfl

theorem forgetPc_queryReturn (hanswer : u.answer i = true) (g : Addr)
    (b b' : Option Bool) : u.forgetPc i (.queryReturn g b : Pc V R) =
      u.forgetPc i (.queryReturn g b') := by
  simp [Hidden.forgetPc, Pc.forgetAnswer, hanswer]

theorem stepFrame_forget (hoptions : cfg.options = ⟨false, false⟩)
    (hasks : f.Asks → u.answer i = true) :
    (stepFrame cfg (s.forget u) i (u.forgetFrame i f)).map u.forgetResult =
      (stepFrame cfg s i f).map u.forgetResult := by
  obtain ⟨c, taskState, pc⟩ := f
  cases pc
  case done outcome =>
    simp [stepFrame, Hidden.forgetFrame, forgetPc_done]
  case ending outcome =>
    simp [stepFrame, Hidden.forgetFrame, Hidden.forgetResult]
    rfl
  case queryReturn g answer =>
    cases hanswer : u.answer i with
    | false =>
      simp [stepFrame, Hidden.forgetFrame, Hidden.forgetPc, hanswer,
        Hidden.forgetResult]
    | true =>
      simp [stepFrame, Hidden.forgetFrame, Hidden.forgetPc, hanswer,
        Pc.forgetAnswer, Hidden.forgetResult, Hidden.forgetEvent, Event.call,
        Event.forgetAnswer, Outcome.forgetAnswer]
      rfl
  all_goals
    simp only [stepFrame, Hidden.forgetFrame, Hidden.forgetPc,
      Pc.forgetAnswer, ite_self, hoptions, forget_mutexes,
      forget_mutexAddress, lock_forgetMutex, assertQueueGood_ignored,
      assertMutexUnpoisoned_ignored, unwrapPoison_ignored]
  case lock value | relock | reLock | errLock | queryLock =>
    cases (s.mutexes _).lock (.call i) <;> simp [Hidden.forgetResult]
  case assertMutexGood | queryAssert =>
    split <;> simp [Hidden.forgetResult]
  case tryAcquireFrontFast =>
    unfold MutexExclusive.tryAcquireFrontFast
    simp only [forget_mutexExclusive]
    by_cases hlocked : s.mutexExclusive.frontLocked = true <;>
      simp [Hidden.forgetResult, hlocked]
  case testFront =>
    split <;> simp [Hidden.forgetResult]
  case popFront =>
    unfold MutexExclusive.popFront
    simp only [forget_mutexExclusive]
    cases s.mutexExclusive.queue <;> simp [Hidden.forgetResult]
  case assertQueueGood g result =>
    cases result <;> simp [Hidden.forgetResult]
  case returning =>
    split <;> simp [Hidden.forgetResult]
  case queryAccess g =>
    split
    · simp [Hidden.forgetResult]
    · rename_i hmethod
      have hanswer := hasks ⟨rfl, hmethod⟩
      simp [Hidden.forgetResult, forgetPc_queryReturn hanswer g _ none]
  all_goals first | rfl | simp [Hidden.forgetResult, MutexExclusive.pushBack]

theorem pop_forget (h : QueueHandle) (x : MutexExclusive V) :
    h.pop { x with queuePoisoned := false } =
      ((h.pop x).1, (h.pop x).2.1,
        { (h.pop x).2.2 with queuePoisoned := false }) := by
  unfold QueueHandle.pop
  rcases x.queue[h.nextIdx]? with _ | ⟨owner, _ | value⟩ <;> rfl

theorem stepCallback_forget {h : QueueHandle} {op : CallbackOp M FS R}
    (hop : op ≠ .isQueuePoisoned) :
    (stepCallback (s.forget u) i (u.forgetFrame i f) h op).map u.forgetResult =
      (stepCallback s i f h op).map u.forgetResult := by
  unfold stepCallback
  split
  · cases op
    case isQueuePoisoned => exact absurd rfl hop
    case peek =>
      simp only [forget_mutexExclusive, QueueHandle.peek]
      split <;> simp [Hidden.forgetResult]
    case pop =>
      simp only [forget_mutexExclusive, pop_forget]
      rcases h.pop s.mutexExclusive with ⟨_ | _ | ⟨owner, value⟩, h', x⟩ <;>
        simp [Hidden.forgetResult]
    all_goals first | rfl | simp [Hidden.forgetResult]
  · simp [Hidden.forgetResult]

/-- Only a query that has its answer, or has left, loses something. -/
theorem forgetFrame_cases (u : Hidden) (i : CallId) (f : Frame V R) :
    u.forgetFrame i f = f ∨
      (∃ g b b', f.pc = .queryReturn g b ∧
        (u.forgetFrame i f).pc = .queryReturn g b') ∨
      (∃ o o', f.pc = .ending o ∧ (u.forgetFrame i f).pc = .ending o') ∨
      ∃ o o', f.pc = .done o ∧ (u.forgetFrame i f).pc = .done o' := by
  obtain ⟨c, taskState, pc⟩ := f
  unfold Hidden.forgetFrame Hidden.forgetPc
  split
  · cases pc
    case queryReturn g b => exact .inr (.inl ⟨g, b, none, rfl, rfl⟩)
    case ending outcome => exact .inr (.inr (.inl ⟨outcome, _, rfl, rfl⟩))
    case done outcome => exact .inr (.inr (.inr ⟨outcome, _, rfl, rfl⟩))
    all_goals exact .inl rfl
  · exact .inl rfl

theorem inUserCode_forget (s : State M FS V R) (u : Hidden) (t : ThreadId) :
    (s.forget u).inUserCode t = s.inUserCode t :=
  overlay_inUserCode _ s t

theorem running_forget (s : State M FS V R) (u : Hidden) (i : CallId)
    (f : Frame V R) :
    (s.forget u).running i (u.forgetFrame i f) = s.running i f :=
  overlay_running _ s i f

theorem startCall_forget (s : State M FS V R) (u : Hidden) (i : CallId)
    (c : Call V) : ((s.forget u).startCall i c).map (fun s' => s'.forget u) =
      (s.startCall i c).map fun s' => s'.forget u := by
  unfold startCall
  cases hm : c.method with
  | process guard value =>
      simp only [forget_mutexes, guard_forgetMutex]
      split <;> simp
  | lockAndProcess value | isQueuePoisoned | clearQueuePoison => simp

/-- What a step does to the rest of the state, and the events that it shows,
depends on the rest of the state only. -/
theorem step_forget (hoptions : cfg.options = ⟨false, false⟩)
    (hasks : ∀ i f, s.frames i = some f → f.Asks → u.answer i = true)
    (hread : ∀ i, a ≠ .callback i .isQueuePoisoned) :
    (step cfg (s.forget u) a).map u.forgetResult =
      (step cfg s a).map u.forgetResult := by
  cases a with
  | call i c =>
      simp only [step, forget_frames, Option.isNone_map, inUserCode_forget]
      split
      · have hresult : ∀ o : Option (State M FS V R),
            (o.map fun s' => (s', [])).map u.forgetResult =
              (o.map fun s' => s'.forget u).map fun s' => (s', []) := by
          intro o
          cases o <;> rfl
        rw [hresult, hresult, startCall_forget]
      · rfl
  | step i =>
      simp only [step, forget_frames]
      cases hf : s.frames i with
      | none => rfl
      | some f =>
          simp only [Option.map_some, running_forget]
          split
          · exact stepFrame_forget hoptions (hasks i f hf)
          · rfl
  | callback i op =>
      have hop : op ≠ .isQueuePoisoned := fun heq => hread i (heq ▸ rfl)
      simp only [step, forget_frames]
      cases hf : s.frames i with
      | none => rfl
      | some f =>
          simp only [Option.map_some, running_forget]
          split
          · rcases forgetFrame_cases u i f with hsame | ⟨g, b, b', hpc, hpc'⟩ |
              ⟨o, o', hpc, hpc'⟩ | ⟨o, o', hpc, hpc'⟩
            · have hcallback := fun h =>
                stepCallback_forget (s := s) (u := u) (i := i) (f := f)
                  (h := h) hop
              simp only [hsame] at hcallback ⊢
              split
              · exact hcallback _
              · simp [Hidden.forgetResult]
              · simp [Hidden.forgetResult]
              · rfl
            all_goals simp only [hpc, hpc']
          · rfl
  | spuriousWake i =>
      simp only [step, forget_frames]
      cases hf : s.frames i with
      | none => rfl
      | some f =>
          rcases forgetFrame_cases u i f with hsame | ⟨g, b, b', hpc, hpc'⟩ |
            ⟨o, o', hpc, hpc'⟩ | ⟨o, o', hpc, hpc'⟩
          · simp only [Option.map_some, hsame]
            split <;> simp [Hidden.forgetResult]
          all_goals simp only [Option.map_some, hpc, hpc']
  | lock t b =>
      simp only [step, inUserCode_forget, forget_mutexes, lock_forgetMutex]
      split
      · cases (s.mutexes b).lock (.user t) <;> simp [Hidden.forgetResult]
      · rfl
  | unlock t b =>
      simp only [step, inUserCode_forget, forget_mutexes, guard_forgetMutex]
      split <;> simp [Hidden.forgetResult]
  | poison b => simp [step, Hidden.forgetResult]
  | clearPoison b => simp [step, Hidden.forgetResult]
  | releaseLeaked b =>
      simp only [step, forget_mutexes, guard_forgetMutex]
      split <;> simp [Hidden.forgetResult]

end Forget

/-! ## Two runs -/

/-- Two states agree, but for `queue_poisoned` and for what may differ. -/
structure State.Agree (u : Hidden) (s t : State M FS V R) : Prop where
  mutexAddress : s.mutexAddress = t.mutexAddress
  frontExclusive : s.frontExclusive = t.frontExclusive
  frontLocked : s.mutexExclusive.frontLocked = t.mutexExclusive.frontLocked
  queue : s.mutexExclusive.queue = t.mutexExclusive.queue
  guard : ∀ b, (s.mutexes b).guard = (t.mutexes b).guard
  data : ∀ b, (s.mutexes b).data = (t.mutexes b).data
  poisoned : ∀ b, u.mutex b = false →
    (s.mutexes b).poisoned = (t.mutexes b).poisoned
  frames : ∀ i, u.answer i = false → s.frames i = t.frames i
  answers : ∀ i, (s.frames i).map Frame.forgetAnswer =
    (t.frames i).map Frame.forgetAnswer
  threads : s.threads = t.threads

/-- A schedule that reads `queue_poisoned` for nobody but the calls of
`is_queue_poisoned` whose answers may differ.  A callback does not read it. -/
structure Hidden.Covers (u : Hidden) (s : State M FS V R)
    (acts : List (Action M FS V R)) : Prop where
  callback : ∀ i, .callback i .isQueuePoisoned ∉ acts
  call : ∀ i c, .call i c ∈ acts → c.method = .isQueuePoisoned →
    u.answer i = true
  frames : ∀ i f, s.frames i = some f → f.Asks → u.answer i = true

section TwoRuns

variable {u : Hidden} {acts : List (Action M FS V R)}
  {log log' evs : List (Event V R)}

theorem forgetMutex_eq_iff {b : Addr} {m m' : Mutex M} :
    u.forgetMutex b m = u.forgetMutex b m' ↔ m.guard = m'.guard ∧
      m.data = m'.data ∧ (u.mutex b = false → m.poisoned = m'.poisoned) := by
  obtain ⟨guard, poisoned, data⟩ := m
  obtain ⟨guard', poisoned', data'⟩ := m'
  unfold Hidden.forgetMutex
  cases u.mutex b <;> simp
  tauto

theorem map_forgetFrame_eq_iff {i : CallId} {o o' : Option (Frame V R)} :
    o.map (u.forgetFrame i) = o'.map (u.forgetFrame i) ↔
      (u.answer i = false → o = o') ∧
        o.map Frame.forgetAnswer = o'.map Frame.forgetAnswer := by
  cases hanswer : u.answer i with
  | false =>
      have hid : u.forgetFrame i = (id : Frame V R → Frame V R) := by
        funext f
        simp [Hidden.forgetFrame, Hidden.forgetPc, hanswer]
      rw [hid, Option.map_id, id, id]
      exact ⟨fun h => ⟨fun _ => h, congrArg _ h⟩, fun h => h.1 rfl⟩
  | true =>
      have hforget : u.forgetFrame i =
          (Frame.forgetAnswer : Frame V R → Frame V R) := by
        funext f
        simp [Hidden.forgetFrame, Hidden.forgetPc, hanswer,
          Frame.forgetAnswer]
      simp [hforget]

/-- States agree when they are equal without what may differ. -/
theorem agree_iff : s.Agree u t ↔ s.forget u = t.forget u := by
  constructor
  · intro h
    simp only [State.forget, State.overlay, Hidden.overlay, State.mk.injEq]
    refine ⟨h.mutexAddress, h.frontExclusive, ?_, ?_, ?_, h.threads⟩
    · rw [h.frontLocked, h.queue]
    · funext b
      exact forgetMutex_eq_iff.mpr ⟨h.guard b, h.data b, h.poisoned b⟩
    · funext i
      exact map_forgetFrame_eq_iff.mpr ⟨h.frames i, h.answers i⟩
  · intro h
    simp only [State.forget, State.overlay, Hidden.overlay, State.mk.injEq,
      MutexExclusive.mk.injEq] at h
    obtain ⟨haddress, hfront, ⟨hlocked, -, hqueue⟩, hmutexes, hframes,
      hthreads⟩ := h
    have hmutex := fun b => forgetMutex_eq_iff.mp (congrFun hmutexes b)
    have hframe := fun i => map_forgetFrame_eq_iff.mp (congrFun hframes i)
    exact ⟨haddress, hfront, hlocked, hqueue, fun b => (hmutex b).1,
      fun b => (hmutex b).2.1, fun b => (hmutex b).2.2,
      fun i => (hframe i).1, fun i => (hframe i).2, hthreads⟩

/-- The state with other values of `queue_poisoned` and of the poison flag of
one mutex. -/
def State.withFlags (s : State M FS V R) (queuePoisoned : Bool) (b : Addr)
    (poisoned : Bool) : State M FS V R :=
  (s.setExclusive { s.mutexExclusive with
    queuePoisoned := queuePoisoned }).setMutex b
      { s.mutexes b with poisoned := poisoned }

theorem State.agree_withFlags (s : State M FS V R) (queuePoisoned : Bool)
    (b : Addr) (poisoned : Bool) :
    s.Agree ⟨fun b' => b' = b, fun _ => false⟩
      (s.withFlags queuePoisoned b poisoned) := by
  refine agree_iff.mpr ?_
  have hmutex : ∀ u : Hidden, u.mutex b = true →
      u.forgetMutex b { s.mutexes b with poisoned := poisoned } =
        u.forgetMutex b (s.mutexes b) := by
    intro u hu
    simp [Hidden.forgetMutex, hu]
  rw [State.withFlags, forget_setMutex, hmutex _ (by simp),
    forget_setExclusive]
  simp [State.forget, State.overlay, Hidden.overlay, setMutex, setExclusive]

theorem asks_forgetFrame {i : CallId} {f : Frame V R} :
    (u.forgetFrame i f).Asks ↔ f.Asks := by
  have hquery : (u.forgetPc i f.pc).isQuery = f.pc.isQuery := by
    unfold Hidden.forgetPc
    split
    · cases f.pc <;> rfl
    · rfl
  rw [Frame.Asks, Frame.Asks, Hidden.forgetFrame, hquery]

/-- Two states that agree have the same calls of `is_queue_poisoned` that have
not read the flag. -/
theorem State.Agree.asks (h : s.Agree u t)
    (hasks : ∀ i f, s.frames i = some f → f.Asks → u.answer i = true) :
    ∀ i f, t.frames i = some f → f.Asks → u.answer i = true := by
  intro i f hf hasksf
  have hframe : (s.frames i).map (u.forgetFrame i) =
      (t.frames i).map (u.forgetFrame i) :=
    map_forgetFrame_eq_iff.mpr ⟨h.frames i, h.answers i⟩
  rw [hf, Option.map_some, Option.map_eq_some_iff] at hframe
  obtain ⟨f₀, hf₀, heq⟩ := hframe
  refine hasks i f₀ hf₀ ?_
  rw [← asks_forgetFrame (u := u) (i := i), heq]
  exact asks_forgetFrame.mpr hasksf

@[simp] theorem isQuery_notifyOne (pc : Pc V R) :
    pc.notifyOne.isQuery = pc.isQuery := by
  cases pc <;> rfl

/-- A call that is to read the flag was to read it before, or has just been
started. -/
theorem Transition.asks_self (ht : Transition cfg s a s' evs) {i : CallId}
    {f : Frame V R} (hi : a.call? = some i) (hf : s'.frames i = some f)
    (hasks : f.Asks) : (∃ f₀, s.frames i = some f₀ ∧ f₀.Asks) ∨
      ∃ c, a = .call i c ∧ c.method = .isQueuePoisoned := by
  obtain ⟨hquery, hmethod⟩ := hasks
  cases ht <;> cases hi
  case callOther c _ _ _ =>
    obtain rfl := frame_of_update hf
    refine Or.inr ⟨c, rfl, ?_⟩
    cases hm : c.method <;> simp_all [Method.entry, Pc.isQuery]
  case queryGood hat =>
    obtain rfl := frame_of_update hf
    exact Or.inl ⟨_, hat.frame, by rw [hat.pc]; rfl, hmethod⟩
  case queryLock hat =>
    obtain rfl := frame_of_update hf
    exact Or.inl ⟨_, hat.frame, by rw [hat.pc]; rfl, hmethod⟩
  case handOff =>
    rw [pc_of_handOff hf rfl] at hquery
    cases hquery
  case errHandOff =>
    rw [pc_of_handOff hf rfl] at hquery
    cases hquery
  all_goals
    first
    | (obtain rfl := frame_of_update hf; cases hquery)
    | (rename_i hin
       rw [hin.pc_eq hf] at hquery
       cases hquery)

theorem Transition.asks (ht : Transition cfg s a s' evs)
    (hcall : ∀ i c, a = .call i c → c.method = .isQueuePoisoned →
      u.answer i = true)
    (hasks : ∀ i f, s.frames i = some f → f.Asks → u.answer i = true) :
    ∀ i f, s'.frames i = some f → f.Asks → u.answer i = true := by
  intro i f hf hasksf
  by_cases hi : a.call? = some i
  · rcases ht.asks_self hi hf hasksf with ⟨f₀, hf₀, hasks₀⟩ | ⟨c, ha, hm⟩
    · exact hasks i f₀ hf₀ hasks₀
    · exact hcall i c ha hm
  · obtain ⟨f₀, hf₀, hc, hquery⟩ := ht.pc_before hi hf
      (q := fun pc => pc.isQuery = true) (by simp) hasksf.1
    exact hasks i f₀ hf₀ ⟨hquery, hc ▸ hasksf.2⟩

/-- The queries that a state knows of were started on the way to it. -/
theorem Hidden.Covers.of_run {frontState : FS} {data : Addr → M}
    {acts₀ : List (Action M FS V R)} {log : List (Event V R)}
    (h : Run cfg frontState data acts₀ log s)
    (hcallback : ∀ i, .callback i .isQueuePoisoned ∉ acts)
    (hcall : ∀ i c, .call i c ∈ acts₀ ++ acts → c.method = .isQueuePoisoned →
      u.answer i = true) : u.Covers s acts := by
  refine ⟨hcallback, fun i c hc => hcall i c (List.mem_append_right _ hc), ?_⟩
  induction h with
  | nil =>
      intro i f hf
      cases hf
  | @snoc acts₀ _ _ a _ _ _ _ hstep ih =>
      refine (transition_of_step hstep).asks ?_ (ih ?_)
      · rintro i c rfl
        exact hcall i c (by simp)
      · intro i c hc
        refine hcall i c ?_
        rcases List.mem_append.mp hc with hc | hc <;> simp [hc]

/-- A step from a state is matched by a step of the same action from every
state that agrees. -/
theorem State.Agree.step (hoptions : cfg.options = ⟨false, false⟩)
    (h : s.Agree u t)
    (hasks : ∀ i f, s.frames i = some f → f.Asks → u.answer i = true)
    (hread : ∀ i, a ≠ .callback i .isQueuePoisoned)
    (hstep : step cfg s a = some (s', evs)) :
    ∃ t' evs', ContentionQueue.step cfg t a = some (t', evs') ∧
      s'.Agree u t' ∧ evs.map u.forgetEvent = evs'.map u.forgetEvent := by
  have hs := step_forget hoptions hasks hread
  have ht := step_forget hoptions (h.asks hasks) hread
  rw [agree_iff.mp h, ht, hstep, Option.map_some, Option.map_eq_some_iff] at hs
  obtain ⟨⟨t', evs'⟩, htstep, hresult⟩ := hs
  obtain ⟨hstate, hevs⟩ := Prod.mk.inj hresult
  exact ⟨t', evs', htstep, agree_iff.mpr hstate.symm, hevs.symm⟩

/-- A run from a state is matched by a run of the same schedule from every
state that agrees. -/
theorem State.Agree.exec (hoptions : cfg.options = ⟨false, false⟩)
    (h : s.Agree u t) (hcovers : u.Covers s acts)
    (hrun : (machine M FS V R cfg).Exec (fun _ _ => True) s acts log s') :
    ∃ log' t', (machine M FS V R cfg).Exec (fun _ _ => True) t acts log' t' ∧
      s'.Agree u t' ∧ log.map u.forgetEvent = log'.map u.forgetEvent := by
  have hrun := Machine.Exec.lockstep
    (R := fun s t : State M FS V R => s.Agree u t ∧
      ∀ i f, s.frames i = some f → f.Asks → u.answer i = true)
    (f := u.forgetEvent)
    (P := fun a => (∀ i, a ≠ .callback i .isQueuePoisoned) ∧
      ∀ i c, a = .call i c → c.method = .isQueuePoisoned → u.answer i = true)
    ?_ ⟨h, hcovers.frames⟩ ?_ hrun
  · obtain ⟨log', t', hrun', ⟨hagree, -⟩, hlog⟩ := hrun
    exact ⟨log', t', hrun', hagree, hlog⟩
  · rintro s t a s' evs ⟨hagree, hasks⟩ ⟨hread, hcall⟩ hstep
    obtain ⟨t', evs', hstep', hagree', hevs⟩ :=
      hagree.step hoptions hasks hread hstep
    exact ⟨t', evs', hstep',
      ⟨hagree', (transition_of_step hstep).asks hcall hasks⟩, hevs⟩
  · intro a ha
    refine ⟨?_, ?_⟩
    · rintro i rfl
      exact hcovers.callback i ha
    · rintro i c rfl
      exact hcovers.call i c ha

theorem State.Agree.symm (h : s.Agree u t) : t.Agree u s :=
  agree_iff.mpr (agree_iff.mp h).symm

/-- Ignored poison has no influence.  Two states that agree have the same
schedules, and a schedule leads to states that agree and shows the same
events. -/
theorem poison_ignored (hoptions : cfg.options = ⟨false, false⟩)
    (hagree : s.Agree u t) (hcovers : u.Covers s acts) :
    ((∃ log s', (machine M FS V R cfg).Exec (fun _ _ => True) s acts log s') ↔
      ∃ log t', (machine M FS V R cfg).Exec (fun _ _ => True) t acts log t') ∧
    ∀ log s' log' t',
      (machine M FS V R cfg).Exec (fun _ _ => True) s acts log s' →
      (machine M FS V R cfg).Exec (fun _ _ => True) t acts log' t' →
        s'.Agree u t' ∧ log.map u.forgetEvent = log'.map u.forgetEvent := by
  have hcovers' : u.Covers t acts :=
    ⟨hcovers.callback, hcovers.call, hagree.asks hcovers.frames⟩
  refine ⟨⟨?_, ?_⟩, ?_⟩
  · rintro ⟨log, s', hrun⟩
    obtain ⟨log', t', hrun', -⟩ := hagree.exec hoptions hcovers hrun
    exact ⟨log', t', hrun'⟩
  · rintro ⟨log, t', hrun⟩
    obtain ⟨log', s', hrun', -⟩ := hagree.symm.exec hoptions hcovers' hrun
    exact ⟨log', s', hrun'⟩
  · intro log s' log' t' hrun hrun'
    obtain ⟨log₂, t₂, hrun₂, hagree', hlog⟩ :=
      hagree.exec hoptions hcovers hrun
    obtain ⟨rfl, rfl⟩ := hrun'.unique hrun₂
    exact ⟨hagree', hlog⟩

end TwoRuns

/-- After `pushedRun`, call 0 is in its callback and call 1 has pushed its
task. -/
def pushedRun : List (Action Unit Nat Nat Nat) :=
  [.call 0 ⟨0, 1, .lockAndProcess 10⟩, .step 0, .step 0, .step 0, .step 0,
    .callback 0 .unlocked, .call 1 ⟨1, 1, .lockAndProcess 20⟩, .step 1,
    .step 1, .step 1, .step 1, .step 1, .callback 0 .endUnlocked, .step 0]

/-- Call 0 pops the value of call 1 and unwinds.  It gets on when the guard
that it left behind is given back, and so does call 1. -/
def unwoundRun : List (Action Unit Nat Nat Nat) :=
  [.callback 0 .pop, .callback 0 .clearQueuePoison, .callback 0 .unwind,
    .releaseLeaked 1, .step 0, .step 0, .step 0, .poison 1, .step 1, .step 1,
    .step 1, .step 1, .step 1, .step 1]

/-- The state after `pushedRun`. -/
def pushedState : State Unit Nat Nat Nat :=
  ((run ⟨⟨false, false⟩, true⟩ 0 (fun _ => ()) pushedRun).get (by decide)).1

/-- When the two flags are set after `pushedRun`, `unwoundRun` goes on in the
same way. -/
theorem poison_ignored_unwound :
    ∃ log t', (machine Unit Nat Nat Nat ⟨⟨false, false⟩, true⟩).Exec
      (fun _ _ => True) (pushedState.withFlags true 1 true) unwoundRun log
        t' := by
  have hpushed : Run ⟨⟨false, false⟩, true⟩ 0 (fun _ => ()) pushedRun _
      pushedState := Run.of_run (by decide)
  have hunwound : (machine Unit Nat Nat Nat ⟨⟨false, false⟩, true⟩).Exec
      (fun _ _ => True) pushedState unwoundRun _ _ :=
    Machine.Exec.of_isSome (by decide)
  have hcovers : Hidden.Covers ⟨fun b => b = 1, fun _ => false⟩ pushedState
      unwoundRun := by
    refine .of_run hpushed (by simp [unwoundRun]) ?_
    intro i c hc
    simp only [pushedRun, unwoundRun, List.cons_append, List.nil_append,
      List.mem_cons, List.not_mem_nil, Action.call.injEq, reduceCtorEq,
      false_or, or_false] at hc
    rcases hc with ⟨-, rfl⟩ | ⟨-, rfl⟩ <;> simp
  exact (poison_ignored rfl (pushedState.agree_withFlags true 1 true)
    hcovers).1.mp ⟨_, _, hunwound⟩

end ContentionQueue
