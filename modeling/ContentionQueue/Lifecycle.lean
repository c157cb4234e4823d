import ContentionQueue.Accounting
import ContentionQueue.Lib.Protocol

/-!
# The life cycle of a call

The events of one call come in an order that depends on its method only.

* `lifecycle` is the protocol of a call: it is admitted or turned away, it
  arrives by the fast path or by the queue, its callback runs on its own value
  or it has been merged, and it ends with the outcome that its last events
  announce.
* `Pc.InPhase` says in which phases a call at a program counter can be.
* `call_lifecycle` is the result: the events of every call of every run follow
  the protocol, whatever the other calls do in between.
-/

namespace ContentionQueue

open Machines State HandOff

variable {M FS V R : Type} {cfg : Config} {s s' : State M FS V R}
  {a : Action M FS V R} {evs log : List (Event V R)}
  {acts : List (Action M FS V R)} {frontState : FS} {data : Addr → M}

/-! ## The protocol -/

/-- The phases of a call. -/
inductive Phase (R : Type) where
  /-- Before `assert_mutex_good` has returned. -/
  | start
  /-- After `assert_mutex_good`. -/
  | admitted
  /-- Its task is in the queue. -/
  | waiting
  /-- It has popped its task from the queue. -/
  | called
  /-- It has acquired front permission by the fast path. -/
  | fast
  /-- Its callback runs. -/
  | callback
  /-- It is going to end with an outcome. -/
  | leaving (outcome : Outcome R)
  /-- It has left, and ends with the outcome. -/
  | ended (outcome : Outcome R)
  deriving DecidableEq, Repr

namespace Phase

/-- The phases between the acquisition of front permission and the callback. -/
def isFront : Phase R → Bool
  | fast => true
  | called => true
  | _ => false

/-- The steps of a call of `method`. -/
inductive Step (method : Method V) : Phase R → Event V R → Phase R → Prop where
  | mutexGood (i) : Step method start (.mutexGood i) admitted
  | mutexMismatch (i) :
      Step method start (.leave i (.unwound .mutexMismatch))
        (ended (.unwound .mutexMismatch))
  | poisonedLock (i v) (hmethod : method = .lockAndProcess v) :
      Step method start (.leave i (.unwound .poisonedLock))
        (ended (.unwound .poisonedLock))
  | flip (i v) (hvalue : method.value? = some v) :
      Step method admitted (.flip i v) fast
  | push (i v) (hvalue : method.value? = some v) :
      Step method admitted (.push i v) waiting
  | popFront (i) : Step method waiting (.popFront i) called
  /-- The value is dropped, when no handle has popped it. -/
  | queuePoisoned (i value) (hvalue : value = none ∨ value = method.value?) :
      Step method called (.assertFailed i .queuePoisoned value)
        (leaving (.unwound .queuePoisoned))
  | mutexPoisoned (k : Phase R) (i) (hk : k.isFront = true) :
      Step method k (.assertFailed i .mutexPoisoned method.value?)
        (leaving (.unwound .mutexPoisoned))
  | call (k : Phase R) (i v) (hk : k.isFront = true)
      (hvalue : method.value? = some v) : Step method k (.callback i v) callback
  | peek (i v) : Step method callback (.peek i v) callback
  | pop (i o v) : Step method callback (.pop i o v) callback
  | popNone (i) : Step method callback (.popNone i) callback
  | isQueuePoisoned (i b) : Step method callback (.isQueuePoisoned i b) callback
  | callbackReturn (i r) : Step method callback (.callbackReturn i r)
      (leaving (.returned (.processed r)))
  | callbackUnwind (i) :
      Step method callback (.callbackUnwind i) (leaving (.unwound .task))
  | processedElsewhere (i) :
      Step method called (.leave i (.returned .processedElsewhere))
        (ended (.returned .processedElsewhere))
  | processingPanicked (i) :
      Step method called (.leave i (.returned .processingPanicked))
        (ended (.returned .processingPanicked))
  | answered (i answer) (hmethod : method = .isQueuePoisoned) :
      Step method admitted (.leave i (.answered (some answer)))
        (ended (.answered (some answer)))
  | cleared (i) (hmethod : method = .clearQueuePoison) :
      Step method admitted (.leave i (.answered none)) (ended (.answered none))
  | leave (i outcome) :
      Step method (leaving outcome) (.leave i outcome) (ended outcome)

end Phase

/-- The protocol of a call of `method`. -/
def lifecycle (R : Type) (method : Method V) :
    Protocol (Phase R) (Event V R) where
  step := Phase.Step method

/-- Whether a call of `method` at a program counter can be in a phase. -/
def Pc.InPhase (method : Method V) : Pc V R → Phase R → Prop
  | .lock v, k => k = .start ∧ method = .lockAndProcess v
  | .assertMutexGood _ _, k => k = .start
  | .tryAcquireFrontFast _ _, k => k = .admitted
  | .pushBack _ _, k => k = .admitted
  | .wait _, k => k = .waiting
  | .asleep _, k => k = .waiting
  | .relock _, k => k = .waiting
  | .testFront _, k => k = .waiting
  | .popFront _ _, k => k = .waiting
  | .assertQueueGood _ _, k => k = .called
  | .assertMutexUnpoisoned _ _, k => k.isFront = true
  | .callback _, k => k = .callback
  | .unlocked _, k => k = .callback
  | .reLock _, k => k = .callback
  | .handOff _ (.processed r), k => k = .leaving (.returned (.processed r))
  | .handOff _ _, k => k = .called
  | .returning _ (.processed r), k => k = .leaving (.returned (.processed r))
  | .returning _ _, k => k = .called
  | .errLock p, k => k = .leaving (.unwound p)
  | .errHandOff _ p, k => k = .leaving (.unwound p)
  | .resumeUnwind _ p, k => k = .leaving (.unwound p)
  | .queryAssert, k => k = .start ∧ method.value? = none
  | .queryLock, k => k = .admitted ∧ method.value? = none
  | .queryAccess _, k => k = .admitted ∧ method.value? = none
  | .queryReturn _ (some _), k => k = .admitted ∧ method = .isQueuePoisoned
  | .queryReturn _ none, k => k = .admitted ∧ method = .clearQueuePoison
  | .ending outcome, k => k = .ended outcome
  | .done outcome, k => k = .ended outcome
  | .undefined _, _ => False

/-- The events of call `i` follow the protocol, to a phase that fits the program
counter. -/
def Frame.Lives (log : List (Event V R)) (i : CallId) (f : Frame V R) : Prop :=
  ∃ k, (lifecycle R f.call.method).Run .start
      (log.filter fun e => e.call = i) k ∧
    f.pc.InPhase f.call.method k

section Lives

variable {i : CallId} {f : Frame V R} {pc pc' : Pc V R} {k : Phase R}
  {l : Line CallId V}

theorem inPhase_notifyOne {method : Method V} (h : pc.InPhase method k) :
    pc.notifyOne.InPhase method k := by
  cases pc <;> exact h

theorem inPhase_entry (method : Method V) :
    (method.entry : Pc V R).InPhase method .start := by
  cases method <;> simp [Method.entry, Pc.InPhase, Method.value?]

theorem eq_isQueuePoisoned {method : Method V} (hvalue : method.value? = none)
    (hmethod : method ≠ .clearQueuePoison) : method = .isQueuePoisoned := by
  cases method
  case isQueuePoisoned => rfl
  case clearQueuePoison => exact absurd rfl hmethod
  all_goals cases hvalue

/-- The value that a call has with its front permission is its own. -/
theorem Refines.value_of_front (hR : Refines log s l)
    (hpast : CallPast log i f) (hat : s.At i f pc) {v : V}
    (hstage : pc.stage f.taskState = .front (some v)) :
    f.call.method.value? = some v := by
  refine hpast.value v ?_
  rw [hR.history.arrivals]
  refine l.kept.subset ?_
  simp [hR.front hat hstage, Baton.own]

/-- The events of a step of another call do not count. -/
theorem Frame.Lives.append (h : f.Lives log i) (hevs : ∀ e ∈ evs, e.call ≠ i) :
    f.Lives (log ++ evs) i := by
  obtain ⟨k, hrun, hk⟩ := h
  refine ⟨k, ?_, hk⟩
  have hnone : evs.filter (fun e => e.call = i) = [] := by
    rw [List.filter_eq_nil_iff]
    simpa using hevs
  rwa [List.filter_append, hnone, List.append_nil]

/-- A block of a call without an event. -/
theorem Frame.Lives.quiet {f' : Frame V R} (h : f.Lives log i)
    (hcall : f'.call = f.call)
    (hpc : ∀ k, f.pc.InPhase f.call.method k →
      f'.pc.InPhase f.call.method k) : f'.Lives (log ++ []) i := by
  obtain ⟨k, hrun, hk⟩ := h
  rw [List.append_nil]
  exact ⟨k, by rwa [hcall], by rw [hcall]; exact hpc k hk⟩

/-- A block of a call with an event. -/
theorem Frame.Lives.event {f' : Frame V R} {e : Event V R}
    (h : f.Lives log i) (hcall : f'.call = f.call) (he : e.call = i)
    (hpc : ∀ k, f.pc.InPhase f.call.method k →
      ∃ k', Phase.Step f.call.method k e k' ∧
        f'.pc.InPhase f.call.method k') : f'.Lives (log ++ [e]) i := by
  obtain ⟨k, hrun, hk⟩ := h
  obtain ⟨k', hstep, hk'⟩ := hpc k hk
  refine ⟨k', ?_, by rwa [hcall]⟩
  rw [List.filter_append, hcall]
  simpa [he] using hrun.snoc hstep

/-- A wake-up does not count. -/
theorem Frame.Lives.wake (h : f.Lives log i) (wake : TaskState → TaskState) :
    (f.wake wake).Lives log i := by
  obtain ⟨k, hrun, hk⟩ := h
  exact ⟨k, hrun, inPhase_notifyOne hk⟩

/-- A block of the call itself. -/
theorem Transition.lives_self (ht : Transition cfg s a s' evs)
    (hR : Refines log s l)
    (hpast : ∀ i f, s.frames i = some f → CallPast log i f)
    (hnew : s.frames i = none → ∀ e ∈ log, e.call ≠ i)
    (h : ∀ i f, s.frames i = some f → f.Lives log i)
    (hi : a.call? = some i) (hf : s'.frames i = some f) :
    f.Lives (log ++ evs) i := by
  have hstart : ∀ {c : Call V}, s.frames i = none →
      (⟨c, .new, c.method.entry⟩ : Frame V R).Lives (log ++ []) i := by
    intro c hnone
    have hlog : log.filter (fun e => e.call = i) = [] := by
      rw [List.filter_eq_nil_iff]
      simpa using hnew hnone
    refine ⟨.start, ?_, inPhase_entry c.method⟩
    rw [List.append_nil, hlog]
    exact .nil
  have hquiet : ∀ {f pc q}, s.At i f pc →
      (∀ k, pc.InPhase f.call.method k → q.InPhase f.call.method k) →
      (⟨f.call, f.taskState, q⟩ : Frame V R).Lives (log ++ []) i := by
    intro f pc q hat hpc
    exact (h i f hat.frame).quiet rfl (by rw [hat.pc]; exact hpc)
  have hevent : ∀ {f pc pc' e}, s.At i f pc → e.call = i →
      (∀ k, pc.InPhase f.call.method k →
        ∃ k', Phase.Step f.call.method k e k' ∧
          pc'.InPhase f.call.method k') →
      (⟨f.call, f.taskState, pc'⟩ : Frame V R).Lives (log ++ [e]) i := by
    intro f pc pc' e hat he hpc
    exact (h i f hat.frame).event rfl he (by rw [hat.pc]; exact hpc)
  -- the handle is used, and the call stays where it is
  have hstay : ∀ {f₀ hd g e}, s.InCallback i f₀ hd g → s.frames i = some f →
      e.call = i → Phase.Step f.call.method .callback e .callback →
      f.Lives (log ++ [e]) i := by
    intro f₀ hd g e hin hf he hstep
    refine (h i f hf).event rfl he fun k hk => ?_
    rw [hin.pc_eq hf] at hk ⊢
    obtain rfl := hk
    exact ⟨_, hstep, rfl⟩
  cases ht <;> cases hi
  case callProcess guard value _ _ hnone =>
    obtain rfl := frame_of_update hf
    exact hstart (c := ⟨_, _, .process guard value⟩) hnone
  case callOther _ _ hnone =>
    obtain rfl := frame_of_update hf
    exact hstart hnone
  case handOff g result hat =>
    have hreturning := hquiet (q := .returning g result) hat
      fun k hk => by cases result <;> exact hk
    obtain ⟨f₀, hf₀, hwoken⟩ := frame_of_wakeNext hf
    obtain rfl := frame_of_update hf₀
    rcases hwoken with rfl | rfl
    · exact hreturning
    · exact hreturning.wake _
  case errHandOff g p hat =>
    have hreturning := hquiet (q := .resumeUnwind g p) hat fun _ hk => hk
    obtain ⟨f₀, hf₀, hwoken⟩ := frame_of_wakeNext hf
    obtain rfl := frame_of_update hf₀
    rcases hwoken with rfl | rfl
    · exact hreturning
    · exact hreturning.wake _
  case lock hat =>
    obtain rfl := frame_of_update hf
    exact hquiet hat fun k hk => hk.1
  case lockPoisoned hat =>
    obtain rfl := frame_of_update hf
    refine hevent hat rfl ?_
    rintro k ⟨rfl, hmethod⟩
    exact ⟨_, .poisonedLock _ _ hmethod, rfl⟩
  case mutexGood hat =>
    obtain rfl := frame_of_update hf
    refine hevent hat rfl ?_
    rintro k rfl
    exact ⟨_, .mutexGood _, rfl⟩
  case mutexMismatch hat =>
    obtain rfl := frame_of_update hf
    refine hevent hat rfl ?_
    rintro k rfl
    exact ⟨_, .mutexMismatch _, rfl⟩
  case flip hat =>
    obtain rfl := frame_of_update hf
    refine hevent hat rfl ?_
    rintro k rfl
    exact ⟨_, .flip _ _ (hR.basics.locals.at hat).2.2, rfl⟩
  case contended hat =>
    obtain rfl := frame_of_update hf
    refine (h i _ hat.frame).quiet rfl fun k hk => ?_
    rw [hat.pc] at hk
    exact hk
  case push hat =>
    obtain rfl := frame_of_update hf
    refine hevent hat rfl ?_
    rintro k rfl
    exact ⟨_, .push _ _ (hR.basics.locals.at hat).2.2, rfl⟩
  case popFront hat =>
    obtain rfl := frame_of_update hf
    refine hevent hat rfl ?_
    rintro k rfl
    exact ⟨_, .popFront _, rfl⟩
  case popNothing g b hpop hat =>
    obtain ⟨t, rest, hq, -⟩ := hR.popOk.head i _ g b hat.frame hat.pc
    rw [hpop] at hq
    cases hq
  case queuePoisoned g result _ _ hat =>
    obtain rfl := frame_of_update hf
    refine hevent hat rfl ?_
    rintro k rfl
    refine ⟨_, .queuePoisoned _ _ ?_, rfl⟩
    cases hvalue : result.value? with
    | none => exact .inl rfl
    | some v =>
        refine .inr (hR.value_of_front (hpast i _ hat.frame) hat ?_).symm
        rw [Pc.stage, hvalue]
  case mutexPoisoned hat =>
    obtain rfl := frame_of_update hf
    refine hevent hat rfl fun k hk => ?_
    have hvalue := hR.value_of_front (hpast i _ hat.frame) hat rfl
    exact ⟨_, hvalue ▸ .mutexPoisoned k _ hk, rfl⟩
  case startCallback hat =>
    obtain rfl := frame_of_update hf
    refine hevent hat rfl fun k hk => ?_
    exact ⟨_, .call k _ _ hk
      (hR.value_of_front (hpast i _ hat.frame) hat rfl), rfl⟩
  case returnProcess result _ _ _ hat | returnOther result _ hat =>
    obtain rfl := frame_of_update hf
    refine hevent hat rfl fun k hk => ?_
    cases result <;> obtain rfl := hk
    · exact ⟨_, .leave _ _, rfl⟩
    · exact ⟨_, .processedElsewhere _, rfl⟩
    · exact ⟨_, .processingPanicked _, rfl⟩
  case resumeUnwind hat =>
    obtain rfl := frame_of_update hf
    refine hevent hat rfl ?_
    rintro k rfl
    exact ⟨_, .leave _ _, rfl⟩
  case queryGood hat =>
    obtain rfl := frame_of_update hf
    refine hevent hat rfl ?_
    rintro k ⟨rfl, hmethod⟩
    exact ⟨_, .mutexGood _, rfl, hmethod⟩
  case queryMismatch hat =>
    obtain rfl := frame_of_update hf
    refine hevent hat rfl ?_
    rintro k ⟨rfl, -⟩
    exact ⟨_, .mutexMismatch _, rfl⟩
  case queryClear hmethod hat =>
    obtain rfl := frame_of_update hf
    exact hquiet hat fun k hk => ⟨hk.1, hmethod⟩
  case queryRead hmethod hat =>
    obtain rfl := frame_of_update hf
    exact hquiet hat fun k hk => ⟨hk.1, eq_isQueuePoisoned hk.2 hmethod⟩
  case queryReturn answer hat =>
    obtain rfl := frame_of_update hf
    refine hevent hat rfl fun k hk => ?_
    cases answer <;> obtain ⟨rfl, hmethod⟩ := hk
    · exact ⟨_, .cleared _ hmethod, rfl⟩
    · exact ⟨_, .answered _ _ hmethod, rfl⟩
  case resultProcess hat =>
    obtain rfl := frame_of_update hf
    refine hquiet hat ?_
    rintro k rfl
    rfl
  case pop hin =>
    obtain rfl := frame_of_update hf
    refine hevent hin.loc rfl ?_
    rintro k rfl
    exact ⟨_, .pop _ _ _, rfl⟩
  case ret hin =>
    obtain rfl := frame_of_update hf
    refine hevent hin.loc rfl ?_
    rintro k rfl
    exact ⟨_, .callbackReturn _ _, rfl⟩
  case unwind hin =>
    obtain rfl := frame_of_update hf
    refine hevent hin.loc rfl ?_
    rintro k rfl
    exact ⟨_, .callbackUnwind _, rfl⟩
  case peek hin => exact hstay hin hf rfl (.peek _ _)
  case popNone hin => exact hstay hin hf rfl (.popNone _)
  case isQueuePoisoned hin => exact hstay hin hf rfl (.isQueuePoisoned _ _)
  case uninit hslot hat => exact (hR.basics.slots.not_uninit hat hslot).elim
  case spuriousWake hpc hframe =>
    obtain rfl := frame_of_update hf
    exact (h i _ hframe).quiet rfl (by rw [hpc]; exact fun _ hk => hk)
  all_goals
    first
    | exact (h i f hf).quiet rfl fun _ hk => hk
    | (obtain rfl := frame_of_update hf
       rename_i hat
       first
       | exact hquiet hat fun _ hk => hk
       | exact hquiet hat.loc fun _ hk => hk)

end Lives

/-- The events of every call follow the protocol of its method, to a phase that
fits its program counter. -/
theorem call_lifecycle (h : Run cfg frontState data acts log s) :
    ∀ i f, s.frames i = some f → f.Lives log i := by
  induction h with
  | nil => simp [State.new]
  | snoc run hmatched hstep ih =>
      obtain ⟨l, -, hR⟩ := Run.refines run
      have ht := transition_of_step hstep
      refine ht.forall_frames ih (fun i f h hevs => h.append hevs)
        (fun i f wake h => h.wake wake) fun i f hi hf => ?_
      refine ht.lives_self hR (Run.callPast run) (fun hnone e he => ?_) ih hi hf
      rintro rfl
      have hsome := Run.isSome_of_event run e he
      rw [hnone] at hsome
      cases hsome

/-- In `handOverRun` call 0 has ended, call 1 has been told to go on, and call
2 waits. -/
theorem call_lifecycle_handOver :
    let r := (run ⟨.default, false⟩ 0 (fun _ => ())
      handOverRun).get (by decide)
    ∀ i f, r.1.frames i = some f → f.Lives r.2 i :=
  call_lifecycle (Run.of_run (by decide))

end ContentionQueue
