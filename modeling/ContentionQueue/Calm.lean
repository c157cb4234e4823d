import ContentionQueue.Ownership
import ContentionQueue.Service

/-!
# Runs without a panic from outside

A panic enters a queue in two ways: a callback unwinds, or other code poisons
the mutex.  A run is calm when neither happens.  This module says that calls
make no panics of their own then.

* `State.Untroubled` is the invariant: no call unwinds out of
  `try_process_unchecked`, and no call has been told of a panic or of queue
  poison.
* `OneMutex` is the invariant of runs in which all calls pass one mutex.
* `calm_outcomes` is the result.
-/

namespace ContentionQueue

open Machines State

variable {M FS V R : Type} {cfg : Config} {s s' : State M FS V R}
  {a : Action M FS V R} {acts : List (Action M FS V R)}
  {evs log : List (Event V R)} {frontState : FS} {data : Addr → M}

/-! ## Calm actions and calm events -/

/-- Whether an action brings no panic into the queue. -/
def Action.isCalm : Action M FS V R → Bool
  | .callback _ .unwind => false
  | .poison _ => false
  | _ => true

/-- Whether an outcome tells of no panic and of no poison. -/
def Outcome.isGood : Outcome R → Bool
  | .returned .processingPanicked => false
  | .returned _ => true
  | .answered answer => answer ≠ some true
  | .unwound _ => false

/-- Whether an outcome is good, or the call was turned away before it got to
the queue. -/
def Outcome.isCalm : Outcome R → Bool
  | .unwound .mutexMismatch => true
  | .unwound .poisonedLock => true
  | outcome => outcome.isGood

/-- Whether an event shows no panic and no poison. -/
def Event.isCalm : Event V R → Bool
  | .assertFailed _ _ _ => false
  | .callbackUnwind _ => false
  | .isQueuePoisoned _ poisoned => !poisoned
  | .leave _ outcome => outcome.isCalm
  | _ => true

/-! ## The invariant -/

/-- Whether a call has been told of a panic or of poison. -/
def Pc.isTroubled : Pc V R → Bool
  | .popFront _ processingPanicked => processingPanicked
  | .assertQueueGood _ .processingPanicked => true
  | .handOff _ .processingPanicked => true
  | .returning _ .processingPanicked => true
  | .queryReturn _ (some true) => true
  | _ => false

/-- A call that has not been told of a panic or of poison. -/
structure Frame.Untroubled (f : Frame V R) : Prop where
  taskState : f.taskState.isPanic = false
  pc : f.pc.isTroubled = false

/-- Nothing is poisoned, and no call has been told of a panic or of poison. -/
structure State.Untroubled (s : State M FS V R) : Prop where
  clean : Clean s
  frames : AllFrames Frame.Untroubled s.frames

section Untroubled

variable {i : CallId} {f : Frame V R} {pc pc' : Pc V R}

theorem isTroubled_notifyOne (pc : Pc V R) :
    pc.notifyOne.isTroubled = pc.isTroubled := by
  cases pc <;> rfl

theorem untroubled_new (frontState : FS) (data : Addr → M) :
    (State.new frontState data : State M FS V R).Untroubled where
  clean := clean_new frontState data
  frames := by simp [AllFrames, State.new]

theorem State.Untroubled.at (h : s.Untroubled) (hat : s.At i f pc) :
    f.taskState.isPanic = false ∧ pc.isTroubled = false :=
  ⟨(h.frames i f hat.frame).taskState,
    hat.pc ▸ (h.frames i f hat.frame).pc⟩

/-- A call goes on without being told of a panic. -/
theorem State.Untroubled.goto (h : s.Untroubled) (hat : s.At i f pc)
    (hpc : pc'.isTroubled = false) :
    AllFrames Frame.Untroubled
      (Function.update s.frames i (some { f with pc := pc' })) :=
  h.frames.update ⟨(h.at hat).1, hpc⟩

/-- What a call learns from its pop. -/
theorem isTroubled_of_popFront {x x' : MutexExclusive V}
    {result : TaskWaitResult V} {g : Addr}
    (h : x.popFront false = some (result, x')) :
    (.assertQueueGood g result : Pc V R).isTroubled = false := by
  cases result with
  | process v => rfl
  | processedElsewhere => rfl
  | processingPanicked => cases MutexExclusive.popFront_merged h rfl

/-- A calm step keeps the invariant. -/
theorem Transition.untroubled (ht : Transition cfg s a s' evs)
    (hb : Basics s) (hguards : s.EntryGuards) (ha : a.isCalm = true)
    (h : s.Untroubled) : s'.Untroubled := by
  have hunwind : ∀ i, a ≠ .callback i .unwind := by
    rintro i rfl
    cases ha
  have hpoison : ∀ b, a ≠ .poison b := by
    rintro b rfl
    cases ha
  have hspares : ∀ i, a = .step i → s.SparesMutex i :=
    fun i _ => hguards.sparesMutex i
  refine ⟨ht.clean hb hunwind hpoison hspares h.clean, ?_⟩
  cases ht
  case callProcess => exact h.frames.update ⟨TaskState.isPanic_new, rfl⟩
  case callOther c _ _ _ =>
    refine h.frames.update ⟨TaskState.isPanic_new, ?_⟩
    cases c.method <;> rfl
  case contended => exact h.frames.update ⟨TaskState.isPanic_new, rfl⟩
  case testFront hat _ => exact h.goto hat (h.at hat).1
  case popFront b result x hat hpop =>
    obtain rfl : b = false := (h.at hat).2
    exact h.goto hat (isTroubled_of_popFront hpop)
  case resultPanicked hat _ => cases (h.at hat).2
  case handOff result hat =>
    refine AllFrames.wakeNext ?_ fun f hf => ⟨?_, ?_⟩
    · refine h.goto hat ?_
      cases result <;> first | rfl | cases (h.at hat).2
    · exact (TaskState.isPanic_wakeFrontTask _).trans hf.taskState
    · exact (isTroubled_notifyOne _).trans hf.pc
  case queryRead hat _ =>
    refine h.goto hat ?_
    rw [h.clean.queue]
    rfl
  case errLock hat _ => cases h.clean.not_unwinding hat
  case errHandOff hat => cases h.clean.not_unwinding hat
  case resumeUnwind hat => cases h.clean.not_unwinding hat
  case unwind => cases ha
  case spuriousWake hframe _ =>
    exact h.frames.update ⟨(h.frames _ _ hframe).taskState, rfl⟩
  all_goals
    first
    | exact h.frames
    | exact h.goto ‹_› rfl
    | exact h.goto (State.InCallback.loc ‹_›) rfl

/-- A calm step shows calm events. -/
theorem Transition.isCalm (ht : Transition cfg s a s' evs) (hb : Basics s)
    (ha : a.isCalm = true) (h : s.Untroubled) : ∀ e ∈ evs, e.isCalm = true := by
  intro e he
  cases ht <;> simp only [List.not_mem_nil, List.mem_singleton] at he <;>
    subst he
  case queuePoisoned hq =>
    rw [h.clean.queue] at hq
    cases hq
  case mutexPoisoned hat _ hm =>
    rw [h.clean.unpoisoned hb hat rfl] at hm
    cases hm
  case returnProcess result _ _ hat _ | returnOther result hat _ =>
    cases result <;> first | rfl | cases (h.at hat).2
  case resumeUnwind hat => cases h.clean.not_unwinding hat
  case queryReturn answer hat =>
    rcases answer with _ | _ | _ <;> first | rfl | cases (h.at hat).2
  case isQueuePoisoned =>
    rw [Event.isCalm, h.clean.queue]
    rfl
  case unwind => cases ha
  all_goals rfl

theorem Run.untroubled (h : Run cfg frontState data acts log s)
    (hcalm : ∀ a ∈ acts, a.isCalm = true) :
    s.Untroubled ∧ ∀ e ∈ log, e.isCalm = true := by
  induction h with
  | nil => exact ⟨untroubled_new _ _, by simp⟩
  | snoc run hmatched hstep ih =>
      obtain ⟨hs, hlog⟩ := ih fun a ha => hcalm a (List.mem_append_left _ ha)
      have ht := transition_of_step hstep
      have ha := hcalm _ (List.mem_append_right _ List.mem_cons_self)
      have hb := Run.basics run
      exact ⟨ht.untroubled hb (Run.entryGuards run) ha hs,
        List.forall_mem_append.mpr ⟨hlog, ht.isCalm hb ha hs⟩⟩

end Untroubled

/-! ## One mutex -/

/-- All calls pass the mutex `b`, and no mutex is poisoned. -/
structure OneMutex (b : Addr) (s : State M FS V R) : Prop where
  address : s.mutexAddress = 0 ∨ s.mutexAddress = b
  calls : AllFrames (fun f => f.call.mutex = b) s.frames
  poison : ∀ c, s.poisonAt c = false

section OneMutex

variable {b : Addr}

/-- A calm step of a call that passes `b`. -/
theorem Transition.oneMutex (ht : Transition cfg s a s' evs)
    (ha : a.isCalm = true) (hclean : Clean s)
    (hcall : ∀ i c, a = .call i c → c.mutex = b) (h : OneMutex b s) :
    OneMutex b s' := by
  have hcalls : AllFrames (fun f => f.call.mutex = b) s'.frames := by
    intro i f hf
    cases hold : s.frames i with
    | none => exact hcall i _ (ht.eq_call hold hf)
    | some f₀ =>
        obtain ⟨f₁, hf₁, hsame⟩ := ht.call_of_frame hold
        obtain rfl := Option.some.inj (hf.symm.trans hf₁)
        rw [hsame]
        exact h.calls i f₀ hold
  have hkeep : s'.mutexAddress = s.mutexAddress →
      s'.poisonAt = s.poisonAt → OneMutex b s' :=
    fun haddress hpoison => ⟨haddress ▸ h.address, hcalls, hpoison ▸ h.poison⟩
  have hpasses : ∀ {i f pc}, s.At i f pc → f.call.mutex = b :=
    fun hat => h.calls _ _ hat.frame
  cases ht
  case mutexGood hat _ =>
    exact ⟨.inr (congrArg PNat.val (hpasses hat)), hcalls, h.poison⟩
  case queryGood hat _ =>
    exact ⟨.inr (congrArg PNat.val (hpasses hat)), hcalls, h.poison⟩
  case mutexMismatch hat hbad =>
    rw [hpasses hat] at hbad
    exact (h.address.elim hbad.1 hbad.2).elim
  case lockPoisoned hm => cases hm.symm.trans (h.poison _)
  case mutexPoisoned hm => cases hm.symm.trans (h.poison _)
  case queuePoisoned hq => cases hq.symm.trans hclean.queue
  case errHandOff hat => cases hclean.not_unwinding hat
  case poison => cases ha
  case clearPoison c =>
    refine ⟨h.address, hcalls, fun d => ?_⟩
    rcases eq_or_ne d c with rfl | hd
    · simp
    · simpa [hd] using h.poison d
  all_goals
    first
    | exact hkeep rfl rfl
    | exact hkeep rfl (by simp)
    | exact hkeep (by simp) (by simp)

/-- No call unwinds on its way to the queue. -/
theorem OneMutex.isGood (h : OneMutex b s) (ht : Transition cfg s a s' evs)
    (hclean : Clean s)
    {i : CallId} {outcome : Outcome R} (he : .leave i outcome ∈ evs)
    (hcalm : outcome.isCalm = true) : outcome.isGood = true := by
  cases ht <;> simp only [List.not_mem_nil, List.mem_singleton, reduceCtorEq,
    Event.leave.injEq] at he <;> obtain ⟨rfl, rfl⟩ := he
  case lockPoisoned hm _ => cases hm.symm.trans (h.poison _)
  case mutexMismatch hbad hat =>
    rw [h.calls _ _ hat.frame] at hbad
    exact (h.address.elim hbad.1 hbad.2).elim
  case queryMismatch hbad hat =>
    rw [h.calls _ _ hat.frame] at hbad
    exact (h.address.elim hbad.1 hbad.2).elim
  case resumeUnwind hat => cases hclean.not_unwinding hat
  all_goals exact hcalm

theorem oneMutex_new (b : Addr) (frontState : FS) (data : Addr → M) :
    OneMutex b (State.new frontState data : State M FS V R) where
  address := .inl rfl
  calls := by simp [AllFrames, State.new]
  poison := fun _ => rfl

theorem Run.oneMutex (h : Run cfg frontState data acts log s)
    (hcalm : ∀ a ∈ acts, a.isCalm = true)
    (hcall : ∀ i c, .call i c ∈ acts → c.mutex = b) :
    OneMutex b s ∧
      ∀ i outcome, .leave i outcome ∈ log → outcome.isGood = true := by
  induction h with
  | nil => exact ⟨oneMutex_new b _ _, by simp⟩
  | @snoc acts log s a evs s' run hmatched hstep ih =>
      have hold : ∀ a ∈ acts, a.isCalm = true :=
        fun a ha => hcalm a (List.mem_append_left _ ha)
      obtain ⟨hs, hlog⟩ := ih hold fun i c hc =>
        hcall i c (List.mem_append_left _ hc)
      have ht := transition_of_step hstep
      have ha := hcalm _ (List.mem_append_right _ List.mem_cons_self)
      have hb := Run.basics run
      obtain ⟨huntroubled, -⟩ := Run.untroubled run hold
      refine ⟨ht.oneMutex ha huntroubled.clean ?_ hs, fun i outcome he => ?_⟩
      · rintro i c rfl
        exact hcall i c (List.mem_append_right _ List.mem_cons_self)
      · rcases List.mem_append.mp he with he | he
        · exact hlog i outcome he
        · exact hs.isGood ht huntroubled.clean he
            (ht.isCalm hb ha huntroubled _ he)

end OneMutex

/-! ## The outcomes -/

/-- A call that has passed `assert_mutex_good` was not turned away. -/
theorem Run.isGood_of_mutexGood (h : Run cfg frontState data acts log s)
    (hlog : ∀ e ∈ log, e.isCalm = true) {i : CallId} {outcome : Outcome R}
    (hgood : .mutexGood i ∈ log) (he : .leave i outcome ∈ log) :
    outcome.isGood = true := by
  have hcalm := hlog _ he
  cases outcome with
  | returned result => exact hcalm
  | answered answer => exact hcalm
  | unwound p =>
      obtain ⟨f, hf, hpc⟩ := h.over_of_leave he
      have hpast := (h.callPast i f hf).past.outcome hpc
      rcases hpast hgood with ⟨-, hunwind⟩ | ⟨value, hfailed, -⟩
      · cases hlog _ hunwind
      · cases hlog _ hfailed

end ContentionQueue
