import ContentionQueue.Overlay
import ContentionQueue.Ownership
import ContentionQueue.Permission

/-!
# Lock discipline

Every access to `mutex_exclusive` and to the bits of a `TaskState` needs the
mutex whose address is in `mutex_address`.

* `State.Touches` is what it means that an action accesses this shared data:
  its effect depends on the data, or it changes the data.  `touches` lists the
  blocks that do, and `step_withShared` shows that it misses none.
* `lock_protocol` is the discipline for calls of the safe methods with any
  arguments.  It rests on the guard argument of `process`, which
  `assert_mutex_good` does not look at.
* `lock_discipline` is the discipline of matched calls, with what a callback
  and a caller of `process` can rely on.
-/

namespace ContentionQueue

open Machines State HandOff

variable {M FS V R : Type} {cfg : Config} {s s' : State M FS V R}
  {a : Action M FS V R} {evs log : List (Event V R)}
  {acts : List (Action M FS V R)} {frontState : FS} {data : Addr → M}

/-! ## Accesses to the shared data -/

namespace State

/-- Other contents of `mutex_exclusive` and other bits in the `TaskState`s. -/
def sharedOverlay (x : MutexExclusive V) (bits : CallId → TaskState) :
    Overlay M V R where
  exclusive := fun _ => x
  mutex := fun _ => id
  frame := fun i f => { f with taskState := bits i }
  call_frame := fun _ _ => rfl
  isUserCode_frame := fun _ _ => rfl

/-- The state with other shared data. -/
def withShared (s : State M FS V R) (x : MutexExclusive V)
    (bits : CallId → TaskState) : State M FS V R :=
  s.overlay (sharedOverlay x bits)

/-- The action reads or writes the contents of `mutex_exclusive` or the bits of
a `TaskState`: other contents do not just ride along. -/
def Touches (cfg : Config) (s : State M FS V R) (a : Action M FS V R) :
    Prop :=
  ¬ ∀ x bits, (∀ i, s.frames i = none → bits i = .new) →
    step cfg (s.withShared x bits) a =
      (step cfg s a).map fun r => (r.1.withShared x bits, r.2)

end State

/-- Whether the next block of a call accesses the shared data. -/
def Pc.touches : Pc V R → Bool
  | .tryAcquireFrontFast _ _ => true
  | .pushBack _ _ => true
  | .testFront _ => true
  | .popFront _ _ => true
  | .assertQueueGood _ _ => true
  | .handOff _ _ => true
  | .errHandOff _ _ => true
  | .queryAccess _ => true
  | _ => false

/-- Whether an operation of a callback accesses the shared data. -/
def CallbackOp.touches : CallbackOp M FS R → Bool
  | .peek => true
  | .pop => true
  | .isQueuePoisoned => true
  | .clearQueuePoison => true
  | _ => false

/-- Whether an action of a call, whose next block is `pc`, accesses the shared
data. -/
def Action.touches (a : Action M FS V R) (pc : Pc V R) : Bool :=
  match a, pc with
  | .step _, pc => pc.touches
  | .callback _ op, .callback _ => op.touches
  | _, _ => false

section WithShared

variable {x : MutexExclusive V} {bits : CallId → TaskState} {i : CallId}
  {f : Frame V R}

theorem withShared_frame (hf : s.frames i = some f) :
    (s.withShared x bits).frames i = some { f with taskState := bits i } :=
  overlay_frame _ hf

theorem withShared_running (s : State M FS V R) (x : MutexExclusive V)
    (bits : CallId → TaskState) (i : CallId) (f : Frame V R) :
    (s.withShared x bits).running i { f with taskState := bits i } =
      s.running i f :=
  overlay_running (sharedOverlay x bits) s i f

theorem withShared_inUserCode (s : State M FS V R) (x : MutexExclusive V)
    (bits : CallId → TaskState) (t : ThreadId) :
    (s.withShared x bits).inUserCode t = s.inUserCode t :=
  overlay_inUserCode _ s t

theorem withShared_goto (s : State M FS V R) (x : MutexExclusive V)
    (bits : CallId → TaskState) (i : CallId) (f : Frame V R) (pc : Pc V R) :
    (s.goto i f pc).withShared x bits =
      (s.withShared x bits).goto i { f with taskState := bits i } pc :=
  overlay_goto _ s i f rfl

theorem withShared_finish (s : State M FS V R) (x : MutexExclusive V)
    (bits : CallId → TaskState) (i : CallId) (f : Frame V R)
    (outcome : Outcome R) :
    (s.finish i f outcome).withShared x bits =
      (s.withShared x bits).finish i { f with taskState := bits i } outcome :=
  overlay_finish _ s i f rfl

theorem withShared_setMutex (s : State M FS V R) (x : MutexExclusive V)
    (bits : CallId → TaskState) (a : Addr) (m : Mutex M) :
    (s.setMutex a m).withShared x bits =
      (s.withShared x bits).setMutex a m :=
  overlay_setMutex _ s a m

theorem withShared_setMutexAddress (s : State M FS V R)
    (x : MutexExclusive V) (bits : CallId → TaskState) (address : Nat) :
    (s.setMutexAddress address).withShared x bits =
      (s.withShared x bits).setMutexAddress address := rfl

theorem withShared_mutexes (s : State M FS V R) (x : MutexExclusive V)
    (bits : CallId → TaskState) : (s.withShared x bits).mutexes = s.mutexes :=
  rfl

theorem withShared_mutexAddress (s : State M FS V R) (x : MutexExclusive V)
    (bits : CallId → TaskState) :
    (s.withShared x bits).mutexAddress = s.mutexAddress := rfl

theorem stepFrame_withShared (hpc : f.pc.touches = false) :
    stepFrame cfg (s.withShared x bits) i { f with taskState := bits i } =
      (stepFrame cfg s i f).map fun r => (r.1.withShared x bits, r.2) := by
  obtain ⟨c, t, pc⟩ := f
  cases pc <;> simp only [Pc.touches, Bool.true_eq_false] at hpc <;>
    simp only [stepFrame, withShared_mutexes, withShared_mutexAddress]
  case lock =>
    split
    · rfl
    · split <;> simp [withShared_goto, withShared_setMutex]
  all_goals
    first
    | rfl
    | simp [withShared_goto, withShared_finish, withShared_setMutex]
    | (split <;> simp [withShared_goto, withShared_finish, withShared_setMutex,
        withShared_setMutexAddress])

theorem stepCallback_withShared {h : QueueHandle} {op : CallbackOp M FS R}
    (hop : op.touches = false) :
    stepCallback (s.withShared x bits) i { f with taskState := bits i } h op =
      (stepCallback s i f h op).map fun r => (r.1.withShared x bits, r.2) := by
  unfold stepCallback
  split
  · cases op <;> simp only [CallbackOp.touches, Bool.true_eq_false] at hop
    all_goals
      first
      | rfl
      | simp [withShared_goto, withShared_setMutex, withShared_mutexes]
  · simp [withShared_goto]

/-- A new call starts in the same way. -/
theorem startCall_withShared {c : Call V} (hnew : bits i = .new) :
    (s.withShared x bits).startCall i c =
      (s.startCall i c).map fun s' => s'.withShared x bits := by
  have hpush : (s.pushFrame i ⟨c, .new, c.method.entry⟩).withShared x bits =
      (s.withShared x bits).pushFrame i ⟨c, .new, c.method.entry⟩ := by
    have hframe : (sharedOverlay (M := M) x bits).frame i
        (⟨c, .new, c.method.entry⟩ : Frame V R) = ⟨c, .new, c.method.entry⟩ := by
      rw [← hnew]
      rfl
    rw [State.withShared, overlay_pushFrame, hframe]
    rfl
  unfold startCall
  cases hm : c.method with
  | process guard value =>
      rw [hm] at hpush
      by_cases hguard : (s.mutexes guard).guard = some (.user c.thread)
      · simp [withShared_mutexes, hguard, withShared_setMutex, hpush]
      · simp [withShared_mutexes, hguard]
  | lockAndProcess value | isQueuePoisoned | clearQueuePoison =>
      rw [hm] at hpush
      simp [hpush]

/-- The blocks that `touches` does not list neither read nor write the shared
data. -/
theorem step_withShared
    (ha : ∀ i f, a.call? = some i → s.frames i = some f →
      a.touches f.pc = false)
    (hbits : ∀ i, s.frames i = none → bits i = .new) :
    step cfg (s.withShared x bits) a =
      (step cfg s a).map fun r => (r.1.withShared x bits, r.2) := by
  cases a with
  | call i c =>
      cases hf : s.frames i with
      | some f => simp [step, withShared_frame hf, hf]
      | none =>
          have hnone : (s.withShared x bits).frames i = none := by
            simp [State.withShared, hf]
          simp only [step, hf, hnone, withShared_inUserCode,
            startCall_withShared (hbits i hf)]
          split
          · simp [Function.comp_def]
          · rfl
  | step i =>
      cases hf : s.frames i with
      | none => simp [step, State.withShared, hf]
      | some f =>
          have hpc : f.pc.touches = false := ha i f rfl hf
          simp only [step, withShared_frame hf, hf, withShared_running,
            stepFrame_withShared hpc]
          split <;> rfl
  | callback i op =>
      cases hf : s.frames i with
      | none => simp [step, State.withShared, hf]
      | some f =>
          have hop := ha i f rfl hf
          simp only [step, withShared_frame hf, hf, withShared_running]
          split
          · obtain ⟨c, t, pc⟩ := f
            cases pc
            case callback h => exact stepCallback_withShared hop
            case unlocked h =>
              cases op <;> first | rfl | simp [withShared_goto]
            all_goals rfl
          · rfl
  | spuriousWake i =>
      cases hf : s.frames i with
      | none => simp [step, State.withShared, hf]
      | some f =>
          simp only [step, withShared_frame hf, hf]
          obtain ⟨c, t, pc⟩ := f
          cases pc <;> first | rfl | simp [withShared_goto]
  | lock t b =>
      simp only [step, withShared_inUserCode, withShared_mutexes]
      split
      · split <;> simp [withShared_setMutex]
      · rfl
  | unlock t b =>
      simp only [step, withShared_inUserCode, withShared_mutexes]
      split
      · rw [if_pos ‹_›]
        simp [withShared_setMutex]
      · rw [if_neg ‹_›]
        rfl
  | poison b => simp [step, withShared_setMutex, withShared_mutexes]
  | clearPoison b => simp [step, withShared_setMutex, withShared_mutexes]
  | releaseLeaked b =>
      simp only [step, withShared_mutexes]
      split <;> simp [withShared_setMutex]

end WithShared

/-! ## Runs with any guards -/

/-- The runs of a new queue, with any calls. -/
def OpenRun (cfg : Config) (frontState : FS) (data : Addr → M)
    (acts : List (Action M FS V R)) (log : List (Event V R))
    (s : State M FS V R) : Prop :=
  (machine M FS V R cfg).Exec (fun _ _ => True) (State.new frontState data)
    acts log s

/-! ## The lock protocol -/

/-- Whether a call is before a block that accesses the shared data, or in its
callback, where the handle may access it. -/
def Pc.inSection : Pc V R → Bool
  | .callback _ => true
  | pc => pc.touches

/-- The action is taken by a call whose thread owns the mutex at the address
in `mutex_address`. -/
def State.ByOwner (s : State M FS V R) (a : Action M FS V R) : Prop :=
  ∃ i f, ∃ g : Addr, a.call? = some i ∧ s.frames i = some f ∧
    s.mutexAddress = g ∧ s.Owns f.call.thread g

/-- Every access to the shared data is made by the owner of the registered
mutex, and one call at a time is in a section that accesses it. -/
structure State.LockProtocol (cfg : Config) (s : State M FS V R) : Prop where
  access : ∀ a, s.Touches cfg a → s.ByOwner a
  exclusive : ∀ i j f f', s.frames i = some f → s.frames j = some f' →
    f.pc.inSection = true → f'.pc.inSection = true → i = j

section LockProtocol

variable {i j : CallId} {f : Frame V R} {g : Addr}

theorem inSection_of_touches {pc : Pc V R} (h : a.touches pc = true) :
    pc.inSection = true := by
  cases a with
  | step j => cases pc <;> first | rfl | exact h
  | callback j op => cases pc <;> first | rfl | cases h
  | _ => cases h

/-- A call that has passed `assert_mutex_good` and has a guard owns the
registered mutex. -/
theorem Basics.owns (h : Basics s) (hf : s.frames i = some f)
    (hreg : f.pc.isRegistered = true) (hguard : f.pc.guard? = some g) :
    s.mutexAddress = g ∧ s.guardAt g = some (.call i) ∧
      s.Owns f.call.thread g := by
  have hok := h.locals i f hf
  have hg := ok_guard hok (h.slots i f hf) hreg hguard
  have hplace : s.guardAt g = some (.call i) :=
    (h.owners i g).mpr (by simp [State.guardOf, hf, hguard])
  refine ⟨hg ▸ ok_registered hok hreg, hplace, ?_⟩
  simp [State.Owns, hplace, ownerOf, State.threadOf, hf]

/-- A call in a section has passed `assert_mutex_good`, and has a guard. -/
theorem Basics.of_inSection (h : Basics s) (hf : s.frames i = some f)
    (hsection : f.pc.inSection = true) :
    f.pc.isRegistered = true ∧ ∃ g, f.pc.guard? = some g := by
  have hslots : f.pc.SlotsOk := h.slots i f hf
  cases hpc : f.pc <;> rw [hpc] at hsection hslots <;>
    first
    | (cases hsection; done)
    | exact ⟨rfl, _, rfl⟩
    | exact ⟨rfl, Option.isSome_iff_exists.mp hslots.1⟩

theorem Basics.lockProtocol (h : Basics s) : s.LockProtocol cfg where
  access := by
    intro a htouches
    obtain ⟨i, f, hi, hf, hpc⟩ : ∃ i f, a.call? = some i ∧
        s.frames i = some f ∧ a.touches f.pc = true := by
      by_contra hnone
      refine htouches fun x bits hbits => step_withShared ?_ hbits
      intro i f hi hf
      rw [Bool.eq_false_iff]
      exact fun hpc => hnone ⟨i, f, hi, hf, hpc⟩
    have hsection := inSection_of_touches hpc
    obtain ⟨hreg, g, hg⟩ := h.of_inSection hf hsection
    obtain ⟨haddress, -, howns⟩ := h.owns hf hreg hg
    exact ⟨i, f, g, hi, hf, haddress, howns⟩
  exclusive := by
    intro i j f f' hf hf' hsection hsection'
    obtain ⟨hreg, g, hg⟩ := h.of_inSection hf hsection
    obtain ⟨hreg', g', hg'⟩ := h.of_inSection hf' hsection'
    obtain ⟨haddress, hplace, -⟩ := h.owns hf hreg hg
    obtain ⟨haddress', hplace', -⟩ := h.owns hf' hreg' hg'
    obtain rfl : g = g' := PNat.coe_injective (haddress.symm.trans haddress')
    rw [hplace, Option.some.injEq, Place.call.injEq] at hplace'
    exact hplace'

end LockProtocol

/-- In a run in which no `process` call with a wrong guard gets past
`assert_mutex_good`, the lock protocol is kept. -/
theorem lock_protocol (h : GuardedRun cfg frontState data acts log s) :
    s.LockProtocol cfg :=
  h.basics.lockProtocol

/-- Call 0 is in its callback.  Call 1 passes another mutex with a guard of a
third one, and `assert_mutex_good` stops it. -/
def wrongMutexRun : List (Action Unit Nat Nat Nat) :=
  [.call 0 ⟨0, 1, .lockAndProcess 10⟩, .step 0, .step 0, .step 0, .step 0,
    .lock 1 3, .call 1 ⟨1, 2, .process 3 20⟩, .step 1]

/-- The lock protocol is kept in `wrongMutexRun`. -/
theorem lock_protocol_wrongMutex :
    State.LockProtocol ⟨.default, false⟩
      (((machine Unit Nat Nat Nat ⟨.default, false⟩).exec GuardMatches
        (State.new 0 fun _ => ()) wrongMutexRun).get (by decide)).1 :=
  lock_protocol (Machine.Exec.of_isSome (by decide))

/-- Call 0 passes mutex 1 with a guard of mutex 2, and is in its callback when
call 1 locks mutex 1. -/
def wrongGuardRun : List (Action Unit Nat Nat Nat) :=
  [.lock 0 2, .call 0 ⟨0, 1, .process 2 10⟩, .step 0, .step 0, .step 0,
    .call 1 ⟨1, 1, .lockAndProcess 20⟩, .step 1, .step 1]

/-- After `wrongGuardRun` two threads are in sections that access the shared
data. -/
theorem wrong_guard :
    ¬ ∀ (acts : List (Action Unit Nat Nat Nat)) (log : List (Event Nat Nat))
      (s : State Unit Nat Nat Nat),
      OpenRun ⟨.default, false⟩ 0 (fun _ => ()) acts log s →
        s.LockProtocol ⟨.default, false⟩ := by
  intro hall
  have hrun : OpenRun ⟨.default, false⟩ 0 (fun _ => ()) wrongGuardRun _ _ :=
    Machine.Exec.of_isSome (by decide)
  have hsame := (hall _ _ _ hrun).exclusive 0 1
    ⟨⟨0, 1, .process 2 10⟩, .new, .callback ⟨some 2, true, 0⟩⟩
    ⟨⟨1, 1, .lockAndProcess 20⟩, .new, .tryAcquireFrontFast 1 20⟩
    (by decide) (by decide) rfl rfl
  cases hsame

/-! ## Matched calls -/

/-- The address in `mutex_address` is stored once. -/
theorem Transition.mutexAddress (ht : Transition cfg s a s' evs) :
    s.mutexAddress = 0 ∨ s'.mutexAddress = s.mutexAddress := by
  cases ht
  case mutexGood hgood => exact hgood.imp_right Eq.symm
  case queryGood hgood => exact hgood.imp_right Eq.symm
  case handOff => exact Or.inr (wakeNext_mutexAddress _ _)
  case errHandOff => exact Or.inr (wakeNext_mutexAddress _ _)
  all_goals exact Or.inr rfl

/-- The address of a call that gets past `assert_mutex_good` is stored. -/
theorem Transition.registers (ht : Transition cfg s a s' evs) {i : CallId}
    {f : Frame V R} (he : .mutexGood i ∈ evs) (hf : s'.frames i = some f) :
    s'.mutexAddress = f.call.mutex := by
  cases ht <;> simp only [List.not_mem_nil, List.mem_singleton] at he <;>
    cases he
  case mutexGood =>
    obtain rfl := frame_of_update hf
    rfl
  case queryGood =>
    obtain rfl := frame_of_update hf
    rfl

/-- The calls that got past `assert_mutex_good` passed the registered mutex. -/
theorem Run.registered (h : Run cfg frontState data acts log s) :
    ∀ i f, .mutexGood i ∈ log → s.frames i = some f →
      s.mutexAddress = f.call.mutex := by
  induction h with
  | nil =>
      intro i f hgood
      cases hgood
  | snoc run hmatched hstep ih =>
      intro i f hgood hf
      have ht := transition_of_step hstep
      rcases List.mem_append.mp hgood with hgood | hgood
      · obtain ⟨f₀, hf₀⟩ : ∃ f₀, _ = some f₀ :=
          Option.isSome_iff_exists.mp
            (Run.isSome_of_event run (.mutexGood i) hgood)
        obtain ⟨f', hf', hcall⟩ := ht.call_of_frame hf₀
        have haddress := ih i f₀ hgood hf₀
        obtain rfl : f = f' := Option.some.inj (hf.symm.trans hf')
        rcases ht.mutexAddress with hzero | hsame
        · exact absurd (haddress.symm.trans hzero) f₀.call.mutex.pos.ne'
        · rw [hsame, haddress, hcall]
      · exact ht.registers hgood hf

/-- What a call of `process` does when it returns. -/
theorem Transition.returned (ht : Transition cfg s a s' evs) {i : CallId}
    {f : Frame V R} {guard : Addr} {value : V} {result : ProcessResult R}
    (hf : s.frames i = some f) (hmethod : f.call.method = .process guard value)
    (he : .leave i (.returned result) ∈ evs) :
    ∃ g, s.At i f (.returning g result) ∧
      s'.guardAt g = some (.user f.call.thread) := by
  cases ht <;> simp only [List.not_mem_nil, List.mem_singleton] at he <;>
    cases he
  case returnProcess f' g _ _ _ hat =>
    obtain rfl := Option.some.inj (hat.frame.symm.trans hf)
    refine ⟨g, hat, ?_⟩
    rw [guardAt_finish, guardAt_setMutex, Function.update_self]
    rfl
  case returnOther f' g hother hat =>
    obtain rfl := Option.some.inj (hat.frame.symm.trans hf)
    exact absurd hmethod (hother guard value)

/-- In the closure of `unlocked` a call stays where it is until it ends the
closure. -/
theorem Transition.unlocked_self (ht : Transition cfg s a s' evs)
    {i : CallId} {f : Frame V R} {hd : QueueHandle} (hi : a.call? = some i)
    (hf : s.frames i = some f) (hpc : f.pc = .unlocked hd) :
    s'.frames = s.frames ∨
      a = .callback i .endUnlocked ∧ s' = s.goto i f (.reLock hd) := by
  cases ht <;> cases hi
  case frontUnlocked => exact .inl rfl
  case endUnlocked f' hd' hat =>
    obtain rfl := Option.some.inj (hat.frame.symm.trans hf)
    obtain rfl := Pc.unlocked.inj (hat.pc.symm.trans hpc)
    exact .inr ⟨rfl, rfl⟩
  case callProcess hnew => cases hnew.symm.trans hf
  case callOther hnew => cases hnew.symm.trans hf
  case spuriousWake hpc' hframe =>
    obtain rfl := Option.some.inj (hframe.symm.trans hf)
    cases hpc'.symm.trans hpc
  all_goals
    rename_i hloc
    cases hpc.symm.trans (hloc.pc_eq hf)

/-- The only thing that a call in `ReLock::drop` does is to lock its mutex and
to restore its slots. -/
theorem Transition.reLock_self (ht : Transition cfg s a s' evs)
    {i : CallId} {f : Frame V R} {hd : QueueHandle} (hi : a.call? = some i)
    (hf : s.frames i = some f) (hpc : f.pc = .reLock hd) :
    a = .step i ∧ ∃ f', s'.frames i = some f' ∧
      f'.pc = .callback (hd.restore f.call.mutex) := by
  cases ht <;> cases hi
  case reLock f' hd' hfree hat =>
    obtain rfl := Option.some.inj (hat.frame.symm.trans hf)
    obtain rfl := Pc.reLock.inj (hat.pc.symm.trans hpc)
    exact ⟨rfl, _, Function.update_self _ _ _, rfl⟩
  case callProcess hnew => cases hnew.symm.trans hf
  case callOther hnew => cases hnew.symm.trans hf
  case spuriousWake hpc' hframe =>
    obtain rfl := Option.some.inj (hframe.symm.trans hf)
    cases hpc'.symm.trans hpc
  all_goals
    rename_i hloc
    cases hpc.symm.trans (hloc.pc_eq hf)

/-- The slots of a handle, and the mutex, in the three parts of a callback.
No step uses a slot while it is not initialised. -/
structure State.HandleDiscipline (cfg : Config) (s : State M FS V R)
    (i : CallId) (f : Frame V R) : Prop where
  /-- Outside `unlocked`. -/
  callback : ∀ h, f.pc = .callback h → h.guard = some f.call.mutex ∧
    h.mutexExclusiveGuard = true ∧ s.Owns f.call.thread f.call.mutex
  /-- In the closure of `unlocked`. -/
  unlocked : ∀ h, f.pc = .unlocked h → h.guard = none ∧
    h.mutexExclusiveGuard = false ∧
    ∀ a s' evs, step cfg s a = some (s', evs) →
      (∃ f', s'.frames i = some f' ∧ f'.pc = .unlocked h) ∨
        a = .callback i .endUnlocked ∧ s' = s.goto i f (.reLock h)
  /-- In `ReLock::drop`. -/
  reLock : ∀ h, f.pc = .reLock h → h.guard = none ∧
    h.mutexExclusiveGuard = false ∧
    ∀ a s' evs, step cfg s a = some (s', evs) →
      (∃ f', s'.frames i = some f' ∧ f'.pc = .reLock h) ∨
        a = .step i ∧ ∃ f', s'.frames i = some f' ∧
          f'.pc = .callback (h.restore f.call.mutex)
  defined : ∀ g, f.pc ≠ .undefined g

/-- The lock discipline, in a state that a run with the events `log`
reaches. -/
structure State.LockDiscipline (cfg : Config) (log : List (Event V R))
    (s : State M FS V R) : Prop where
  /-- The calls that got past `assert_mutex_good` passed the same mutex. -/
  same : ∀ i j f f', .mutexGood i ∈ log → .mutexGood j ∈ log →
    s.frames i = some f → s.frames j = some f' → f.call.mutex = f'.call.mutex
  registered : ∀ i f, .mutexGood i ∈ log → s.frames i = some f →
    s.mutexAddress = f.call.mutex
  access : ∀ a, s.Touches cfg a → s.ByOwner a
  handle : ∀ i f, s.frames i = some f → s.HandleDiscipline cfg i f
  /-- The returned guard is the only guard of the mutex. -/
  returned : ∀ i f g v r a s' evs, s.frames i = some f →
    f.call.method = .process g v → step cfg s a = some (s', evs) →
    .leave i (.returned r) ∈ evs →
      s'.guardAt f.call.mutex = some (.user f.call.thread) ∧
        s'.Owns f.call.thread f.call.mutex ∧
        ∀ j, s'.guardOf j ≠ some f.call.mutex

theorem Basics.handleDiscipline (h : Basics s)
    (hdefined : ∀ i f g, s.frames i = some f → f.pc ≠ .undefined g)
    {i : CallId} {f : Frame V R} (hf : s.frames i = some f) :
    s.HandleDiscipline cfg i f where
  callback := by
    intro hd hpc
    have hslots : f.pc.SlotsOk := h.slots i f hf
    have hok : f.pc.Ok s.mutexAddress f.call := h.locals i f hf
    rw [hpc] at hslots hok
    obtain ⟨hguard, hexclusive⟩ := hslots
    obtain ⟨g, hg⟩ := Option.isSome_iff_exists.mp hguard
    obtain rfl := hok.1 g hg
    obtain ⟨-, -, howns⟩ := h.owns hf (by rw [hpc]; rfl)
      (g := f.call.mutex) (by rw [hpc]; exact hg)
    exact ⟨hg, hexclusive, howns⟩
  unlocked := by
    intro hd hpc
    have hslots : f.pc.SlotsOk := h.slots i f hf
    rw [hpc] at hslots
    refine ⟨hslots.1, hslots.2, fun a s' evs hstep => ?_⟩
    have ht := transition_of_step hstep
    by_cases hi : a.call? = some i
    · refine (ht.unlocked_self hi hf hpc).imp_left fun hframes => ?_
      exact ⟨f, hframes ▸ hf, hpc⟩
    · obtain ⟨f', hf', -, hpc'⟩ := ht.frame_after hi hf
      rw [hpc] at hpc'
      exact Or.inl ⟨f', hf', hpc'.elim id id⟩
  reLock := by
    intro hd hpc
    have hslots : f.pc.SlotsOk := h.slots i f hf
    rw [hpc] at hslots
    refine ⟨hslots.1, hslots.2, fun a s' evs hstep => ?_⟩
    have ht := transition_of_step hstep
    by_cases hi : a.call? = some i
    · exact Or.inr (ht.reLock_self hi hf hpc)
    · obtain ⟨f', hf', -, hpc'⟩ := ht.frame_after hi hf
      rw [hpc] at hpc'
      exact Or.inl ⟨f', hf', hpc'.elim id id⟩
  defined := fun g => hdefined i f g hf

/-- A call of `process` that returns leaves its mutex to its thread. -/
theorem Basics.returned (h : Basics s) {i : CallId} {f : Frame V R}
    {guard : Addr} {value : V} {result : ProcessResult R}
    (hf : s.frames i = some f)
    (hmethod : f.call.method = .process guard value)
    (ht : Transition cfg s a s' evs)
    (he : .leave i (.returned result) ∈ evs) :
    s'.guardAt f.call.mutex = some (.user f.call.thread) ∧
      s'.Owns f.call.thread f.call.mutex ∧
      ∀ j, s'.guardOf j ≠ some f.call.mutex := by
  obtain ⟨g, hat, hplace⟩ := ht.returned hf hmethod he
  obtain rfl : g = f.call.mutex := (h.locals.at hat).1
  refine ⟨hplace, by simp [State.Owns, hplace, ownerOf], fun j hj => ?_⟩
  have hcall := (ht.owners h.slots h.owners j f.call.mutex).mpr hj
  rw [hplace] at hcall
  cases hcall

/-- In every run of matched calls the lock discipline is kept. -/
theorem lock_discipline (h : Run cfg frontState data acts log s) :
    s.LockDiscipline cfg log where
  same := by
    intro i j f f' hi hj hf hf'
    have hsame := (h.registered i f hi hf).symm.trans (h.registered j f' hj hf')
    exact PNat.coe_injective hsame
  registered := h.registered
  access := h.basics.lockProtocol.access
  handle := by
    intro i f hf
    obtain ⟨l, -, hR⟩ := h.refines
    exact h.basics.handleDiscipline hR.popOk.defined hf
  returned := fun i f g v r a s' evs hf hmethod hstep he =>
    h.basics.returned hf hmethod (transition_of_step hstep) he

/-- Call 0 runs `unlocked` in its callback.  Meanwhile call 1 passes another
mutex and call 2 pushes its task, which call 0 pops.  Call 0 is about to
return. -/
def otherMutexRun : List (Action Unit Nat Nat Nat) :=
  [.lock 0 1, .call 0 ⟨0, 1, .process 1 10⟩, .step 0, .step 0, .step 0,
    .callback 0 .unlocked, .lock 1 2, .call 1 ⟨1, 2, .process 2 20⟩, .step 1,
    .call 2 ⟨2, 1, .lockAndProcess 30⟩, .step 2, .step 2, .step 2, .step 2,
    .step 2, .callback 0 .endUnlocked, .step 0, .callback 0 .pop,
    .callback 0 (.ret 5), .step 0]

/-- The lock discipline is kept in `otherMutexRun`. -/
theorem lock_discipline_otherMutex :
    State.LockDiscipline ⟨.default, false⟩
      ((run ⟨.default, false⟩ 0 (fun _ => ()) otherMutexRun).get
        (by decide)).2
      ((run ⟨.default, false⟩ 0 (fun _ => ()) otherMutexRun).get
        (by decide)).1 :=
  lock_discipline (Run.of_run (by decide))

end ContentionQueue
