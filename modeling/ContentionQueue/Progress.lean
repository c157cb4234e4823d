import ContentionQueue.Unwinding

/-!
# Wake-ups and progress

* A task that was told to go on is not asleep (`Run.awake`): a call goes to
  sleep only while its `FRONT_BIT` is clear, and whoever sets the bit wakes
  it.
* In runs whose callbacks do not unwind, do not call the queue and do not
  lock, nobody is stuck (`no_stuck_state`): while a call has not ended, some
  call has an enabled step, or a thread can drop a guard, or a thread that
  owns a mutex waits at the start of a method for a mutex.

The argument for the second part follows the waiting.  A mutex that is locked
is in the hands of a call, which can go on, or of user code.  A call that
sleeps waits for the call with front permission, which does not sleep.
-/

namespace ContentionQueue

open Machines State HandOff

variable {M FS V R : Type} {cfg : Config} {s s' : State M FS V R}
  {a : Action M FS V R} {evs log : List (Event V R)}
  {acts : List (Action M FS V R)} {frontState : FS} {data : Addr → M}

/-! ## No lost wake-up -/

/-- Whether a call sleeps or is about to go to sleep. -/
def Pc.isSleeper : Pc V R → Bool
  | .wait _ => true
  | .asleep _ => true
  | _ => false

/-- A call that sleeps or is about to go to sleep has not been told to go
on. -/
def Frame.Awake (f : Frame V R) : Prop :=
  f.pc.isSleeper = true → f.taskState.isFront = false

theorem isSleeper_entry (m : Method V) :
    (m.entry : Pc V R).isSleeper = false := by
  cases m <;> rfl

theorem awake_of_not_sleeper {f : Frame V R} (h : f.pc.isSleeper = false) :
    f.Awake := by
  intro hsleeper
  rw [h] at hsleeper
  cases hsleeper

/-- A hand-off finds no call about to go to sleep, since both would have the
guard. -/
theorem Basics.awake_wakeNext {s₁ : State M FS V R} {i : CallId}
    {wake : TaskState → TaskState} (hb : Basics s) (hinside : s.Inside i)
    (hframes : ∀ j, j ≠ i → s₁.frames j = s.frames j)
    (hself : ∀ f, s₁.frames i = some f → f.pc.isSleeper = false)
    (h : AllFrames Frame.Awake s.frames) :
    AllFrames Frame.Awake (s₁.wakeNext wake).frames := by
  intro j f hf
  rcases eq_or_ne j i with rfl | hj
  · obtain ⟨f₀, hf₀, rfl | rfl⟩ := frame_of_wakeNext hf
    · exact awake_of_not_sleeper (hself f hf₀)
    · refine awake_of_not_sleeper ?_
      have hpc := hself f₀ hf₀
      change f₀.pc.notifyOne.isSleeper = false
      cases hp : f₀.pc <;> rw [hp] at hpc <;> first | rfl | cases hpc
  · obtain ⟨f₀, hf₀, rfl | rfl⟩ := frame_of_wakeNext hf
    · exact h j f (hframes j hj ▸ hf₀)
    · rw [hframes j hj] at hf₀
      refine awake_of_not_sleeper ?_
      change f₀.pc.notifyOne.isSleeper = false
      cases hp : f₀.pc
      case wait g =>
        have hin := hb.inside (g := g) hf₀ (by rw [hp]; rfl) (by rw [hp]; rfl)
        exact absurd (hb.exclusive hin hinside) hj
      all_goals rfl

theorem Transition.awake {l : Line CallId V} (ht : Transition cfg s a s' evs)
    (hR : Refines log s l) (h : AllFrames Frame.Awake s.frames) :
    AllFrames Frame.Awake s'.frames := by
  have hb := hR.basics
  cases ht
  case handOff i f g result hat =>
    refine hb.awake_wakeNext (i := i) ?_ ?_ ?_ h
    · exact hb.inside (g := g) hat.frame (by rw [hat.pc]; rfl)
        (by rw [hat.pc]; rfl)
    · exact fun j hj => Function.update_of_ne hj _ _
    · intro f' hf'
      obtain rfl := frame_of_update hf'
      rfl
  case errHandOff i f g p hat =>
    refine hb.awake_wakeNext (i := i) ?_ ?_ ?_ h
    · exact hb.inside (g := g) hat.frame (by rw [hat.pc]; rfl)
        (by rw [hat.pc]; rfl)
    · exact fun j hj => Function.update_of_ne hj _ _
    · intro f' hf'
      obtain rfl := frame_of_update hf'
      rfl
  case push i f g value hat =>
    have hnew := ((hR.at hat).pushing rfl).2
    exact h.update fun _ => by simp [hnew]
  case wait i f g hat =>
    have hpc : f.pc.isSleeper = true := by rw [hat.pc]; rfl
    exact h.update fun _ => h i f hat.frame hpc
  case testNotFront hfront => exact h.update fun _ => hfront
  case callOther => exact h.update (awake_of_not_sleeper (isSleeper_entry _))
  all_goals first | exact h | exact h.update (awake_of_not_sleeper rfl)

/-- A call goes to sleep only while its task has not been told to go on. -/
theorem Run.awake (h : Run cfg frontState data acts log s) :
    AllFrames Frame.Awake s.frames := by
  induction h with
  | nil => simp [AllFrames, State.new]
  | snoc run _ hstep ih =>
      obtain ⟨l, -, hR⟩ := Run.refines run
      exact (transition_of_step hstep).awake hR ih

/-! ## Quiet runs -/

/-- An action of a run in which callbacks do not unwind, do not call the queue
and do not lock. -/
def Quiet (s : State M FS V R) : Action M FS V R → Prop
  | .call _ c => s.threads c.thread = []
  | .callback _ .unwind => False
  | .lock t _ => s.threads t = []
  | _ => True

instance (s : State M FS V R) : (a : Action M FS V R) → Decidable (Quiet s a)
  | .call _ c => inferInstanceAs (Decidable (s.threads c.thread = []))
  | .step _ => isTrue trivial
  | .callback _ .unwind => isFalse id
  | .callback _ .peek => isTrue trivial
  | .callback _ .pop => isTrue trivial
  | .callback _ (.mutexState _) => isTrue trivial
  | .callback _ (.frontState _) => isTrue trivial
  | .callback _ .isQueuePoisoned => isTrue trivial
  | .callback _ .clearQueuePoison => isTrue trivial
  | .callback _ .unlocked => isTrue trivial
  | .callback _ .endUnlocked => isTrue trivial
  | .callback _ (.ret _) => isTrue trivial
  | .spuriousWake _ => isTrue trivial
  | .lock t _ => inferInstanceAs (Decidable (s.threads t = []))
  | .unlock _ _ => isTrue trivial
  | .poison _ => isTrue trivial
  | .clearPoison _ => isTrue trivial
  | .releaseLeaked _ => isTrue trivial

/-- The runs of a new queue that take only quiet actions and in which every
call is matched. -/
def QuietRun (cfg : Config) (frontState : FS) (data : Addr → M)
    (acts : List (Action M FS V R)) (log : List (Event V R))
    (s : State M FS V R) : Prop :=
  (machine M FS V R cfg).Exec (fun s a => a.Matched ∧ Quiet s a)
    (State.new frontState data) acts log s

/-- The events and the state of a list of actions, if each of them is enabled
and quiet and every call is matched. -/
def quietRun (cfg : Config) (frontState : FS) (data : Addr → M)
    (acts : List (Action M FS V R)) :
    Option (State M FS V R × List (Event V R)) :=
  (machine M FS V R cfg).exec (fun s a => a.Matched ∧ Quiet s a)
    (State.new frontState data) acts

theorem QuietRun.of_quietRun
    (h : (quietRun cfg frontState data acts).isSome) :
    QuietRun cfg frontState data acts
      ((quietRun cfg frontState data acts).get h).2
      ((quietRun cfg frontState data acts).get h).1 :=
  Machine.Exec.of_isSome h

theorem QuietRun.run (h : QuietRun cfg frontState data acts log s) :
    Run cfg frontState data acts log s :=
  Machine.Exec.mono (fun _ _ => And.left) h

theorem Transition.quiet_events (ht : Transition cfg s a s' evs)
    (hquiet : Quiet s a) (i : CallId) : .callbackUnwind i ∉ evs := by
  intro he
  cases ht <;> simp only [List.mem_singleton, List.not_mem_nil,
    reduceCtorEq] at he
  exact hquiet

theorem QuietRun.no_unwind (h : QuietRun cfg frontState data acts log s)
    (i : CallId) : .callbackUnwind i ∉ log := by
  refine Machine.Exec.invariant
    (I := fun log _ => .callbackUnwind i ∉ log) (by simp) ?_ h
  intro log s a s' evs hI hquiet hstep
  rw [List.mem_append, not_or]
  exact ⟨hI, (transition_of_step hstep).quiet_events hquiet.2 i⟩

/-- What an action does to the stack of a thread. -/
theorem Transition.threads (ht : Transition cfg s a s' evs) (t : ThreadId) :
    s'.threads t = s.threads t ∨ s'.threads t = (s.threads t).tail ∨
      ∃ i c, a = .call i c ∧ c.thread = t ∧
        s'.threads t = i :: s.threads t := by
  have hupdate : ∀ {t₀ : ThreadId},
      Function.update s.threads t₀ (s.threads t₀).tail t = s.threads t ∨
        Function.update s.threads t₀ (s.threads t₀).tail t =
          (s.threads t).tail := by
    intro t₀
    rcases eq_or_ne t t₀ with rfl | hne
    · exact Or.inr (Function.update_self _ _ _)
    · exact Or.inl (Function.update_of_ne hne _ _)
  cases ht
  case callProcess i thread mutex guard value _ _ _ =>
    rcases eq_or_ne t thread with rfl | hne
    · exact Or.inr (Or.inr ⟨i, _, rfl, rfl, Function.update_self _ _ _⟩)
    · exact Or.inl (Function.update_of_ne hne _ _)
  case callOther i c _ _ _ =>
    rcases eq_or_ne t c.thread with rfl | hne
    · exact Or.inr (Or.inr ⟨i, c, rfl, rfl, Function.update_self _ _ _⟩)
    · exact Or.inl (Function.update_of_ne hne _ _)
  all_goals
    first
    | exact Or.inl rfl
    | exact hupdate.imp_right Or.inl
    | exact Or.inl (by simp)

/-- In a quiet run a thread is in one call at a time. -/
theorem QuietRun.depth (h : QuietRun cfg frontState data acts log s)
    (t : ThreadId) : (s.threads t).length ≤ 1 := by
  refine Machine.Exec.invariant
    (I := fun _ s => ∀ t, (s.threads t).length ≤ 1)
    (by simp [State.new]) ?_ h t
  intro log s a s' evs hI hquiet hstep t
  rcases (transition_of_step hstep).threads t with
    hsame | htail | ⟨i, c, rfl, rfl, hpush⟩
  · rw [hsame]
    exact hI t
  · rw [htail, List.length_tail]
    have hle := hI t
    omega
  · have hempty : s.threads c.thread = [] := hquiet.2
    rw [hpush, hempty]
    simp

/-- In a quiet run a call that has not ended runs. -/
theorem QuietRun.at (h : QuietRun cfg frontState data acts log s)
    {i : CallId} {f : Frame V R} (hf : s.frames i = some f)
    (hlive : f.pc.isLive = true) :
    s.threads f.call.thread = [i] ∧ s.At i f f.pc := by
  have hmem : i ∈ s.threads f.call.thread :=
    (h.run.basics.nested.mem _ _).mpr
      ⟨f.kind, by simp [kindOf, hf], rfl, hlive⟩
  have hstack : s.threads f.call.thread = [i] := by
    have hdepth := h.depth f.call.thread
    cases hs : s.threads f.call.thread with
    | nil => simp [hs] at hmem
    | cons j rest =>
        rw [hs, List.length_cons] at hdepth
        obtain rfl : rest = [] := List.length_eq_zero_iff.mp (by omega)
        rw [hs, List.mem_singleton] at hmem
        rw [hmem]
  exact ⟨hstack, hf, by simp [State.running, hstack], rfl⟩

/-! ## The closure of `unlocked` -/

/-- Whether a call is between the two halves of `unlocked`. -/
def Pc.isUnlocked : Pc V R → Bool
  | .unlocked _ => true
  | .reLock _ => true
  | _ => false

/-- A call does not own its mutex in `unlocked`. -/
def State.UnlockedFree (s : State M FS V R) : Prop :=
  ∀ i f, s.frames i = some f → f.pc.isUnlocked = true →
    ¬ s.Owns f.call.thread f.call.mutex

theorem isUnlocked_entry (m : Method V) :
    (m.entry : Pc V R).isUnlocked = false := by
  cases m <;> rfl

@[simp] theorem isUnlocked_notifyOne (pc : Pc V R) :
    pc.notifyOne.isUnlocked = pc.isUnlocked := by
  cases pc <;> rfl

/-- A quiet action of another call gives a thread no guard while it is in a
call. -/
theorem not_mayGain_of_quiet {i : CallId} {t : ThreadId}
    (hstack : s.threads t = [i]) (hquiet : Quiet s a)
    (hi : a.call? ≠ some i) : ¬ s.MayGain t a := by
  intro hgain
  cases a with
  | call j c =>
      obtain ⟨rfl, -⟩ := hgain
      have hempty : s.threads c.thread = [] := hquiet
      rw [hempty] at hstack
      cases hstack
  | step j =>
      obtain ⟨f, -, hrun, rfl⟩ := hgain
      have htop : i = j := by simpa [State.running, hstack] using hrun
      exact hi (congrArg some htop.symm)
  | callback j op =>
      cases op with
      | unwind => exact hquiet
      | _ => exact hgain
  | lock t' b =>
      obtain ⟨rfl, -⟩ := hgain
      rw [hquiet] at hstack
      cases hstack
  | unlock t' b => exact hgain
  | spuriousWake j => exact hgain
  | poison b => exact hgain
  | clearPoison b => exact hgain
  | releaseLeaked b => exact hgain

theorem Transition.reach_unlocked (ht : Transition cfg s a s' evs)
    (hb : Basics s) (h : s.UnlockedFree) {i : CallId} {f : Frame V R}
    (hi : a.call? = some i) (hf : s'.frames i = some f)
    (hpc : f.pc.isUnlocked = true) :
    ¬ s'.Owns f.call.thread f.call.mutex := by
  have howns := fun t b => ht.owns (t := t) (b := b)
  cases ht <;> cases hi
  case unlocked hin =>
    obtain rfl := frame_of_update hf
    exact not_owns_of_free
      (by simp [← (hb.locals.at hin.loc).1 _ hin.guard])
  case endUnlocked hat =>
    obtain rfl := frame_of_update hf
    intro hown
    refine h i _ hat.frame (by rw [hat.pc]; rfl) ?_
    exact (howns _ _ hown).resolve_right id
  case frontUnlocked => exact h i f hf hpc
  case callOther =>
    obtain rfl := frame_of_update hf
    cases (isUnlocked_entry _).symm.trans hpc
  case handOff =>
    rw [pc_of_handOff hf rfl] at hpc
    cases hpc
  case errHandOff =>
    rw [pc_of_handOff hf rfl] at hpc
    cases hpc
  all_goals
    first
    | (obtain rfl := frame_of_update hf; cases hpc)
    | (rename_i hin
       rw [hin.pc_eq hf] at hpc
       cases hpc)

theorem Transition.unlockedFree (ht : Transition cfg s a s' evs)
    (hrun : QuietRun cfg frontState data acts log s) (hquiet : Quiet s a)
    (h : s.UnlockedFree) : s'.UnlockedFree := by
  intro i f hf hpc
  by_cases hi : a.call? = some i
  · exact ht.reach_unlocked hrun.run.basics h hi hf hpc
  -- the call was there before, and nothing else acts on its thread
  obtain ⟨f₀, hf₀, hcall, hpc₀⟩ := ht.pc_before hi hf
    (q := fun pc => pc.isUnlocked = true) (by simp) hpc
  have hlive : f₀.pc.isLive = true := by
    cases hp : f₀.pc <;> rw [hp] at hpc₀ <;> first | rfl | cases hpc₀
  rw [hcall]
  intro hown
  rcases ht.owns hown with hbefore | hgain
  · exact h i f₀ hf₀ hpc₀ hbefore
  · exact not_mayGain_of_quiet (hrun.at hf₀ hlive).1 hquiet hi hgain

theorem QuietRun.unlockedFree
    (h : QuietRun cfg frontState data acts log s) : s.UnlockedFree := by
  induction h with
  | nil => simp [State.UnlockedFree, State.new]
  | snoc run hquiet hstep ih =>
      exact (transition_of_step hstep).unlockedFree run hquiet.2 ih

/-! ## Enabled steps -/

/-- The mutex that a call is about to lock. -/
def Frame.wants (f : Frame V R) : Option Addr :=
  match f.pc with
  | .lock _ => some f.call.mutex
  | .relock g => some g
  | .reLock _ => some f.call.mutex
  | .errLock _ => some f.call.mutex
  | .queryLock => some f.call.mutex
  | _ => none

/-- Call `i` has an enabled step.  In its callback, that is every operation of
the handle, the return and the unwind. -/
inductive State.CanGo (cfg : Config) (s : State M FS V R) (i : CallId) :
    Prop where
  | step (h : (machine M FS V R cfg).Enabled s (.step i))
  | callback (h : ∀ op, op ≠ .endUnlocked →
      (machine M FS V R cfg).Enabled s (.callback i op))
  | endUnlocked (h : (machine M FS V R cfg).Enabled s
      (.callback i .endUnlocked))

section Enabled

variable {i : CallId} {f : Frame V R}

/-- A block of a call does not block, unless it locks a mutex. -/
theorem isSome_stepFrame (hlive : f.pc.isLive = true)
    (huser : f.pc.isUserCode = false) (hasleep : ∀ g, f.pc ≠ .asleep g)
    (hdefined : f.pc.isUndefined = false)
    (hfree : ∀ b, f.wants = some b → (s.mutexes b).guard = none) :
    (stepFrame cfg s i f).isSome = true := by
  have hlock : ∀ {b}, f.wants = some b → (s.mutexes b).lock (.call i) =
      some ((s.mutexes b).move (.call i)) :=
    fun hb => Mutex.lock_eq_some.mpr ⟨hfree _ hb, rfl⟩
  unfold Frame.wants at hlock
  unfold stepFrame
  cases hpc : f.pc <;> rw [hpc] at hlive huser hasleep hdefined hlock <;>
    simp only
  case lock value =>
    rw [hlock rfl]
    simp only
    split <;> rfl
  case relock g => rw [hlock rfl]; rfl
  case reLock h => rw [hlock rfl]; rfl
  case errLock p => rw [hlock rfl]; rfl
  case queryLock => rw [hlock rfl]; rfl
  case asleep g => exact absurd rfl (hasleep g)
  case callback h => cases huser
  case unlocked h => cases huser
  case done outcome => cases hlive
  case undefined guard => cases hdefined
  case assertQueueGood g result =>
    split
    · rfl
    · cases result <;> rfl
  all_goals first | rfl | (split <;> rfl)

/-- A callback is never stuck. -/
theorem isSome_stepCallback {h : QueueHandle} {op : CallbackOp M FS R}
    (hop : op ≠ .endUnlocked) : (stepCallback s i f h op).isSome = true := by
  unfold stepCallback
  split
  · cases op
    case endUnlocked => exact absurd rfl hop
    all_goals first | rfl | (simp only; split <;> rfl)
  · rfl

/-- A call that runs and is not asleep can go on, or it is about to lock a
mutex that is locked. -/
theorem State.At.canGo (hat : s.At i f f.pc) (hlive : f.pc.isLive = true)
    (hasleep : ∀ g, f.pc ≠ .asleep g) (hdefined : f.pc.isUndefined = false) :
    s.CanGo cfg i ∨ ∃ b p, f.wants = some b ∧ s.guardAt b = some p := by
  by_cases hlocked : ∃ b p, f.wants = some b ∧ s.guardAt b = some p
  · exact Or.inr hlocked
  refine Or.inl ?_
  cases huser : f.pc.isUserCode with
  | false =>
      refine .step ?_
      show (step cfg s (.step i)).isSome = true
      rw [hat.step_eq]
      refine isSome_stepFrame hlive huser hasleep hdefined fun b hb => ?_
      cases hg : (s.mutexes b).guard with
      | none => rfl
      | some p => exact absurd ⟨b, p, hb, hg⟩ hlocked
  | true =>
      cases hpc : f.pc <;> rw [hpc] at huser
      case callback h =>
        refine .callback fun op hop => ?_
        show (step cfg s (.callback i op)).isSome = true
        simp only [step, hat.frame, hat.running, hpc, if_true]
        exact isSome_stepCallback hop
      case unlocked h =>
        refine .endUnlocked ?_
        show (step cfg s (.callback i .endUnlocked)).isSome = true
        simp only [step, hat.frame, hat.running, hpc, if_true]
        rfl
      all_goals cases huser

end Enabled

/-! ## Nobody is stuck -/

/-- A call is about to lock the mutex at `b`. -/
def State.Awaited (s : State M FS V R) (b : Addr) : Prop :=
  ∃ i f, s.frames i = some f ∧ f.wants = some b

/-- Whether a call is about to lock a mutex for the first time, at the start
of `lock_and_process`, `is_queue_poisoned` or `clear_queue_poison`. -/
def Pc.isFirstLock : Pc V R → Bool
  | .lock _ => true
  | .queryLock => true
  | _ => false

/-- Thread `t` owns a mutex that a call waits for, and its own call waits for
a locked mutex, which it locks for the first time. -/
def State.HoldsAndWaits (s : State M FS V R) (t : ThreadId) : Prop :=
  ∃ b i f, s.Awaited b ∧ s.guardAt b = some (.user t) ∧
    s.frames i = some f ∧ f.call.thread = t ∧ f.pc.isFirstLock = true ∧
      ∃ c p, f.wants = some c ∧ s.guardAt c = some p

/-- A call can go on, or a thread can drop the guard of a mutex that a call
waits for, or a thread owns such a mutex and waits at the start of a
method. -/
def State.Moves (cfg : Config) (s : State M FS V R) : Prop :=
  (∃ i, s.IsLive i ∧ s.CanGo cfg i) ∨
    (∃ t b, s.Awaited b ∧ s.guardAt b = some (.user t) ∧
      (machine M FS V R cfg).Enabled s (.unlock t b)) ∨
    ∃ t, s.HoldsAndWaits t

section Moves

variable {i : CallId} {f : Frame V R}

/-- A call waits for the mutex that it was given only. -/
theorem Basics.wants_eq (hb : Basics s) (hf : s.frames i = some f) {b : Addr}
    (hwants : f.wants = some b) : b = f.call.mutex := by
  have hok : f.pc.Ok s.mutexAddress f.call := hb.locals i f hf
  unfold Frame.wants at hwants
  cases hpc : f.pc <;> rw [hpc] at hok hwants <;>
    first
    | (cases hwants; done)
    | (cases hwants; rfl)
    | (cases hwants; exact hok.1)

/-- A live call that is not asleep can go on, or waits for a locked mutex. -/
theorem QuietRun.canGo (h : QuietRun cfg frontState data acts log s)
    (hf : s.frames i = some f) (hlive : f.pc.isLive = true)
    (hasleep : ∀ g, f.pc ≠ .asleep g) :
    s.Moves cfg ∨ ∃ b p, f.wants = some b ∧ s.guardAt b = some p := by
  have hdefined : f.pc.isUndefined = false := by
    obtain ⟨l, -, hR⟩ := h.run.refines
    exact (hR.frames i f hf).defined
  rcases (h.at hf hlive).2.canGo hlive hasleep hdefined with hgo | hlocked
  · exact Or.inl (Or.inl ⟨i, ⟨f, hf, hlive⟩, hgo⟩)
  · exact Or.inr hlocked

/-- A mutex that a call waits for is in the hands of somebody who can go on,
or of the user code of a thread whose call has given its guard back. -/
theorem QuietRun.owner (h : QuietRun cfg frontState data acts log s)
    {b : Addr} {p : Place} (hb : s.Awaited b) (hg : s.guardAt b = some p) :
    s.Moves cfg ∨ ∃ i f, p = .user f.call.thread ∧ s.frames i = some f ∧
      f.pc.isRegistered = true ∧
        (f.pc.isRelocking = true ∨ f.pc.isUnlocked = true) := by
  have hbasics := h.run.basics
  cases p with
  | leaked i => exact absurd (h.run.leaked hg) (h.no_unwind i)
  | call i =>
      -- a call that has a guard neither sleeps nor locks
      have hguard : s.guardOf i = some b := (hbasics.owners i b).mp hg
      obtain ⟨f, hf, hpc⟩ := Option.bind_eq_some_iff.mp hguard
      refine Or.inl ((h.canGo hf ?_ ?_).resolve_right ?_)
      · cases hp : f.pc <;> rw [hp] at hpc <;> first | rfl | cases hpc
      · rintro g hp
        rw [hp] at hpc
        cases hpc
      · rintro ⟨c, q, hwants, -⟩
        have hslots : f.pc.SlotsOk := hbasics.slots i f hf
        unfold Frame.wants at hwants
        cases hp : f.pc <;> rw [hp] at hpc hwants hslots <;>
          first
          | (cases hwants; done)
          | cases hpc
          | (rw [Pc.guard?, hslots.1] at hpc
             cases hpc)
  | user t =>
      cases huser : s.inUserCode t with
      | true =>
          refine Or.inl (Or.inr (Or.inl ⟨t, b, hb, hg, ?_⟩))
          have hguard : (s.mutexes b).guard = some (.user t) := hg
          show (step cfg s (.unlock t b)).isSome = true
          simp [step, huser, hguard]
      | false =>
          -- the thread is in a call, outside user code
          obtain ⟨i, rest, hstack⟩ : ∃ i rest, s.threads t = i :: rest := by
            cases hs : s.threads t with
            | nil => simp [inUserCode, hs] at huser
            | cons i rest => exact ⟨i, rest, rfl⟩
          obtain ⟨k, hk, hthread, hlive⟩ :=
            (hbasics.nested.mem t i).mp (by simp [hstack])
          obtain ⟨f, hf, rfl⟩ := Option.map_eq_some_iff.mp hk
          have hpc : f.pc.isUserCode = false := by
            simpa [inUserCode, hstack, hf] using huser
          subst hthread
          by_cases hasleep : ∃ g, f.pc = .asleep g
          · obtain ⟨g, hg'⟩ := hasleep
            exact Or.inr ⟨i, f, rfl, hf, by rw [hg']; rfl,
              Or.inl (by rw [hg']; rfl)⟩
          rcases h.canGo hf hlive (fun g hg' => hasleep ⟨g, hg'⟩) with
            hmoves | ⟨c, q, hwants, hq⟩
          · exact Or.inl hmoves
          have hfirst : f.pc.isFirstLock = true → s.Moves cfg := fun hfirst =>
            Or.inr (Or.inr ⟨_, b, i, f, hb, hg, hf, rfl, hfirst, c, q, hwants,
              hq⟩)
          cases hp : f.pc <;> rw [Frame.wants, hp] at hwants <;>
            first
            | (cases hwants; done)
            | exact Or.inl (hfirst (by rw [hp]; rfl))
            | exact Or.inr ⟨i, f, rfl, hf, by rw [hp]; rfl,
                Or.inl (by rw [hp]; rfl)⟩
            | exact Or.inr ⟨i, f, rfl, hf, by rw [hp]; rfl,
                Or.inr (by rw [hp]; rfl)⟩

/-- A call in the middle of `process` that is not asleep is not stuck, since
the registered mutex is not in the hands of a thread that waits for it
again. -/
theorem QuietRun.moves_of_registered
    (h : QuietRun cfg frontState data acts log s) (hf : s.frames i = some f)
    (hreg : f.pc.isRegistered = true) (hasleep : ∀ g, f.pc ≠ .asleep g) :
    s.Moves cfg := by
  have hbasics := h.run.basics
  have hlive : f.pc.isLive = true := by
    cases hp : f.pc <;> rw [hp] at hreg <;> first | rfl | cases hreg
  rcases h.canGo hf hlive hasleep with hmoves | ⟨b, p, hwants, hg⟩
  · exact hmoves
  rcases h.owner ⟨i, f, hf, hwants⟩ hg with
    hmoves | ⟨k, f', rfl, hf', hreg', hpc'⟩
  · exact hmoves
  -- the owner waits for the same mutex
  have hsame : b = f'.call.mutex := by
    rw [hbasics.wants_eq hf hwants]
    have hi := ok_registered (hbasics.locals i f hf) hreg
    have hk := ok_registered (hbasics.locals k f' hf') hreg'
    exact PNat.coe_injective (hi.symm.trans hk)
  have hown : s.Owns f'.call.thread f'.call.mutex := by
    rw [← hsame]
    simp [State.Owns, hg, ownerOf]
  rcases hpc' with hpc' | hpc'
  · exact absurd hown (h.run.unowned k f' hf' hpc' (h.no_unwind k))
  · exact absurd hown (h.unlockedFree k f' hf' hpc')

/-- While a call sleeps, somebody has front permission, or is awake and has
been told to take it. -/
theorem QuietRun.moves_of_asleep
    (h : QuietRun cfg frontState data acts log s) (hf : s.frames i = some f)
    {g : Addr} (hpc : f.pc = .asleep g) : s.Moves cfg := by
  obtain ⟨l, -, hR⟩ := h.run.refines
  have hids : i ∈ l.ids := (hR.mem_ids_iff_pc i).mpr ⟨f, hf, by rw [hpc]; rfl⟩
  obtain ⟨k, hk⟩ := l.exists_holder hids
  rw [← hR.stage_eq k] at hk
  cases hfk : s.frames k with
  | none => simp [State.stage, hfk, Stage.holds, Stage.isTold] at hk
  | some f' =>
      rw [stage_of_frame hfk, holds_stage, isTold_stage] at hk
      have hawake := h.run.awake k f' hfk
      refine h.moves_of_registered hfk ?_ ?_
      · cases hp : f'.pc <;> rw [hp] at hk <;>
          simp [Pc.holdsFront, Pc.isWaiting] at hk <;> rfl
      · rintro g' hp
        rw [Frame.Awake, hp] at hawake
        simp [hp, Pc.holdsFront, Pc.isWaiting, hawake rfl] at hk

/-- In a quiet run with a call that has not ended, a call can go on, or a
thread can drop the guard of a mutex that a call waits for, or a thread owns
such a mutex and waits for a mutex at the start of a method.  And no task that
has been told to go on is asleep. -/
theorem no_stuck_state (h : QuietRun cfg frontState data acts log s) :
    (∀ t ∈ s.mutexExclusive.queue, ∀ f, s.frames t.state = some f →
      f.taskState.isFront = true → ∀ g, f.pc ≠ .asleep g) ∧
    ((∃ i, s.IsLive i) → s.Moves cfg) := by
  refine ⟨?_, ?_⟩
  · intro t _ f hf hfront g hpc
    have hclear := h.run.awake t.state f hf (by rw [hpc]; rfl)
    rw [hfront] at hclear
    cases hclear
  · rintro ⟨i, f, hf, hlive⟩
    by_cases hasleep : ∃ g, f.pc = .asleep g
    · obtain ⟨g, hg⟩ := hasleep
      exact h.moves_of_asleep hf hg
    rcases h.canGo hf hlive (fun g hg => hasleep ⟨g, hg⟩) with
      hmoves | ⟨b, p, hwants, hg⟩
    · exact hmoves
    rcases h.owner ⟨i, f, hf, hwants⟩ hg with
      hmoves | ⟨k, f', -, hf', hreg, -⟩
    · exact hmoves
    by_cases hasleep' : ∃ g, f'.pc = .asleep g
    · obtain ⟨g', hg'⟩ := hasleep'
      exact h.moves_of_asleep hf' hg'
    · exact h.moves_of_registered hf' hreg fun g hg => hasleep' ⟨g, hg⟩

end Moves

/-- After `handOverRun` nobody is stuck. -/
theorem no_stuck_state_handOver :
    let s := ((quietRun ⟨.default, false⟩ 0 (fun _ => ())
      handOverRun).get (by decide)).1
    (∀ t ∈ s.mutexExclusive.queue, ∀ f, s.frames t.state = some f →
      f.taskState.isFront = true → ∀ g, f.pc ≠ .asleep g) ∧
    ((∃ i, s.IsLive i) → s.Moves ⟨.default, false⟩) :=
  no_stuck_state (QuietRun.of_quietRun (by decide))

/-- Thread 0 has locked the mutex and calls `lock_and_process`. -/
def selfBlocked : State Unit Nat Nat Nat :=
  ((State.new 0 fun _ => ()).setMutex 1 ⟨some (.user 0), false, ()⟩).pushFrame
    0 ⟨⟨0, 1, .lockAndProcess 10⟩, .new, .lock 10⟩

/-- Call 1 gets a guard of another mutex than the one that it passes.  It is
about to go to sleep when call 0 wakes it. -/
def lostWakeUpRun : List (Action Unit Nat Nat Nat) :=
  [.call 0 ⟨0, 1, .lockAndProcess 10⟩, .step 0, .step 0, .step 0, .step 0,
    .lock 1 2, .call 1 ⟨1, 1, .process 2 20⟩, .step 1, .step 1, .step 1,
    .callback 0 (.ret 5), .step 0, .step 1]

/-- In `selfBlocked` no call can go on. -/
theorem not_canGo_selfBlocked (i : CallId) :
    ¬ selfBlocked.CanGo ⟨.default, false⟩ i := by
  intro hgo
  rcases eq_or_ne i 0 with rfl | hi
  · cases hgo with
    | step h =>
        revert h
        decide
    | callback h =>
        have hpop := h .pop (by decide)
        revert hpop
        decide
    | endUnlocked h =>
        revert h
        decide
  · have hframe : selfBlocked.frames i = none := by
      simp [selfBlocked, hi, State.new]
    cases hgo with
    | step h => simp [Machine.Enabled, machine, step, hframe] at h
    | callback h =>
        have hpop := h .pop (by decide)
        simp [Machine.Enabled, machine, step, hframe] at hpop
    | endUnlocked h => simp [Machine.Enabled, machine, step, hframe] at h

/-- In `selfBlocked` nobody can drop a guard. -/
theorem not_unlock_selfBlocked (t : ThreadId) (b : Addr) :
    ¬ (machine Unit Nat Nat Nat ⟨.default, false⟩).Enabled selfBlocked
      (.unlock t b) := by
  intro h
  have hcond : selfBlocked.inUserCode t = true ∧
      (selfBlocked.mutexes b).guard = some (.user t) := by
    simpa [Machine.Enabled, machine, step] using h
  obtain ⟨huser, hguard⟩ := hcond
  rcases eq_or_ne b 1 with rfl | hb
  · obtain rfl : 0 = t := by simpa [selfBlocked] using hguard
    revert huser
    decide
  · simp [selfBlocked, hb, State.new] at hguard

/-- A quiet run can get stuck in a thread that locks a mutex that it owns, and
without matched calls a call can be asleep after it has been told to go
on. -/
theorem stuck_states :
    (QuietRun ⟨.default, false⟩ 0 (fun _ => ())
        [.lock 0 1, .call 0 ⟨0, 1, .lockAndProcess 10⟩] [] selfBlocked ∧
      selfBlocked.IsLive 0 ∧
      (∀ i, ¬ selfBlocked.CanGo ⟨.default, false⟩ i) ∧
      ∀ t b, ¬ (machine Unit Nat Nat Nat ⟨.default, false⟩).Enabled
        selfBlocked (.unlock t b)) ∧
    ∃ log s, (machine Unit Nat Nat Nat ⟨.default, false⟩).Exec Quiet
      (State.new 0 fun _ => ()) lostWakeUpRun log s ∧
      ∃ t ∈ s.mutexExclusive.queue, ∃ f g, s.frames t.state = some f ∧
        f.taskState.isFront = true ∧ f.pc = .asleep g := by
  refine ⟨⟨Machine.Exec.of_exec rfl, ⟨_, rfl, rfl⟩, not_canGo_selfBlocked,
    not_unlock_selfBlocked⟩, ?_⟩
  exact ⟨_, _, Machine.Exec.of_isSome (by decide), ⟨1, some 20⟩, by decide,
    ⟨⟨1, 1, .process 2 20⟩, ⟨1⟩, .asleep 2⟩, 2, by decide, by decide, rfl⟩

end ContentionQueue
