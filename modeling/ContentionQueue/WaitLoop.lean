import ContentionQueue.Disguise
import ContentionQueue.Lib.Simulation
import ContentionQueue.Progress

/-!
# Spurious wake-ups

`wait_until_at_front` waits in a loop, since `Condvar::wait` may return without
a notification.  This module shows that the loop hides that: whatever is
observed in a run with spurious wake-ups is observed in a run without them.

* `State.settle` is the map between the two runs.  It puts a call that has no
  front permission and is on its way around the loop back to sleep, and takes
  the mutex from it.
* `Transition.settle` covers the steps outside the loop, which settled states
  make too, and `Transition.settle_loop` the steps around the loop, which they
  skip.  `settle_push` is the way into the loop.
* `spurious_wakeups_invisible` is the result.
-/

namespace ContentionQueue

open Machines State

variable {M FS V R : Type} {cfg : Config} {s s' : State M FS V R}
  {a : Action M FS V R} {evs log : List (Event V R)}
  {acts : List (Action M FS V R)} {frontState : FS} {data : Addr → M}
  {i : CallId} {f : Frame V R}

/-! ## Settled states -/

/-- Back to sleep from the loop of `wait_until_at_front`. -/
def Pc.settle : Pc V R → Pc V R
  | .wait g => .asleep g
  | .relock g => .asleep g
  | .testFront g => .asleep g
  | pc => pc

/-- A call without front permission goes back to sleep. -/
def Frame.settle (f : Frame V R) : Frame V R :=
  if f.taskState.isFront then f else { f with pc := f.pc.settle }

/-- The call is on its way around the loop with the mutex `b` locked. -/
def Frame.dozesOn (f : Frame V R) (b : Addr) : Bool :=
  !f.taskState.isFront &&
    match f.pc with
    | .wait g => g = b
    | .testFront g => g = b
    | _ => false

/-- The call is not on its way around the loop with a mutex. -/
def Frame.Settled (f : Frame V R) : Prop := ∀ b, f.dozesOn b = false

/-- Call `i` is on its way around the loop with the mutex `b` locked. -/
def State.dozesOn (s : State M FS V R) (b : Addr) (i : CallId) : Bool :=
  match s.frames i with
  | some f => f.dozesOn b
  | none => false

theorem settle_of_pc (hpc : f.pc.settle = f.pc) : f.settle = f := by
  unfold Frame.settle
  split
  · rfl
  · rw [hpc]

theorem settle_of_front (hfront : f.taskState.isFront = true) :
    f.settle = f := by
  unfold Frame.settle
  rw [if_pos hfront]

theorem settle_of_plain {pc : Pc V R} (hpc : pc.isPlain = true) :
    pc.settle = pc := by
  cases pc <;> first | rfl | cases hpc

/-- The disguise that puts calls back to sleep and takes the mutexes from the
calls of `dozes`. -/
def settling (dozes : Addr → CallId → Bool) : Disguise V R where
  call := id
  frame := fun f => some f.settle
  left := fun _ => false
  gone := dozes
  thread_call := fun _ => rfl
  mutex_call := fun _ => rfl
  process_call := fun _ => rfl
  clear_call := fun _ => Iff.rfl
  plain := fun _ hpc => congrArg some (settle_of_pc (settle_of_plain hpc))
  user := fun {f} hpc => congrArg some (settle_of_pc (by
    cases hp : f.pc <;> rw [hp] at hpc <;> first | rfl | cases hpc))
  stays := fun _ => rfl
  left_wake := fun _ _ => rfl

namespace State

/-- The state in which calls without front permission sleep, and the calls of
`dozes` do not have a mutex. -/
def settleBy (s : State M FS V R) (dozes : Addr → CallId → Bool) :
    State M FS V R :=
  s.disguise (settling dozes)

/-- The state in which every call without front permission sleeps. -/
def settle (s : State M FS V R) : State M FS V R := s.settleBy s.dozesOn

end State

theorem isSeen_settling (s : State M FS V R) (dozes : Addr → CallId → Bool) :
    s.isSeen (settling dozes) = fun _ => true := by
  funext j
  cases hj : s.frames j <;> simp [isSeen, hj, settling]

@[simp] theorem settle_frames (s : State M FS V R) (j : CallId) :
    s.settle.frames j = (s.frames j).map Frame.settle := by
  cases hf : s.frames j <;> simp [State.settle, State.settleBy, settling, hf]

@[simp] theorem settle_mutexes (s : State M FS V R) (b : Addr) :
    s.settle.mutexes b = (s.mutexes b).without (s.dozesOn b) := rfl

@[simp] theorem settle_threads (s : State M FS V R) :
    s.settle.threads = s.threads := by
  simp [State.settle, State.settleBy, disguise, isSeen_settling]

/-- What a state settles to, field by field. -/
theorem settle_eq {t : State M FS V R}
    (haddress : s.mutexAddress = t.mutexAddress)
    (hfront : s.frontExclusive = t.frontExclusive)
    (hexclusive : s.mutexExclusive = t.mutexExclusive)
    (hmutexes : ∀ b, (s.mutexes b).without (s.dozesOn b) = t.mutexes b)
    (hframes : ∀ j, (s.frames j).map Frame.settle = t.frames j)
    (hthreads : s.threads = t.threads) : s.settle = t := by
  have hframes' : s.settle.frames = t.frames := by
    funext j
    rw [settle_frames, hframes]
  have hthreads' : s.settle.threads = t.threads := by
    rw [settle_threads, hthreads]
  obtain ⟨_, _, _, _, _, _⟩ := t
  cases haddress
  cases hfront
  cases hexclusive
  cases hframes'
  cases hthreads'
  cases funext hmutexes
  rfl

theorem settle_entry (m : Method V) :
    (m.entry : Pc V R).settle = m.entry := by
  cases m <;> rfl

/-- A call in the loop that stays where it is has front permission. -/
theorem isFront_of_settle (hf : f.settle = f) (hpc : f.pc.settle ≠ f.pc) :
    f.taskState.isFront = true := by
  by_contra hfront
  unfold Frame.settle at hf
  rw [if_neg hfront] at hf
  exact hpc (congrArg Frame.pc hf)

theorem settled_of_settle (hf : f.settle = f) : f.Settled := by
  intro b
  unfold Frame.dozesOn
  cases hp : f.pc
  case wait g | testFront g =>
    have hfront := isFront_of_settle hf (by rw [hp]; exact nofun)
    simp [hfront]
  all_goals simp

theorem dozesOn_of_settled {b : Addr}
    (h : ∀ f, s.frames i = some f → f.Settled) : s.dozesOn b i = false := by
  unfold State.dozesOn
  split
  · rename_i f hf
    exact h f hf b
  · rfl

/-- A call that does not have the mutex is woken in both runs alike. -/
theorem settle_wake {wake : TaskState → TaskState}
    (hwake : ∀ t, (wake t).isFront = true) (hf : f.Settled) :
    (f.wake wake).settle = f.settle.wake wake := by
  rw [settle_of_front (hwake _)]
  unfold Frame.settle
  split
  · rfl
  · rename_i hfront
    cases hpc : f.pc
    case wait g | testFront g =>
      have hdoze := hf g
      simp [Frame.dozesOn, hpc, hfront] at hdoze
    all_goals simp [Frame.wake, hpc, Pc.settle, Pc.notifyOne]

/-- While a call hands the front over, no call has the mutex in the loop. -/
theorem Basics.settled (hb : Basics s) (hf : s.frames i = some f)
    (hpc : f.pc.isHandOff = true) : AllFrames Frame.Settled s.frames := by
  have hinside : s.Inside i := by
    cases hp : f.pc <;> rw [hp] at hpc <;> cases hpc
    all_goals exact hb.inside hf (by rw [hp]; rfl) (by rw [hp]; rfl)
  intro j f' hf' b
  by_contra hdoze
  have hinside' : s.Inside j := by
    cases hp : f'.pc
    case wait g | testFront g =>
      exact hb.inside (g := g) hf' (by rw [hp]; rfl) (by rw [hp]; rfl)
    all_goals simp [Frame.dozesOn, hp] at hdoze
  obtain rfl := hb.exclusive hinside hinside'
  obtain rfl := Option.some.inj (hf.symm.trans hf')
  refine hdoze (settled_of_settle (settle_of_pc ?_) b)
  cases hp : f.pc <;> rw [hp] at hpc <;> cases hpc <;> rfl

/-! ## Outside the loop -/

/-- The action is not about a call that is on its way around the loop, and it
does not enter the loop. -/
structure State.OutsideLoop (s : State M FS V R) (a : Action M FS V R) :
    Prop where
  settle_eq : ∀ i f, a.call? = some i → s.frames i = some f → f.settle = f
  not_push : ∀ i f g v, a = .step i → s.frames i = some f →
    f.pc ≠ .pushBack g v
  not_spurious : ∀ i, a ≠ .spuriousWake i

/-- A step outside the loop leaves its call outside. -/
theorem Transition.settle_self (ht : Transition cfg s a s' evs)
    (hout : s.OutsideLoop a) (hi : a.call? = some i)
    (hf : s'.frames i = some f) : f.settle = f := by
  have hsame : s.frames i = some f → f.settle = f := hout.settle_eq i f hi
  have hloop : ∀ {f pc}, s.At i f pc → pc.settle ≠ pc →
      f.taskState.isFront = true := by
    intro f pc hat hpc
    refine isFront_of_settle (hout.settle_eq i f hi hat.frame) ?_
    rwa [hat.pc]
  cases ht <;> cases hi
  case push hat => exact absurd hat.pc (hout.not_push _ _ _ _ rfl hat.frame)
  case spuriousWake => exact absurd rfl (hout.not_spurious i)
  case peek | peekPanic | popNone | isQueuePoisoned | frontState |
      frontUnlocked | clearQueuePoison | mutexState => exact hsame hf
  case relock hat =>
    have hfront := hloop hat (by exact nofun)
    obtain rfl := frame_of_update hf
    exact settle_of_front hfront
  case testNotFront hfront hat =>
    have hfront' := hloop hat (by exact nofun)
    rw [hfront] at hfront'
    cases hfront'
  case handOff | errHandOff =>
    refine settle_of_pc ?_
    rw [pc_of_handOff hf rfl]
    rfl
  case callOther =>
    obtain rfl := frame_of_update hf
    exact settle_of_pc (settle_entry _)
  all_goals
    obtain rfl := frame_of_update hf
    exact settle_of_pc rfl

/-- Outside the loop a step dozes off nobody. -/
theorem Transition.dozesOn_eq (ht : Transition cfg s a s' evs)
    (hb : Basics s) (hout : s.OutsideLoop a) : s'.dozesOn = s.dozesOn := by
  funext b j
  by_cases hj : a.call? = some j
  · have hbefore : s.dozesOn b j = false := by
      refine dozesOn_of_settled fun f hf => ?_
      exact settled_of_settle (hout.settle_eq j f hj hf)
    rw [hbefore]
    exact dozesOn_of_settled fun f hf =>
      settled_of_settle (ht.settle_self hout hj hf)
  rcases ht.woken hj with hsame | ⟨i, f, t, rest, -, -, -, hwoken⟩
  · unfold State.dozesOn
    rw [hsame]
  · have hhand : ∃ f, s.frames i = some f ∧ f.pc.isHandOff = true := by
      rcases hwoken with ⟨g, r, hat, -⟩ | ⟨g, p, hat, -, -⟩
      · exact ⟨f, hat.frame, by rw [hat.pc]; rfl⟩
      · exact ⟨f, hat.frame, by rw [hat.pc]; rfl⟩
    obtain ⟨f, hf, hpc⟩ := hhand
    rw [dozesOn_of_settled (hb.settled hf hpc j)]
    refine dozesOn_of_settled fun f' hf' => ?_
    refine settled_of_settle (settle_of_front ?_)
    rcases hwoken with ⟨g, r, -, hwoken⟩ | ⟨g, p, -, -, hwoken⟩
    all_goals
      rw [hwoken] at hf'
      obtain ⟨f₀, -, rfl⟩ := Option.map_eq_some_iff.mp hf'
      simp [Frame.wake]

/-- Settled states make the steps outside the loop. -/
theorem Transition.settle (ht : Transition cfg s a s' evs) (hb : Basics s)
    (hout : s.OutsideLoop a) : Transition cfg s.settle a s'.settle evs := by
  have hsame : s'.settle = s'.settleBy s.dozesOn := by
    unfold State.settle
    rw [ht.dozesOn_eq hb hout]
  rw [hsame]
  refine ht.disguise ⟨?_, ?_, ?_, ?_, ?_, ?_⟩
  · intro i f hi hf
    exact congrArg some (hout.settle_eq i f hi hf)
  · intro i f hi hf _
    exact congrArg some (ht.settle_self hout hi hf)
  · intro i hi b
    exact dozesOn_of_settled fun f hf =>
      settled_of_settle (hout.settle_eq i f hi hf)
  · intro i c _
    exact ⟨rfl, congrArg some (settle_of_pc (settle_entry _))⟩
  · intro i f g r _ _
    rfl
  · intro i f hf hpc j f' wake hwake hf'
    exact congrArg some (settle_wake hwake (hb.settled hf hpc j f' hf'))

/-! ## Around the loop -/

/-- The actions of user code and of the environment, without the spurious
wake-ups. -/
def Action.given : Action M FS V R → List (Action M FS V R)
  | .step _ => []
  | .spuriousWake _ => []
  | a => [a]

/-- Not a spurious wake-up. -/
def Action.isNotified : Action M FS V R → Bool
  | .spuriousWake _ => false
  | _ => true

section Loop

variable {g : Addr}

/-- A call that dozes on the mutex before and after a step, or neither. -/
theorem dozesOn_update {f' : Frame V R} {s₁ : State M FS V R} {b : Addr}
    (hf : s.frames i = some f)
    (hframes : s₁.frames = Function.update s.frames i (some f'))
    (hdozes : f'.dozesOn b = f.dozesOn b) : s₁.dozesOn b = s.dozesOn b := by
  funext j
  unfold State.dozesOn
  rw [hframes]
  rcases eq_or_ne j i with rfl | hj
  · simp [hf, hdozes]
  · rw [Function.update_of_ne hj]

/-- A step around the loop that leaves the mutexes alone. -/
theorem settle_goto {pc : Pc V R} (hf : s.frames i = some f)
    (hsettle : ({ f with pc := pc } : Frame V R).settle = f.settle)
    (hdozes : ∀ b, ({ f with pc := pc } : Frame V R).dozesOn b =
      f.dozesOn b) : (s.goto i f pc).settle = s.settle := by
  refine settle_eq rfl rfl rfl ?_ ?_ (settle_threads s).symm
  · intro b
    rw [dozesOn_update hf rfl (hdozes b)]
    rfl
  · intro j
    rcases eq_or_ne j i with rfl | hj
    · simp [hf, hsettle]
    · simp [hj]

/-- A step around the loop that locks or unlocks the mutex. -/
theorem settle_goto_setMutex {pc : Pc V R} {m : Mutex M}
    (hf : s.frames i = some f)
    (hsettle : ({ f with pc := pc } : Frame V R).settle = f.settle)
    (hdozes : ∀ b, b ≠ g → ({ f with pc := pc } : Frame V R).dozesOn b =
      f.dozesOn b)
    (hmutex : m.without (((s.setMutex g m).goto i f pc).dozesOn g) =
      (s.mutexes g).without (s.dozesOn g)) :
    ((s.setMutex g m).goto i f pc).settle = s.settle := by
  refine settle_eq rfl rfl rfl ?_ ?_ (settle_threads s).symm
  · intro b
    rcases eq_or_ne b g with rfl | hb
    · simpa using hmutex
    · rw [dozesOn_update hf rfl (hdozes b hb)]
      simp [hb]
  · intro j
    rcases eq_or_ne j i with rfl | hj
    · simp [hf, hsettle]
    · simp [hj]

/-- The settled state does not see a step around the loop. -/
theorem Transition.settle_loop (ht : Transition cfg s a s' evs)
    (hb : Basics s) (hf : s.frames i = some f)
    (hfront : f.taskState.isFront = false) (hi : a.call? = some i)
    (hloop : f.pc.settle = .asleep g) :
    evs = [] ∧ a.given = [] ∧ s'.settle = s.settle := by
  have hsettle : ∀ pc : Pc V R, pc.settle = .asleep g →
      ({ f with pc := pc } : Frame V R).settle = f.settle := by
    intro pc hpc
    simp [Frame.settle, hfront, hpc, hloop]
  cases ht <;> cases hi
  case spuriousWake g' hpc hframe =>
    obtain rfl := Option.some.inj (hframe.symm.trans hf)
    rw [hpc] at hloop
    cases hloop
    refine ⟨rfl, rfl, settle_goto hf (hsettle _ rfl) fun b => ?_⟩
    simp [Frame.dozesOn, hpc]
  case wait g' hat =>
    obtain rfl := Option.some.inj (hat.frame.symm.trans hf)
    rw [hat.pc] at hloop
    cases hloop
    refine ⟨rfl, rfl, settle_goto_setMutex hf (hsettle _ rfl) ?_ ?_⟩
    · intro b hb
      simp [Frame.dozesOn, hat.pc, hb.symm]
    · have hguard := (hb.owners i g).mpr (by rw [hat.guardOf]; rfl)
      rw [without_of_gone rfl, without_of_gone]
      · rfl
      · rw [show (s.mutexes g).guard = some (.call i) from hguard]
        simp [withoutGuard, State.dozesOn, Frame.dozesOn, hf, hfront, hat.pc]
  case relock g' hfree hat =>
    obtain rfl := Option.some.inj (hat.frame.symm.trans hf)
    rw [hat.pc] at hloop
    cases hloop
    refine ⟨rfl, rfl, settle_goto_setMutex hf (hsettle _ rfl) ?_ ?_⟩
    · intro b hb
      simp [Frame.dozesOn, hat.pc, hb.symm]
    · rw [without_of_gone, without_of_gone]
      · rfl
      · simp [withoutGuard, hfree]
      · simp [withoutGuard, Mutex.move, State.dozesOn, Frame.dozesOn, hfront]
  case testFront g' hfront' hat =>
    obtain rfl := Option.some.inj (hat.frame.symm.trans hf)
    rw [hfront] at hfront'
    cases hfront'
  case testNotFront g' hfront' hat =>
    obtain rfl := Option.some.inj (hat.frame.symm.trans hf)
    rw [hat.pc] at hloop
    cases hloop
    refine ⟨rfl, rfl, settle_goto hf (hsettle _ rfl) fun b => ?_⟩
    simp [Frame.dozesOn, hat.pc]
  case callProcess hnew => cases hf.symm.trans hnew
  case callOther hnew => cases hf.symm.trans hnew
  all_goals
    rename_i hat
    rw [hat.pc_eq hf] at hloop
    cases hloop

/-- A push enters the loop, and the settled call goes to sleep at once. -/
theorem settle_push {v : V} (hat : s.At i f (.pushBack g v))
    (hfront : f.taskState.isFront = false)
    (hguard : (s.mutexes g).guard = some (.call i)) :
    ∃ t, Transition cfg s.settle (.step i) t [.push i v] ∧
      Transition cfg t (.step i) ((s.setExclusive
        (s.mutexExclusive.pushBack ⟨i, some v⟩)).goto i f (.wait g)).settle
          [] := by
  have hf : f.settle = f := settle_of_pc (by rw [hat.pc]; rfl)
  have hat' : s.settle.At i f (.pushBack g v) := hat.disguise (congrArg some hf)
  let s₁ := (s.setExclusive (s.mutexExclusive.pushBack ⟨i, some v⟩)).goto i f
    (.wait g)
  let t := (s.settle.setExclusive (s.mutexExclusive.pushBack
    ⟨i, some v⟩)).goto i f (.wait g)
  have hwait : t.At i { f with pc := .wait g } (.wait g) :=
    ⟨Function.update_self _ _ _, hat'.running, rfl⟩
  have hsettle : s₁.settle = (t.setMutex g (t.mutexes g).unlock).goto i
      { f with pc := .wait g } (.asleep g) := by
    refine settle_eq rfl rfl rfl ?_ ?_ (settle_threads s).symm
    · intro b
      rcases eq_or_ne b g with rfl | hb
      · rw [without_of_gone]
        · simp [s₁, t]
          rfl
        · simp [s₁, hguard, withoutGuard, State.dozesOn, Frame.dozesOn, hfront]
      · rw [dozesOn_update hat.frame rfl]
        · simp [s₁, t, hb]
        · simp [Frame.dozesOn, hat.pc, hb.symm]
    · intro j
      rcases eq_or_ne j i with rfl | hj
      · simp [s₁, t, Frame.settle, hfront, Pc.settle]
      · simp [s₁, t, hj]
  refine ⟨t, .push hat', ?_⟩
  rw [hsettle]
  exact .wait hwait

end Loop

/-! ## Runs -/

theorem settle_new (frontState : FS) (data : Addr → M) :
    (State.new frontState data : State M FS V R).settle =
      State.new frontState data :=
  settle_eq rfl rfl rfl (fun _ => rfl) (fun _ => rfl) rfl

/-- Action `a` is about a call that goes around the loop. -/
def State.InLoop (s : State M FS V R) (a : Action M FS V R) : Prop :=
  ∃ i f g, a.call? = some i ∧ s.frames i = some f ∧
    f.taskState.isFront = false ∧ f.pc.settle = .asleep g

/-- Action `a` is a push. -/
def State.Pushes (s : State M FS V R) (a : Action M FS V R) : Prop :=
  ∃ i f g v, a = .step i ∧ s.frames i = some f ∧ f.pc = .pushBack g v

/-- A step is outside the loop, around the loop or into the loop. -/
theorem Transition.loop_cases (ht : Transition cfg s a s' evs)
    (hawake : AllFrames Frame.Awake s.frames) :
    s.OutsideLoop a ∨ s.InLoop a ∨ s.Pushes a := by
  by_cases hloop : s.InLoop a
  · exact .inr (.inl hloop)
  by_cases hpush : s.Pushes a
  · exact .inr (.inr hpush)
  refine .inl ⟨?_, ?_, ?_⟩
  · intro i f hi hf
    by_cases hfront : f.taskState.isFront = true
    · exact settle_of_front hfront
    have hfront' : f.taskState.isFront = false := by simpa using hfront
    refine settle_of_pc ?_
    cases hp : f.pc
    case wait g | relock g | testFront g =>
      exact absurd ⟨i, f, g, hi, hf, hfront', by rw [hp]; rfl⟩ hloop
    all_goals rfl
  · intro i f g v ha hf hp
    exact hpush ⟨i, f, g, v, ha, hf, hp⟩
  · intro i ha
    subst ha
    cases ht with
    | @spuriousWake _ f g hframe hpc =>
        have hfront := hawake i f hframe (by rw [hpc]; rfl)
        exact hloop ⟨i, f, g, rfl, hframe, hfront, by rw [hpc]; rfl⟩

/-- The same is done by user code and by the environment. -/
def GivenAs (b : Action M FS V R) (part : List (Action M FS V R)) : Prop :=
  part.flatMap Action.given = b.given

/-- The step lemma: a step is matched by the same step, by no step around the
loop, or by a push and a wait. -/
theorem settle_step (run : Run cfg frontState data acts log s)
    (hmatched : a.Matched) (hstep : step cfg s a = some (s', evs)) :
    ∃ part, GivenAs a part ∧
      (machine M FS V R cfg).Exec
        (fun _ a => a.Matched ∧ a.isNotified = true) s.settle part
          (evs.filter fun _ => true) s'.settle := by
  have ht : Transition cfg s a s' evs := transition_of_step hstep
  have hb := run.basics
  rw [List.filter_true]
  rcases ht.loop_cases run.awake with hout | hloop | hpush
  · refine ⟨[a], by simp [GivenAs], .single ⟨hmatched, ?_⟩ ?_⟩
    · cases a with
      | spuriousWake i => exact absurd rfl (hout.not_spurious i)
      | _ => rfl
    · exact step_of_transition (ht.settle hb hout)
  · obtain ⟨i, f, g, hi, hf, hfront, hpc⟩ := hloop
    obtain ⟨rfl, hgiven, hsame⟩ := ht.settle_loop hb hf hfront hi hpc
    rw [hsame]
    exact ⟨[], hgiven.symm, .nil⟩
  · obtain ⟨i, f, g, v, rfl, hf, hpc⟩ := hpush
    cases ht
    case push hat =>
      obtain ⟨l, -, hR⟩ := run.refines
      have hnew := ((hR.at hat).pushing rfl).2
      have hguard := (hb.owners _ _).mpr (by rw [hat.guardOf]; rfl)
      obtain ⟨t, hpush, hwait⟩ := settle_push hat (by simp [hnew]) hguard
      have hmatched : (Action.step i : Action M FS V R).Matched ∧
          (Action.step i : Action M FS V R).isNotified = true := ⟨trivial, rfl⟩
      have hone : (machine M FS V R cfg).Exec
          (fun _ a => a.Matched ∧ a.isNotified = true) s.settle [.step i] _ t :=
        .single hmatched (step_of_transition hpush)
      have htwo := hone.snoc hmatched (step_of_transition hwait)
      rw [List.append_nil] at htwo
      have hgiven : GivenAs (.step i : Action M FS V R) [.step i, .step i] :=
        rfl
      exact ⟨_, hgiven, htwo⟩
    all_goals
      rename_i hat
      have hpc' := hat.pc_eq hf
      rw [hpc] at hpc'
      cases hpc'

/-- Spurious wake-ups are invisible.  For every run there is a run without
spurious wake-ups in which user code and the environment do the same in the
same order and the same events are shown, and it ends in the settled state. -/
theorem spurious_wakeups_invisible (h : Run cfg frontState data acts log s) :
    ∃ acts', Run cfg frontState data acts' log s.settle ∧
      (∀ i, .spuriousWake i ∉ acts') ∧
      acts'.flatMap Action.given = acts.flatMap Action.given := by
  obtain ⟨parts, hparts, hrun⟩ := Machine.Exec.simulates State.settle
    (fun _ => true) GivenAs settle_step h
  rw [List.filter_true, settle_new] at hrun
  refine ⟨parts.flatten, hrun.mono fun _ _ h => h.1, ?_,
    Machine.flatMap_flatten hparts⟩
  intro i hi
  have hnotified := hrun.forall_mem (P := fun a => a.isNotified = true)
    (fun _ _ h => h.2) _ hi
  cases hnotified

/-- Call 1 wakes up while call 0 is in `unlocked`, and locks the mutex. -/
def spuriousRun : List (Action Unit Nat Nat Nat) :=
  [.call 0 ⟨0, 1, .lockAndProcess 10⟩, .step 0, .step 0, .step 0, .step 0,
    .callback 0 .unlocked,
    .call 1 ⟨1, 1, .lockAndProcess 20⟩, .step 1, .step 1, .step 1, .step 1,
    .step 1, .spuriousWake 1, .step 1]

theorem spurious_wakeups_invisible_spuriousRun :
    let r := (run ⟨.default, false⟩ 0 (fun _ => ())
      spuriousRun).get (by decide)
    .spuriousWake 1 ∈ spuriousRun ∧
      ∃ acts', Run ⟨.default, false⟩ 0 (fun _ => ()) acts' r.2 r.1.settle ∧
        (∀ i, .spuriousWake i ∉ acts') ∧
        acts'.flatMap Action.given = spuriousRun.flatMap Action.given :=
  ⟨by decide, spurious_wakeups_invisible (Run.of_run (by decide))⟩

end ContentionQueue
