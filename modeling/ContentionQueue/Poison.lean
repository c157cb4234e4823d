import ContentionQueue.Unwinding

/-!
# Queue poison at the front

With `unwrap_queue_poison` set, a call that gets front permission while the
queue is poisoned should unwind.  A call that was handed the front tests
`queue_poisoned` right after its wait.  A call that sets `front_locked` on the
fast path does not test it, and is stopped by the mutex-poison assertion only.

`queue_poison_gate_iff` says when the rule holds in a run: every call that
comes to its mutex-poison assertion while the queue is poisoned finds the
mutex poisoned.
-/

namespace ContentionQueue

open Machines State HandOff

variable {M FS V R : Type} {cfg : Config} {s s' : State M FS V R}
  {a : Action M FS V R} {evs log : List (Event V R)}
  {acts : List (Action M FS V R)} {frontState : FS} {data : Addr → M}

/-! ## The rule and its condition -/

/-- The run took a step with `Q`. -/
def Run.Took (cfg : Config) (frontState : FS) (data : Addr → M)
    (acts : List (Action M FS V R)) (log : List (Event V R))
    (s : State M FS V R)
    (Q : List (Event V R) → State M FS V R → Action M FS V R →
      List (Event V R) → Prop) : Prop :=
  (machine M FS V R cfg).Took (fun _ a => a.Matched)
    (State.new frontState data) acts log s Q

/-- The step gives call `i` front permission while the queue is poisoned. -/
def AcquiresPoisoned (i : CallId) (s : State M FS V R)
    (evs : List (Event V R)) : Prop :=
  s.mutexExclusive.queuePoisoned = true ∧ i ∈ acquisitions evs

/-- Call `i` has not run its callback, has popped no value, and has not left but
by an unwind. -/
structure State.Gated (log : List (Event V R)) (s : State M FS V R)
    (i : CallId) : Prop where
  notCalled : ∀ v, .callback i v ∉ log
  noPop : ∀ o v, .pop i o v ∉ log
  unwinds : ∀ f outcome, s.frames i = some f →
    f.pc.outcome? = some outcome → ∃ p, outcome = .unwound p

/-- A call that takes its mutex-poison assertion while the queue is poisoned
finds the mutex poisoned, and does not ignore it. -/
def FindsMutexPoison (cfg : Config) (s : State M FS V R)
    (a : Action M FS V R) : Prop :=
  ∀ i f g v, a = .step i → s.At i f (.assertMutexUnpoisoned g v) →
    s.mutexExclusive.queuePoisoned = true →
      cfg.options.unwrapMutexPoison = true ∧
        (s.mutexes f.call.mutex).poisoned = true

/-! ## Who changes the queue poison -/

/-- While a call has a guard of the registered mutex, no other call changes
`queue_poisoned`. -/
theorem Transition.queuePoisoned_eq (ht : Transition cfg s a s' evs)
    (hb : Basics s) {i : CallId} (hinside : s.Inside i)
    (hi : a.call? ≠ some i) :
    s'.mutexExclusive.queuePoisoned = s.mutexExclusive.queuePoisoned := by
  have hother : ∀ {j f pc g}, s.At j f pc → pc.isRegistered = true →
      pc.guard? = some g → j = i := by
    intro j f pc g hat hreg hguard
    exact hb.exclusive (hb.inside hat.frame (by rwa [hat.pc])
      (by rwa [hat.pc])) hinside
  rcases ht.queuePoisoned_cases with hsame | ⟨-, j, f, g, p, rfl, hat⟩ |
    ⟨-, ⟨j, f, g, rfl, hat, -⟩ | ⟨j, f, hd, g, rfl, hin⟩⟩
  · exact hsame
  · exact absurd (congrArg some (hother hat rfl rfl)) hi
  · exact absurd (congrArg some (hother hat rfl rfl)) hi
  · exact absurd (congrArg some (hother hin.loc rfl hin.guard)) hi

/-! ## Calls that come to the front of a poisoned queue -/

section Front

variable {i : CallId} {f : Frame V R}

theorem notifyOne_eq_assertMutexUnpoisoned {pc : Pc V R} {g : Addr} {v : V} :
    pc.notifyOne = .assertMutexUnpoisoned g v ↔
      pc = .assertMutexUnpoisoned g v := by
  cases pc <;> simp [Pc.notifyOne]

/-- A call that comes to its mutex-poison assertion while the queue is
poisoned has just got the front, on the fast path: a call that was handed the
front has tested the queue poison, under the same lock. -/
theorem Transition.reach_assertion (ht : Transition cfg s a s' evs)
    (hopt : cfg.options.unwrapQueuePoison = true) {g : Addr} {v : V}
    (hi : a.call? = some i) (hf : s'.frames i = some f)
    (hpc : f.pc = .assertMutexUnpoisoned g v)
    (hpoison : s'.mutexExclusive.queuePoisoned = true) :
    AcquiresPoisoned i s evs := by
  cases ht <;> cases hi
  case flip => exact ⟨hpoison, by simp [acquisitions, Event.acquisition?]⟩
  case resultProcess hgood _ =>
    have hclear := hgood hopt
    rw [show s.mutexExclusive.queuePoisoned = true from hpoison] at hclear
    cases hclear
  case callOther c _ _ _ =>
    obtain rfl := frame_of_update hf
    cases hm : c.method <;> simp [hm, Method.entry] at hpc
  case handOff =>
    rw [pc_of_handOff hf rfl] at hpc
    cases hpc
  case errHandOff =>
    rw [pc_of_handOff hf rfl] at hpc
    cases hpc
  all_goals
    first
    | (obtain rfl := frame_of_update hf; cases hpc)
    | (rename_i hin
       rw [hin.pc_eq hf] at hpc
       cases hpc)

/-- A call that comes to its mutex-poison assertion while the queue is
poisoned got the front while the queue was poisoned. -/
theorem Run.acquires_of_assertion (h : Run cfg frontState data acts log s)
    (hopt : cfg.options.unwrapQueuePoison = true) {g : Addr} {v : V}
    (hf : s.frames i = some f) (hpc : f.pc = .assertMutexUnpoisoned g v)
    (hpoison : s.mutexExclusive.queuePoisoned = true) :
    Run.Took cfg frontState data acts log s
      (fun _ s _ evs => AcquiresPoisoned i s evs) := by
  induction h generalizing f with
  | nil => simp [State.new] at hf
  | snoc run hmatched hstep ih =>
      have ht := transition_of_step hstep
      rename_i s₁ a₁ evs₁ s₂
      by_cases hi : a₁.call? = some i
      · exact Machine.Took.last run hmatched hstep
          (ht.reach_assertion hopt hi hf hpc hpoison)
      -- the call was there before, with the mutex locked
      obtain ⟨f₀, hf₀, -, hpc₀⟩ := ht.pc_before hi hf
        (q := fun pc => pc = .assertMutexUnpoisoned g v)
        (fun _ => notifyOne_eq_assertMutexUnpoisoned.mp) hpc
      have hinside := (Run.basics run).inside (g := g) hf₀ (by rw [hpc₀]; rfl)
        (by rw [hpc₀]; rfl)
      rw [ht.queuePoisoned_eq (Run.basics run) hinside hi] at hpoison
      exact (ih hf₀ hpc₀ hpoison).trans (.single hmatched hstep)

/-- Whether a call that got the front of a poisoned queue is on its way out,
when `queue_poisoned` is `poisoned`. -/
def Pc.IsRejected (poisoned : Bool) : Pc V R → Prop
  | .assertQueueGood _ _ => poisoned = true
  | .assertMutexUnpoisoned _ _ => poisoned = true
  | .errLock _ => True
  | .errHandOff _ _ => True
  | .resumeUnwind _ _ => True
  | .ending outcome => ∃ p, outcome = .unwound p
  | .done outcome => ∃ p, outcome = .unwound p
  | _ => False

/-- Call `i` is on its way out and has consumed no value. -/
structure State.Rejected (log : List (Event V R)) (s : State M FS V R)
    (i : CallId) : Prop where
  notCalled : ∀ v, .callback i v ∉ log
  noPop : ∀ o v, .pop i o v ∉ log
  pc : ∃ f, s.frames i = some f ∧
    f.pc.IsRejected s.mutexExclusive.queuePoisoned

theorem State.Rejected.gated (h : s.Rejected log i) : s.Gated log i where
  notCalled := h.notCalled
  noPop := h.noPop
  unwinds := by
    intro f outcome hf hpc
    obtain ⟨f', hf', hrejected⟩ := h.pc
    obtain rfl : f = f' := Option.some.inj (hf.symm.trans hf')
    cases hp : f.pc <;> rw [hp] at hpc hrejected <;> cases hpc
    · exact hrejected
    · exact hrejected

theorem isRejected_notifyOne {poisoned : Bool} {pc : Pc V R} :
    pc.notifyOne.IsRejected poisoned ↔ pc.IsRejected poisoned := by
  cases pc <;> rfl

/-- A call that has not had the front has taken no value. -/
theorem Refines.not_taker {l : Line CallId V} (h : Refines log s l)
    (hi : i ∉ l.acquired) :
    (∀ v, .callback i v ∉ log) ∧ ∀ o v, .pop i o v ∉ log := by
  have htaken : ∀ o v, (⟨i, o, v⟩ : Taking CallId V) ∉ takings log := by
    intro o v hr
    rw [h.history.taken] at hr
    exact hi (l.takers _ hr)
  refine ⟨fun v hcall => ?_, fun o v hpop => ?_⟩
  · exact htaken i v (mem_takings.mpr (.inl ⟨rfl, hcall⟩))
  · exact htaken o v (mem_takings.mpr (.inr hpop))

/-- A call that gets the front of a poisoned queue is on its way out. -/
theorem Transition.rejected_of_acquires {l : Line CallId V}
    (ht : Transition cfg s a s' evs) (hR : Refines log s l)
    (hacq : AcquiresPoisoned i s evs) : s'.Rejected (log ++ evs) i := by
  obtain ⟨hpoison, hacq⟩ := hacq
  cases ht <;> simp only [acquisitions, Event.acquisition?,
    List.filterMap_cons, List.filterMap_nil, List.not_mem_nil,
    List.mem_singleton] at hacq
  case flip hat _ =>
    subst hacq
    have harr := (hR.at hat).arrived rfl
    obtain ⟨hcall, hpop⟩ := hR.not_taker fun hi =>
      harr (l.mem_arrivals_of_acquired hi)
    exact ⟨by simpa using hcall, by simpa using hpop, _,
      Function.update_self _ _ _, hpoison⟩
  case popFront hat hq =>
    subst hacq
    have hids := ((l.stage_eq_called _ _).mp (hR.at hat).stage.symm).2
    obtain ⟨hcall, hpop⟩ := hR.not_taker fun hi =>
      l.not_mem_ids_of_acquired hi (List.mem_of_head? hids)
    obtain ⟨t, -, -, hx⟩ := MutexExclusive.popFront_eq_some hq
    refine ⟨by simpa using hcall, by simpa using hpop, _,
      Function.update_self _ _ _, ?_⟩
    show MutexExclusive.queuePoisoned _ = true
    rw [hx]
    exact hpoison

/-- A call that is on its way out stays so, when it finds the mutex poisoned
where the queue poison is not tested. -/
theorem Transition.rejected_self (ht : Transition cfg s a s' evs)
    (hopt : cfg.options.unwrapQueuePoison = true)
    (hP : FindsMutexPoison cfg s a) (hi : a.call? = some i)
    (h : s.Rejected log i) : s'.Rejected (log ++ evs) i := by
  obtain ⟨hcall, hpop, f₀, hf₀, hrejected⟩ := h
  have hat : ∀ {f pc}, s.At i f pc →
      pc.IsRejected s.mutexExclusive.queuePoisoned := by
    intro f pc hat
    rw [hat.frame, Option.some.injEq] at hf₀
    rwa [← hf₀, hat.pc] at hrejected
  have hgo : ∀ f', s'.frames i = some f' →
      f'.pc.IsRejected s'.mutexExclusive.queuePoisoned →
      (∀ v, .callback i v ∉ evs) → (∀ o v, .pop i o v ∉ evs) →
        s'.Rejected (log ++ evs) i := by
    intro f' hf' hpc hcall' hpop'
    refine ⟨fun v => ?_, fun o v => ?_, f', hf', hpc⟩
    · rw [List.mem_append, not_or]
      exact ⟨hcall v, hcall' v⟩
    · rw [List.mem_append, not_or]
      exact ⟨hpop o v, hpop' o v⟩
  cases ht <;> cases hi
  case queuePoisoned =>
    exact hgo _ (Function.update_self _ _ _) trivial (by simp) (by simp)
  case mutexPoisoned =>
    exact hgo _ (Function.update_self _ _ _) trivial (by simp) (by simp)
  case resultProcess hgood hloc =>
    exact absurd ((hgood hopt).symm.trans (hat hloc)) (by simp)
  case resultElsewhere hgood hloc =>
    exact absurd ((hgood hopt).symm.trans (hat hloc)) (by simp)
  case resultPanicked hgood hloc =>
    exact absurd ((hgood hopt).symm.trans (hat hloc)) (by simp)
  case startCallback hgood hloc =>
    obtain ⟨hunwrap, hpoison⟩ := hP i _ _ _ rfl hloc (hat hloc)
    exact absurd ((hgood hunwrap).symm.trans hpoison) (by simp)
  case errLock =>
    exact hgo _ (Function.update_self _ _ _) trivial (by simp) (by simp)
  case resumeUnwind =>
    exact hgo _ (Function.update_self _ _ _) ⟨_, rfl⟩ (by simp) (by simp)
  case ending hloc =>
    have hunwound := hat hloc
    exact hgo _ (Function.update_self _ _ _) hunwound (by simp) (by simp)
  case errHandOff f g p hloc =>
    rcases wakeNext_frames ((s.setExclusive { s.mutexExclusive with
      queuePoisoned := true }).goto i f (.resumeUnwind g p))
      TaskState.wakeFrontTaskPanicking i with hf | hf <;>
        rw [goto_frames, Function.update_self] at hf
    · exact hgo _ hf trivial (by simp) (by simp)
    · exact hgo _ hf trivial (by simp) (by simp)
  -- no other step is on the way out
  case callProcess hnew => exact absurd hf₀ (by simp [hnew])
  case callOther hnew => exact absurd hf₀ (by simp [hnew])
  case spuriousWake hpc hframe =>
    rw [hframe, Option.some.injEq] at hf₀
    rw [← hf₀, hpc] at hrejected
    cases hrejected
  all_goals
    rename_i hloc
    first
    | cases hat hloc
    | cases hat hloc.loc

theorem Transition.rejected (ht : Transition cfg s a s' evs) (hb : Basics s)
    (hopt : cfg.options.unwrapQueuePoison = true)
    (hP : FindsMutexPoison cfg s a) (h : s.Rejected log i) :
    s'.Rejected (log ++ evs) i := by
  by_cases hi : a.call? = some i
  · exact ht.rejected_self hopt hP hi h
  obtain ⟨hcall, hpop, f, hf, hpc⟩ := h
  have hevs : ∀ e ∈ evs, e.call ≠ i := by
    rintro e he rfl
    exact hi (ht.call_of_event he)
  have hpoison : f.pc.IsRejected s'.mutexExclusive.queuePoisoned := by
    cases hp : f.pc <;> rw [hp] at hpc <;>
      first
      | (cases hpc; done)
      | exact hpc
      | (have hinside := hb.inside hf (by rw [hp]; rfl) (by rw [hp]; rfl)
         rwa [ht.queuePoisoned_eq hb hinside hi])
  refine ⟨fun v => ?_, fun o v => ?_, ?_⟩
  · rw [List.mem_append, not_or]
    exact ⟨hcall v, fun he => hevs _ he rfl⟩
  · rw [List.mem_append, not_or]
    exact ⟨hpop o v, fun he => hevs _ he rfl⟩
  · rcases ht.other hi with hsame | ⟨wake, hwoken⟩
    · exact ⟨f, hsame.trans hf, hpoison⟩
    · exact ⟨f.wake wake, by rw [hwoken, hf]; rfl,
        isRejected_notifyOne.mpr hpoison⟩

/-- Where a call does not find the mutex poisoned, it runs its callback. -/
theorem State.At.callback_of_step {g : Addr} {v : V}
    (hat : s.At i f (.assertMutexUnpoisoned g v))
    (hgood : ¬ (cfg.options.unwrapMutexPoison = true ∧
      (s.mutexes f.call.mutex).poisoned = true))
    (hstep : step cfg s (.step i) = some (s', evs)) :
    .callback i v ∈ evs := by
  have hok : assertMutexUnpoisoned cfg.options (s.mutexes f.call.mutex) =
      .ok () := by
    rw [assertMutexUnpoisoned_eq_ok]
    intro hunwrap
    simpa [hunwrap] using hgood
  rw [hat.step_eq, stepFrame] at hstep
  simp only [hat.pc, hok, Option.some.injEq, Prod.mk.injEq] at hstep
  rw [← hstep.2]
  exact List.mem_singleton_self _

end Front

/-- With `unwrap_queue_poison` set, every call that gets the front of a
poisoned queue unwinds without running its callback, if and only if every call
that takes its mutex-poison assertion while the queue is poisoned finds the
mutex poisoned. -/
theorem queue_poison_gate_iff (h : Run cfg frontState data acts log s)
    (hopt : cfg.options.unwrapQueuePoison = true) :
    (∀ i, Run.Took cfg frontState data acts log s
        (fun _ s _ evs => AcquiresPoisoned i s evs) → s.Gated log i) ↔
      ¬ Run.Took cfg frontState data acts log s
        (fun _ s a _ => ¬ FindsMutexPoison cfg s a) := by
  constructor
  · rintro hgated ⟨acts₁, log₁, s₁, a, evs, s₂, acts₂, log₂, h₁, ha, hstep, h₂,
      rfl, rfl, hnot⟩
    simp only [FindsMutexPoison, not_forall] at hnot
    obtain ⟨i, f, g, v, rfl, hat, hpoison, hgood⟩ := hnot
    have hacquires := Run.acquires_of_assertion h₁ hopt hat.frame hat.pc hpoison
    have hone : (machine M FS V R cfg).Exec (fun _ a => a.Matched) s₁ [_] evs
        s₂ := .single ha hstep
    have hrest := hone.trans h₂
    refine (hgated i (hacquires.trans hrest)).notCalled v ?_
    simp [hat.callback_of_step hgood hstep]
  · rintro hfinds i ⟨acts₁, log₁, s₁, a, evs, s₂, acts₂, log₂, h₁, ha, hstep,
      h₂, rfl, rfl, hacq⟩
    obtain ⟨l, -, hR⟩ := Run.refines h₁
    have hrejected := (transition_of_step hstep).rejected_of_acquires hR hacq
    have h₁' := h₁.snoc ha hstep
    -- the steps after the acquisition meet the condition
    have h₂' := Machine.Exec.strengthen h₁' h₂ (P := FindsMutexPoison cfg)
      (by simpa [Run.Took] using hfinds)
    have hend := Machine.Exec.stays
      (I := fun _ s => Basics s ∧ s.EntryGuards)
      (J := fun log s => s.Rejected log i)
      (fun hI hallow hstep =>
        ⟨(transition_of_step hstep).basics hI.2.guardMatches hI.1,
          (transition_of_step hstep).entryGuards hallow.1 hI.2⟩)
      (fun hI hJ hallow hstep =>
        (transition_of_step hstep).rejected hI.1 hopt hallow.2 hJ)
      ⟨Run.basics h₁', Run.entryGuards h₁'⟩ hrejected h₂'
    simpa using hend.gated

/-- After `poisonedRun` call 1 finds the mutex still poisoned. -/
def stillPoisonedRun : List (Action Unit Nat Nat Nat) :=
  poisonedRun ++ [.lock 1 1, .call 1 ⟨1, 1, .process 1 20⟩, .step 1, .step 1,
    .step 1, .step 1, .step 1, .step 1]

/-- The two sides of the rule in `stillPoisonedRun`. -/
theorem queue_poison_gate_stillPoisoned :
    let r := (run ⟨.default, false⟩ 0 (fun _ => ()) stillPoisonedRun).get
      (by decide)
    (∀ i, Run.Took ⟨.default, false⟩ 0 (fun _ => ()) stillPoisonedRun r.2 r.1
        (fun _ s _ evs => AcquiresPoisoned i s evs) → r.1.Gated r.2 i) ↔
      ¬ Run.Took ⟨.default, false⟩ 0 (fun _ => ()) stillPoisonedRun r.2 r.1
        (fun _ s a _ => ¬ FindsMutexPoison ⟨.default, false⟩ s a) :=
  queue_poison_gate_iff (Run.of_run (by decide)) rfl

/-- After `poisonedRun` somebody clears the poison of the mutex, and call 1
gets the front on the fast path. -/
def clearedRun : List (Action Unit Nat Nat Nat) :=
  poisonedRun ++ [.clearPoison 1, .call 1 ⟨1, 1, .lockAndProcess 20⟩,
    .step 1, .step 1, .step 1]

/-- What `clearedRun` leads to. -/
def clearedEnd : State Unit Nat Nat Nat × List (Event Nat Nat) :=
  (run ⟨.default, false⟩ 0 (fun _ => ()) clearedRun).get (by decide)

/-- After `clearedRun` the queue is poisoned, and call 1 runs its callback. -/
theorem queue_poison_missed :
    ¬ ∀ (acts : List (Action Unit Nat Nat Nat)) (log : List (Event Nat Nat))
      (s : State Unit Nat Nat Nat),
      Run ⟨.default, false⟩ 0 (fun _ => ()) acts log s →
        ∀ i, Run.Took ⟨.default, false⟩ 0 (fun _ => ()) acts log s
          (fun _ s _ evs => AcquiresPoisoned i s evs) → s.Gated log i := by
  intro hall
  have h₁ : Run ⟨.default, false⟩ 0 (fun _ => ()) clearedRun clearedEnd.2
      clearedEnd.1 := Run.of_run (by decide)
  have hframe : clearedEnd.1.frames 1 = some ⟨⟨1, 1, .lockAndProcess 20⟩, .new,
      .assertMutexUnpoisoned 1 20⟩ := by decide
  have hacquires := h₁.acquires_of_assertion rfl hframe rfl (by decide)
  have hstep : ∃ s', (machine Unit Nat Nat Nat ⟨.default, false⟩).Exec
      (fun _ a => a.Matched) clearedEnd.1 [.step 1] [.callback 1 20] s' :=
    ⟨_, .single trivial rfl⟩
  obtain ⟨s', hstep⟩ := hstep
  refine (hall _ _ _ (h₁.trans hstep) 1 (hacquires.trans hstep)).notCalled 20 ?_
  simp

end ContentionQueue
