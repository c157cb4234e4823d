import ContentionQueue.Permission

/-!
# Where every value goes

* `arrival_order` is the order of the queue: front permission and the values
  go round in the order of the arrivals.
* `CallPast` says what the log holds about a call at each program counter.  It
  is the invariant that ties the result of a call to the events.
* `Fate` lists the ways in which a finished call of `process` can have ended,
  and `values_accounted` says that each finished call has one of them.
-/

namespace ContentionQueue

open Machines State HandOff

variable {M FS V R : Type} {cfg : Config} {s s' : State M FS V R}
  {a : Action M FS V R} {acts : List (Action M FS V R)}
  {evs log : List (Event V R)} {frontState : FS} {data : Addr → M}

/-! ## The order -/

/-- Front permission goes round in the order of the arrivals, and the values
are consumed in that order. -/
theorem arrival_order (h : Run cfg frontState data acts log s) :
    acquisitions log <+: (arrivals log).map Prod.fst ∧
      ((takings log).map Taking.item).Sublist (arrivals log) := by
  obtain ⟨l, -, hR⟩ := h.refines
  rw [hR.history.acquired, hR.history.arrivals, hR.history.taken]
  exact ⟨l.acquired_prefix, l.taken_sublist⟩

/-- Three calls arrive, two have acquired front permission, and the values of
two have been consumed. -/
theorem arrival_order_handOver :
    let log := ((run ⟨.default, false⟩ 0 (fun _ => ())
      (handOverRun ++ [.step 1, .step 1, .step 1])).get (by decide)).2
    acquisitions log <+: (arrivals log).map Prod.fst ∧
      ((takings log).map Taking.item).Sublist (arrivals log) :=
  arrival_order (Run.of_run (by decide))

/-! ## The past of a call -/

/-- The callback of call `i` was called. -/
def IsCalled (log : List (Event V R)) (i : CallId) : Prop :=
  ∃ v, .callback i v ∈ log

/-- The handle of another call popped the value of call `i`. -/
def IsMerged (log : List (Event V R)) (i : CallId) : Prop :=
  ∃ j v, j ≠ i ∧ .pop j i v ∈ log

/-- How the log explains a result of call `i`. -/
def ProcessResult.Past (log : List (Event V R)) (i : CallId) :
    ProcessResult R → Prop
  | .processed r => IsCalled log i ∧ .callbackReturn i r ∈ log
  | .processedElsewhere => IsMerged log i
  | .processingPanicked => IsMerged log i

/-- How the log explains an unwind of call `i` out of
`try_process_unchecked`. -/
def Panic.Past (log : List (Event V R)) (i : CallId) (p : Panic) : Prop :=
  (IsCalled log i ∧ .callbackUnwind i ∈ log) ∨
    ∃ value, .assertFailed i p value ∈ log ∧
      (value = none → IsMerged log i)

/-- What the log holds about call `i`, which ends with an outcome. -/
def Outcome.Past (log : List (Event V R)) (i : CallId) : Outcome R → Prop
  | .returned result => result.Past log i
  | .answered _ => True
  | .unwound p => .mutexGood i ∈ log → p.Past log i

/-- What the log holds about call `i` at a program counter. -/
def Pc.Past (log : List (Event V R)) (i : CallId) : Pc V R → Prop
  | .lock _ => .mutexGood i ∉ log
  | .assertMutexGood _ _ => .mutexGood i ∉ log
  | .queryAssert => .mutexGood i ∉ log
  | .assertQueueGood _ result => result.value? = none → IsMerged log i
  | .callback _ => IsCalled log i
  | .unlocked _ => IsCalled log i
  | .reLock _ => IsCalled log i
  | .handOff _ result => result.Past log i
  | .returning _ result => result.Past log i
  | .errLock p => p.Past log i
  | .errHandOff _ p => p.Past log i
  | .resumeUnwind _ p => p.Past log i
  | .ending outcome => outcome.Past log i
  | .done outcome => outcome.Past log i
  | _ => True

/-- What the log holds about call `i`. -/
structure CallPast (log : List (Event V R)) (i : CallId) (f : Frame V R) :
    Prop where
  value : ∀ v, (i, v) ∈ arrivals log → f.call.method.value? = some v
  past : f.pc.Past log i

section CallPast

variable {i : CallId} {f : Frame V R} {pc' : Pc V R}

theorem IsCalled.append (h : IsCalled log i) : IsCalled (log ++ evs) i := by
  obtain ⟨v, hv⟩ := h
  exact ⟨v, List.mem_append_left _ hv⟩

theorem IsMerged.append (h : IsMerged log i) : IsMerged (log ++ evs) i := by
  obtain ⟨j, v, hj, hv⟩ := h
  exact ⟨j, v, hj, List.mem_append_left _ hv⟩

theorem ProcessResult.Past.append {result : ProcessResult R}
    (h : result.Past log i) : result.Past (log ++ evs) i := by
  cases result with
  | processed r => exact ⟨h.1.append, List.mem_append_left _ h.2⟩
  | processedElsewhere => exact IsMerged.append h
  | processingPanicked => exact IsMerged.append h

theorem Panic.Past.append {p : Panic} (h : p.Past log i) :
    p.Past (log ++ evs) i := by
  rcases h with ⟨hcalled, hunwind⟩ | ⟨value, hfailed, hmerged⟩
  · exact Or.inl ⟨hcalled.append, List.mem_append_left _ hunwind⟩
  · exact Or.inr ⟨value, List.mem_append_left _ hfailed,
      fun hnone => (hmerged hnone).append⟩

theorem Outcome.Past.append {outcome : Outcome R} (h : outcome.Past log i)
    (hevs : .mutexGood i ∉ evs) : outcome.Past (log ++ evs) i := by
  cases outcome with
  | returned result => exact ProcessResult.Past.append h
  | answered answer => exact h
  | unwound p =>
      intro hmem
      exact (h ((List.mem_append.mp hmem).resolve_right hevs)).append

/-- Events of other calls. -/
theorem Pc.Past.append {pc : Pc V R} (h : pc.Past log i)
    (hevs : .mutexGood i ∉ evs) : pc.Past (log ++ evs) i := by
  have hgood : .mutexGood i ∉ log → .mutexGood i ∉ log ++ evs := by
    rw [List.mem_append, not_or]
    exact fun hlog => ⟨hlog, hevs⟩
  cases pc with
  | lock v => exact hgood h
  | assertMutexGood g v => exact hgood h
  | queryAssert => exact hgood h
  | assertQueueGood g result => exact fun hnone => (h hnone).append
  | callback hd => exact IsCalled.append h
  | unlocked hd => exact IsCalled.append h
  | reLock hd => exact IsCalled.append h
  | handOff g result => exact ProcessResult.Past.append h
  | returning g result => exact ProcessResult.Past.append h
  | errLock p => exact Panic.Past.append h
  | errHandOff g p => exact Panic.Past.append h
  | resumeUnwind g p => exact Panic.Past.append h
  | ending outcome => exact Outcome.Past.append h hevs
  | done outcome => exact Outcome.Past.append h hevs
  | _ => trivial

theorem past_notifyOne {pc : Pc V R} (h : pc.Past log i) :
    pc.notifyOne.Past log i := by
  cases pc <;> exact h

/-- The value of a call does not change when no arrival is added. -/
theorem value_append {c : Call V}
    (h : ∀ v, (i, v) ∈ arrivals log → c.method.value? = some v)
    (hevs : ∀ v, (i, v) ∉ arrivals evs) :
    ∀ v, (i, v) ∈ arrivals (log ++ evs) → c.method.value? = some v := by
  intro v hv
  rw [arrivals, List.filterMap_append, List.mem_append] at hv
  exact h v (hv.resolve_right (hevs v))

theorem CallPast.other (h : CallPast log i f)
    (hevs : ∀ e ∈ evs, e.call ≠ i) : CallPast (log ++ evs) i f where
  value := by
    refine value_append h.value fun v hv => ?_
    rcases mem_arrivals.mp hv with he | he
    · exact hevs _ he rfl
    · exact hevs _ he rfl
  past := h.past.append fun he => hevs _ he rfl

/-- Events that the past does not mention. -/
theorem CallPast.quiet (h : CallPast log i f) (hevs : arrivals evs = [])
    (hgood : .mutexGood i ∉ evs) : CallPast (log ++ evs) i f where
  value := value_append h.value fun v => by simp [hevs]
  past := h.past.append hgood

/-- Call `i` goes on. -/
theorem CallPast.goto (h : CallPast log i f) (hevs : arrivals evs = [])
    (hpast : pc'.Past (log ++ evs) i) :
    CallPast (log ++ evs) i { f with pc := pc' } where
  value := value_append h.value fun v => by simp [hevs]
  past := hpast

/-- Call `i` arrives. -/
theorem CallPast.arrive (h : CallPast log i f) {v : V}
    (hevs : arrivals evs = [(i, v)]) (hvalue : f.call.method.value? = some v)
    (hpast : pc'.Past (log ++ evs) i) :
    CallPast (log ++ evs) i { f with pc := pc' } where
  value := by
    intro w hw
    rw [arrivals, List.filterMap_append, List.mem_append] at hw
    rcases hw with hw | hw
    · exact h.value w hw
    · change (i, w) ∈ arrivals evs at hw
      rw [hevs, List.mem_singleton, Prod.mk.injEq] at hw
      rw [hw.2]
      exact hvalue
  past := hpast

/-- A call that pops an empty task has had its value popped. -/
theorem State.PopOk.merged (h : s.PopOk log) {g : Addr} {b : Bool}
    {result : TaskWaitResult V} {x : MutexExclusive V}
    (hat : s.At i f (.popFront g b))
    (hpop : s.mutexExclusive.popFront b = some (result, x))
    (hnone : result.value? = none) : IsMerged log i := by
  obtain ⟨t, hq, hvalue, -⟩ := MutexExclusive.popFront_eq_some hpop
  obtain ⟨t', rest, hq', hstate⟩ := h.head i f g b hat.frame hat.pc
  obtain rfl : t = t' := (List.cons.inj (hq.symm.trans hq')).1
  obtain ⟨v, -, hsome | ⟨-, j, hj, hlog⟩⟩ := h.value t (by simp [hq])
  · rw [← hvalue, hnone] at hsome
    cases hsome
  · exact ⟨j, v, hstate ▸ hj, hstate ▸ hlog⟩

/-- A woken call has the same past. -/
theorem CallPast.wake (h : CallPast log i f) (wake : TaskState → TaskState) :
    CallPast log i (f.wake wake) :=
  ⟨h.value, past_notifyOne h.past⟩

/-- A new call has no past. -/
theorem callPast_entry {c : Call V} (hnew : ∀ e ∈ log, e.call ≠ i) :
    CallPast (log ++ []) i (⟨c, .new, c.method.entry⟩ : Frame V R) where
  value := by
    intro v hv
    rw [List.append_nil] at hv
    rcases mem_arrivals.mp hv with he | he
    · exact absurd rfl (hnew _ he)
    · exact absurd rfl (hnew _ he)
  past := by
    have hgood : .mutexGood i ∉ log ++ [] := by
      rw [List.append_nil]
      exact fun he => hnew _ he rfl
    cases c.method with
    | process g v => exact hgood
    | lockAndProcess v => exact hgood
    | isQueuePoisoned => exact hgood
    | clearQueuePoison => exact hgood

/-- A call that has not passed `assert_mutex_good` unwinds. -/
theorem past_unwound_early {p : Panic}
    (h : .mutexGood i ∉ log) {outcome : Outcome R} :
    (Outcome.unwound p : Outcome R).Past
      (log ++ ([.leave i outcome] : List (Event V R))) i := by
  intro hmem
  rcases List.mem_append.mp hmem with hlog | hlast
  · exact absurd hlog h
  · simp at hlast

end CallPast

/-- One step keeps the past of every call. -/
theorem Transition.callPast (ht : Transition cfg s a s' evs) (hb : Basics s)
    (hpop : s.PopOk log) (hnew : ∀ e ∈ log, (s.frames e.call).isSome = true)
    (h : ∀ i f, s.frames i = some f → CallPast log i f) :
    ∀ i f, s'.frames i = some f → CallPast (log ++ evs) i f := by
  refine ht.forall_frames h (fun _ _ => CallPast.other)
    (fun _ _ _ hf => hf.wake _) ?_
  intro i f hi hf
  have hfresh : s.frames i = none → ∀ e ∈ log, e.call ≠ i := by
    rintro hnone e he rfl
    have hsome := hnew e he
    rw [hnone] at hsome
    cases hsome
  have hat : ∀ {f pc}, s.At i f pc → CallPast log i f ∧ pc.Past log i := by
    intro f pc hat
    have hpast := h i f hat.frame
    exact ⟨hpast, hat.pc ▸ hpast.past⟩
  cases ht <;> cases hi
  case callProcess hnone =>
    obtain rfl := frame_of_update hf
    exact callPast_entry (hfresh hnone)
  case callOther hnone =>
    obtain rfl := frame_of_update hf
    exact callPast_entry (hfresh hnone)
  case lock hloc =>
    obtain rfl := frame_of_update hf
    have hgood : .mutexGood i ∉ log := (hat hloc).2
    exact (hat hloc).1.goto rfl (by simpa [Pc.Past] using hgood)
  case lockPoisoned hloc =>
    obtain rfl := frame_of_update hf
    exact (hat hloc).1.goto rfl (past_unwound_early (hat hloc).2)
  case mutexMismatch hloc =>
    obtain rfl := frame_of_update hf
    exact (hat hloc).1.goto rfl (past_unwound_early (hat hloc).2)
  case queryMismatch hloc =>
    obtain rfl := frame_of_update hf
    exact (hat hloc).1.goto rfl (past_unwound_early (hat hloc).2)
  case flip hloc =>
    obtain rfl := frame_of_update hf
    exact (hat hloc).1.arrive rfl (hb.locals.at hloc).2.2 trivial
  case push hloc =>
    obtain rfl := frame_of_update hf
    exact (hat hloc).1.arrive rfl (hb.locals.at hloc).2.2 trivial
  case popFront hq hloc =>
    obtain rfl := frame_of_update hf
    refine (hat hloc).1.goto rfl fun hnone => IsMerged.append ?_
    exact hpop.merged hloc hq hnone
  case queuePoisoned hloc =>
    obtain rfl := frame_of_update hf
    have hmerged := (hat hloc).2
    refine (hat hloc).1.goto rfl
      (.inr ⟨_, List.mem_concat_self, fun hnone => ?_⟩)
    exact IsMerged.append (hmerged hnone)
  case mutexPoisoned hloc =>
    obtain rfl := frame_of_update hf
    exact (hat hloc).1.goto rfl
      (.inr ⟨_, List.mem_concat_self, fun hnone => by cases hnone⟩)
  case resultElsewhere hloc =>
    obtain rfl := frame_of_update hf
    have hmerged := (hat hloc).2
    exact (hat hloc).1.goto rfl (IsMerged.append (hmerged rfl))
  case resultPanicked hloc =>
    obtain rfl := frame_of_update hf
    have hmerged := (hat hloc).2
    exact (hat hloc).1.goto rfl (IsMerged.append (hmerged rfl))
  case startCallback hloc =>
    obtain rfl := frame_of_update hf
    exact (hat hloc).1.goto rfl ⟨_, List.mem_concat_self⟩
  case unlocked hin =>
    obtain rfl := frame_of_update hf
    have hcalled := (hat hin.loc).2
    exact (hat hin.loc).1.goto rfl (IsCalled.append hcalled)
  case pop hin =>
    obtain rfl := frame_of_update hf
    have hcalled := (hat hin.loc).2
    exact (hat hin.loc).1.goto rfl (IsCalled.append hcalled)
  case popPanic hin =>
    obtain rfl := frame_of_update hf
    have hcalled := (hat hin.loc).2
    exact (hat hin.loc).1.goto rfl (IsCalled.append hcalled)
  case endUnlocked hloc =>
    obtain rfl := frame_of_update hf
    have hcalled := (hat hloc).2
    exact (hat hloc).1.goto rfl (IsCalled.append hcalled)
  case reLock hloc =>
    obtain rfl := frame_of_update hf
    have hcalled := (hat hloc).2
    exact (hat hloc).1.goto rfl (IsCalled.append hcalled)
  case ret hin =>
    obtain rfl := frame_of_update hf
    have hcalled := (hat hin.loc).2
    exact (hat hin.loc).1.goto rfl
      ⟨IsCalled.append hcalled, List.mem_concat_self⟩
  case unwind hin =>
    obtain rfl := frame_of_update hf
    have hcalled := (hat hin.loc).2
    exact (hat hin.loc).1.goto rfl
      (.inl ⟨IsCalled.append hcalled, List.mem_concat_self⟩)
  -- the end of `process_unchecked`
  case handOff f₀ g result hloc =>
    obtain ⟨f₁, hf₁, hwoken⟩ := frame_of_wakeNext hf
    obtain rfl := frame_of_update hf₁
    have hpast : CallPast (log ++ []) i
        { f₀ with pc := .returning g result } :=
      (hat hloc).1.goto rfl (ProcessResult.Past.append (hat hloc).2)
    rcases hwoken with rfl | rfl
    · exact hpast
    · exact hpast.wake _
  case errHandOff f₀ g p hloc =>
    obtain ⟨f₁, hf₁, hwoken⟩ := frame_of_wakeNext hf
    obtain rfl := frame_of_update hf₁
    have hpast : CallPast (log ++ []) i { f₀ with pc := .resumeUnwind g p } :=
      (hat hloc).1.goto rfl (Panic.Past.append (hat hloc).2)
    rcases hwoken with rfl | rfl
    · exact hpast
    · exact hpast.wake _
  case errLock hloc =>
    obtain rfl := frame_of_update hf
    have hpast := (hat hloc).2
    exact (hat hloc).1.goto rfl (Panic.Past.append hpast)
  case resumeUnwind hloc =>
    obtain rfl := frame_of_update hf
    have hpast := (hat hloc).2
    refine (hat hloc).1.goto rfl ?_
    exact fun _ => Panic.Past.append hpast
  case returnProcess hloc =>
    obtain rfl := frame_of_update hf
    have hpast := (hat hloc).2
    exact (hat hloc).1.goto rfl (ProcessResult.Past.append hpast)
  case returnOther hloc =>
    obtain rfl := frame_of_update hf
    have hpast := (hat hloc).2
    refine (hat hloc).1.goto rfl ?_
    exact ProcessResult.Past.append hpast
  case ending hloc =>
    obtain rfl := frame_of_update hf
    have hpast := (hat hloc).2
    exact (hat hloc).1.goto rfl (Outcome.Past.append hpast (by simp))
  -- blocks that the past does not mention
  case contended hloc =>
    obtain rfl := frame_of_update hf
    exact ⟨value_append (hat hloc).1.value (by simp [arrivals]), trivial⟩
  case spuriousWake hpc hframe =>
    obtain rfl := frame_of_update hf
    exact (h i _ hframe).goto rfl trivial
  case uninit hloc =>
    obtain rfl := frame_of_update hf
    exact (hat hloc).1.goto rfl trivial
  case mutexGood hloc | wait hloc | relock hloc | testFront hloc |
      testNotFront hloc | popNothing hloc | resultProcess hloc |
      queryGood hloc | queryLock hloc | queryClear hloc | queryRead hloc |
      queryReturn hloc =>
    obtain rfl := frame_of_update hf
    exact (hat hloc).1.goto rfl trivial
  all_goals exact (h i f hf).quiet rfl (by simp)

/-- The log explains every call, along every run of matched calls. -/
theorem Run.callPast (h : Run cfg frontState data acts log s) :
    ∀ i f, s.frames i = some f → CallPast log i f := by
  induction h with
  | nil => simp [State.new]
  | snoc run hmatched hstep ih =>
      obtain ⟨l, -, hR⟩ := Run.refines run
      exact (transition_of_step hstep).callPast hR.basics hR.popOk
        (Run.isSome_of_event run) ih

/-! ## Calls that have left -/

/-- The outcome of a call that has left. -/
def Pc.outcome? : Pc V R → Option (Outcome R)
  | .ending outcome => some outcome
  | .done outcome => some outcome
  | _ => none

@[simp] theorem outcome?_notifyOne (pc : Pc V R) :
    pc.notifyOne.outcome? = pc.outcome? := by
  cases pc <;> rfl

theorem outcome_of_inCallback {pc : Pc V R} (h : pc.inCallback = true) :
    pc.outcome? = none := by
  cases pc <;> first | rfl | cases h

theorem outcome_of_isQueued {pc : Pc V R} (h : pc.isQueued = true) :
    pc.outcome? = none := by
  cases pc <;> first | rfl | cases h

/-- What the log holds about a call that has left. -/
theorem Pc.Past.outcome {i : CallId} {pc : Pc V R} {outcome : Outcome R}
    (h : pc.Past log i) (hpc : pc.outcome? = some outcome) :
    outcome.Past log i := by
  cases pc with
  | ending outcome | done outcome =>
      cases hpc
      exact h
  | _ => cases hpc

/-- A call that has left keeps its outcome, and when it has ended it does
nothing more. -/
theorem Transition.over (ht : Transition cfg s a s' evs) {i : CallId}
    {f : Frame V R} {outcome : Outcome R} (hf : s.frames i = some f)
    (hpc : f.pc.outcome? = some outcome) :
    ∃ f', s'.frames i = some f' ∧ f'.pc.outcome? = some outcome ∧
      (f.pc.isLive = false → f'.pc.isLive = false) := by
  have hself : a.call? = some i →
      ∃ f', s'.frames i = some f' ∧ f'.pc.outcome? = some outcome ∧
        (f.pc.isLive = false → f'.pc.isLive = false) := by
    intro hi
    cases ht <;> cases hi
    case ending hat =>
      rw [hat.pc_eq hf] at hpc
      exact ⟨_, Function.update_self _ _ _, hpc, fun _ => rfl⟩
    case callProcess hnew => cases hnew.symm.trans hf
    case callOther hnew => cases hnew.symm.trans hf
    case spuriousWake hasleep hframe =>
      obtain rfl := Option.some.inj (hframe.symm.trans hf)
      rw [hasleep] at hpc
      cases hpc
    all_goals
      rename_i hat
      rw [hat.pc_eq hf] at hpc
      cases hpc
  by_cases hi : a.call? = some i
  · exact hself hi
  · obtain ⟨f', hf', -, hsame | hwoken⟩ := ht.frame_after hi hf
    · exact ⟨f', hf', by rw [hsame, hpc], by simp [hsame]⟩
    · exact ⟨f', hf', by rw [hwoken, outcome?_notifyOne, hpc],
        by simp [hwoken]⟩

/-- A call that has shown that it leaves has left. -/
theorem Run.over_of_leave (h : Run cfg frontState data acts log s)
    {i : CallId} {outcome : Outcome R} (he : .leave i outcome ∈ log) :
    ∃ f, s.frames i = some f ∧ f.pc.outcome? = some outcome := by
  refine Machine.Exec.invariant (I := fun log s => ∀ i outcome,
    .leave i outcome ∈ log →
      ∃ f, s.frames i = some f ∧ f.pc.outcome? = some outcome)
    (by simp) ?_ h i outcome he
  intro log s a s' evs hI _ hstep i outcome he
  have ht := transition_of_step hstep
  rcases List.mem_append.mp he with he | he
  · obtain ⟨f, hf, hpc⟩ := hI i outcome he
    obtain ⟨f', hf', hpc', -⟩ := ht.over hf hpc
    exact ⟨f', hf', hpc'⟩
  · cases ht <;> simp only [List.mem_singleton, List.not_mem_nil,
      reduceCtorEq, Event.leave.injEq] at he
    all_goals
      obtain ⟨rfl, rfl⟩ := he
      exact ⟨_, Function.update_self _ _ _, rfl⟩

/-! ## Failed assertions -/

/-- Call `i` has front permission, and one of its poison assertions fails.
When it is the mutex-poison assertion, no handle has popped its value. -/
def State.Rejects (cfg : Config) (i : CallId) (log : List (Event V R))
    (s : State M FS V R) : Prop :=
  ∃ f, s.frames i = some f ∧
    ((∃ g result, f.pc = .assertQueueGood g result ∧
        cfg.options.unwrapQueuePoison = true ∧
        s.mutexExclusive.queuePoisoned = true) ∨
      ∃ g value, f.pc = .assertMutexUnpoisoned g value ∧
        cfg.options.unwrapMutexPoison = true ∧
        (s.mutexes f.call.mutex).poisoned = true ∧
        ∀ j v, .pop j i v ∉ log)

/-- The run went through a state with `Q`. -/
def Run.Passed (cfg : Config) (frontState : FS) (data : Addr → M)
    (acts : List (Action M FS V R)) (log : List (Event V R))
    (s : State M FS V R) (Q : List (Event V R) → State M FS V R → Prop) :
    Prop :=
  (machine M FS V R cfg).Passed (fun _ a => a.Matched)
    (State.new frontState data) acts log s Q

/-- A step that shows a failed assertion starts where the assertion fails. -/
theorem Transition.rejects {i : CallId} {p : Panic} {value : Option V}
    {l : Line CallId V} (ht : Transition cfg s a s' evs)
    (hR : Refines log s l) (he : .assertFailed i p value ∈ evs) :
    s.Rejects cfg i log := by
  cases ht <;> simp only [List.mem_singleton, List.not_mem_nil,
    reduceCtorEq, Event.assertFailed.injEq] at he
  case queuePoisoned hat hunwrap hpoison =>
    obtain ⟨rfl, -⟩ := he
    exact ⟨_, hat.frame, .inl ⟨_, _, hat.pc, hunwrap, hpoison⟩⟩
  case mutexPoisoned hat hunwrap hpoison =>
    obtain ⟨rfl, -⟩ := he
    refine ⟨_, hat.frame, .inr ⟨_, _, hat.pc, hunwrap, hpoison, ?_⟩⟩
    intro j v hpop
    have hline := hR.front hat rfl
    refine l.not_mem_waiting_of_taken (hR.taken_of_pop hpop) ?_
    simp [hline, Baton.own]

/-- When an assertion of a call has failed, the run went through the state in
which it failed. -/
theorem Run.passed_rejects (h : Run cfg frontState data acts log s)
    {i : CallId} {p : Panic} {value : Option V}
    (he : .assertFailed i p value ∈ log) :
    Run.Passed cfg frontState data acts log s (State.Rejects cfg i) := by
  refine Machine.Exec.passed_before (fun run _ hstep he => ?_) h he
  obtain ⟨l, -, hR⟩ := Run.refines run
  exact (transition_of_step hstep).rejects hR he

/-! ## The fate of a finished call -/

/-- How a call of `process` that has passed `assert_mutex_good` ended. -/
inductive Fate (R : Type) where
  /-- Its callback ran on its value and returned. -/
  | processed (r : R)
  /-- The handle of another call popped its value, and it returned. -/
  | merged (popper : CallId)
  /-- Its callback ran on its value and unwound. -/
  | unwound
  /-- It unwound at a poison assertion. -/
  | rejected
  deriving DecidableEq, Repr

/-- Who consumed the value of call `i`.  The callback of call `i` is here as a
consumption by call `i` itself. -/
def consumptions (log : List (Event V R)) (i : CallId) :
    List (Taking CallId V) :=
  (takings log).filter fun r => r.owner = i

/-- What a fate of call `i`, which submitted `v` and ended with `outcome`, says
about the run. -/
def Fate.Holds (cfg : Config) (frontState : FS) (data : Addr → M)
    (acts : List (Action M FS V R)) (log : List (Event V R))
    (s : State M FS V R) (i : CallId) (v : V) (outcome : Outcome R) :
    Fate R → Prop
  | .processed r =>
      outcome = .returned (.processed r) ∧ consumptions log i = [⟨i, i, v⟩] ∧
        .callback i v ∈ log ∧ .callbackReturn i r ∈ log
  | .merged j =>
      (outcome = .returned .processedElsewhere ∨
          outcome = .returned .processingPanicked) ∧
        consumptions log i = [⟨j, i, v⟩] ∧ j ≠ i
  | .unwound =>
      (∃ p, outcome = .unwound p) ∧ consumptions log i = [⟨i, i, v⟩] ∧
        .callback i v ∈ log ∧ .callbackUnwind i ∈ log
  | .rejected =>
      (∃ p, outcome = .unwound p) ∧ (∀ w, .callback i w ∉ log) ∧
        Run.Passed cfg frontState data acts log s (State.Rejects cfg i)

section Fate

variable {l : Line CallId V} {i : CallId} {f : Frame V R}

/-- Every value is consumed at most once. -/
theorem Refines.nodup_takings (h : Refines log s l) :
    ((takings log).map Taking.owner).Nodup := by
  have hnodup := l.nodup_account
  simp only [List.map_append, List.map_map] at hnodup
  rw [h.history.taken]
  exact hnodup.of_append_right.of_append_left

/-- The one consumption of a value. -/
theorem Refines.consumptions_eq (h : Refines log s l)
    {r : Taking CallId V} (hr : r ∈ takings log) :
    consumptions log r.owner = [r] := by
  have hmem : r ∈ consumptions log r.owner := by
    simpa [consumptions] using hr
  have hall : ∀ r' ∈ consumptions log r.owner, r' = r := by
    intro r' hr'
    simp only [consumptions, List.mem_filter, decide_eq_true_eq] at hr'
    rw [h.history.taken] at hr hr'
    exact l.taken_unique hr'.1 hr hr'.2
  have hnodup : (consumptions log r.owner).Nodup :=
    (List.Nodup.of_map _ h.nodup_takings).filter _
  cases hc : consumptions log r.owner with
  | nil =>
      rw [hc] at hmem
      cases hmem
  | cons r₁ rest =>
      rw [hc] at hall hnodup
      obtain rfl := hall r₁ List.mem_cons_self
      cases rest with
      | nil => rfl
      | cons r₂ rest =>
          have heq := hall r₂ (by simp)
          simp [heq] at hnodup

/-- A consumed value is the one that its call submitted. -/
theorem Refines.value_of_taking (h : Refines log s l)
    (hpast : ∀ i f, s.frames i = some f → CallPast log i f)
    {r : Taking CallId V} (hr : r ∈ takings log) :
    ∃ f, s.frames r.owner = some f ∧ f.call.method.value? = some r.value := by
  have harr : (r.owner, r.value) ∈ arrivals log := by
    rw [h.history.taken] at hr
    rw [h.history.arrivals]
    exact l.taken_sublist.subset (List.mem_map_of_mem hr)
  cases hf : s.frames r.owner with
  | none =>
      refine absurd (h.absent r.owner hf) (not_not_intro ?_)
      rw [← h.history.arrivals]
      exact List.mem_map_of_mem harr
  | some f => exact ⟨f, rfl, (hpast r.owner f hf).value r.value harr⟩

/-- The callback of a call consumes the value of the call, once. -/
theorem Refines.consumptions_of_called (h : Refines log s l)
    (hpast : ∀ i f, s.frames i = some f → CallPast log i f)
    (hf : s.frames i = some f) {v : V}
    (hv : f.call.method.value? = some v) (hcalled : IsCalled log i) :
    consumptions log i = [⟨i, i, v⟩] ∧ .callback i v ∈ log := by
  obtain ⟨w, hw⟩ := hcalled
  have hr : (⟨i, i, w⟩ : Taking CallId V) ∈ takings log :=
    mem_takings.mpr (.inl ⟨rfl, hw⟩)
  obtain ⟨f', hf', hvalue⟩ := h.value_of_taking hpast hr
  obtain rfl : f = f' := Option.some.inj (hf.symm.trans hf')
  obtain rfl : v = w := Option.some.inj (hv.symm.trans hvalue)
  exact ⟨h.consumptions_eq hr, hw⟩

theorem Refines.consumptions_of_merged (h : Refines log s l)
    (hpast : ∀ i f, s.frames i = some f → CallPast log i f)
    (hf : s.frames i = some f) {v : V}
    (hv : f.call.method.value? = some v) (hmerged : IsMerged log i) :
    ∃ j, j ≠ i ∧ consumptions log i = [⟨j, i, v⟩] := by
  obtain ⟨j, w, hj, hw⟩ := hmerged
  have hr : (⟨j, i, w⟩ : Taking CallId V) ∈ takings log :=
    mem_takings.mpr (.inr hw)
  obtain ⟨f', hf', hvalue⟩ := h.value_of_taking hpast hr
  obtain rfl : f = f' := Option.some.inj (hf.symm.trans hf')
  obtain rfl : v = w := Option.some.inj (hv.symm.trans hvalue)
  exact ⟨j, hj, h.consumptions_eq hr⟩

/-- A call that fails an assertion has not called its callback. -/
theorem Refines.not_called_of_failed (h : Refines log s l) {p : Panic}
    {value : Option V} (he : .assertFailed i p value ∈ log)
    (hmerged : value = none → IsMerged log i) (w : V) :
    .callback i w ∉ log := by
  intro hw
  have hr : (⟨i, i, w⟩ : Taking CallId V) ∈ takings log :=
    mem_takings.mpr (.inl ⟨rfl, hw⟩)
  rw [h.history.taken] at hr
  cases value with
  | none =>
      obtain ⟨j, v, hj, hv⟩ := hmerged rfl
      have hr' : (⟨j, i, v⟩ : Taking CallId V) ∈ takings log :=
        mem_takings.mpr (.inr hv)
      rw [h.history.taken] at hr'
      exact hj (congrArg Taking.taker (l.taken_unique hr' hr rfl))
  | some v =>
      have hd : (i, v) ∈ l.dropped := by
        rw [← h.history.dropped]
        exact mem_drops.mpr ⟨p, he⟩
      exact l.not_mem_taken_of_dropped hd _ hr rfl

/-- A finished call has a fate. -/
theorem Run.exists_fate (h : Run cfg frontState data acts log s)
    {outcome : Outcome R} {v : V} (hf : s.frames i = some f)
    (hv : f.call.method.value? = some v) (hpc : f.pc = .done outcome)
    (hgood : .mutexGood i ∈ log) :
    ∃ fate : Fate R,
      fate.Holds cfg frontState data acts log s i v outcome := by
  obtain ⟨l, -, hR⟩ := h.refines
  have hpast := h.callPast
  have hp := (hpast i f hf).past
  have hok : f.pc.Ok s.mutexAddress f.call := hR.basics.locals i f hf
  rw [hpc] at hp hok
  cases outcome with
  | answered answer =>
      have hquery : f.call.method.value? = none := hok
      rw [hv] at hquery
      cases hquery
  | returned result =>
      cases result with
      | processed r =>
          obtain ⟨hcalled, hreturn⟩ := hp
          obtain ⟨hcons, hcallback⟩ :=
            hR.consumptions_of_called hpast hf hv hcalled
          exact ⟨.processed r, rfl, hcons, hcallback, hreturn⟩
      | processedElsewhere =>
          obtain ⟨j, hj, hcons⟩ := hR.consumptions_of_merged hpast hf hv hp
          exact ⟨.merged j, .inl rfl, hcons, hj⟩
      | processingPanicked =>
          obtain ⟨j, hj, hcons⟩ := hR.consumptions_of_merged hpast hf hv hp
          exact ⟨.merged j, .inr rfl, hcons, hj⟩
  | unwound p =>
      rcases hp hgood with ⟨hcalled, hunwind⟩ | ⟨value, hfailed, hmerged⟩
      · obtain ⟨hcons, hcallback⟩ :=
          hR.consumptions_of_called hpast hf hv hcalled
        exact ⟨.unwound, ⟨p, rfl⟩, hcons, hcallback, hunwind⟩
      · exact ⟨.rejected, ⟨p, rfl⟩,
          hR.not_called_of_failed hfailed hmerged,
          h.passed_rejects hfailed⟩

/-- A call has at most one fate. -/
theorem Fate.Holds.unique {v : V} {outcome : Outcome R}
    {fate fate' : Fate R}
    (h : fate.Holds cfg frontState data acts log s i v outcome)
    (h' : fate'.Holds cfg frontState data acts log s i v outcome) :
    fate = fate' := by
  cases fate with
  | processed r =>
      obtain ⟨rfl, -⟩ := h
      cases fate' with
      | processed r' =>
          obtain ⟨heq, -⟩ := h'
          simp only [Outcome.returned.injEq, ProcessResult.processed.injEq]
            at heq
          rw [heq]
      | merged j => obtain ⟨heq | heq, -⟩ := h' <;> cases heq
      | unwound => obtain ⟨⟨p, heq⟩, -⟩ := h'; cases heq
      | rejected => obtain ⟨⟨p, heq⟩, -⟩ := h'; cases heq
  | merged j =>
      obtain ⟨hresult, hcons, -⟩ := h
      cases fate' with
      | processed r =>
          obtain ⟨rfl, -⟩ := h'
          rcases hresult with heq | heq <;> cases heq
      | merged j' =>
          obtain ⟨-, hcons', -⟩ := h'
          rw [hcons] at hcons'
          simp only [List.cons.injEq, Taking.mk.injEq, and_true] at hcons'
          rw [hcons']
      | unwound =>
          obtain ⟨⟨p, rfl⟩, -⟩ := h'
          rcases hresult with heq | heq <;> cases heq
      | rejected =>
          obtain ⟨⟨p, rfl⟩, -⟩ := h'
          rcases hresult with heq | heq <;> cases heq
  | unwound =>
      obtain ⟨⟨p, rfl⟩, -, hcallback, -⟩ := h
      cases fate' with
      | processed r => obtain ⟨heq, -⟩ := h'; cases heq
      | merged j => obtain ⟨heq | heq, -⟩ := h' <;> cases heq
      | unwound => rfl
      | rejected => exact absurd hcallback (h'.2.1 v)
  | rejected =>
      obtain ⟨⟨p, rfl⟩, hcallback, -⟩ := h
      cases fate' with
      | processed r => obtain ⟨heq, -⟩ := h'; cases heq
      | merged j => obtain ⟨heq | heq, -⟩ := h' <;> cases heq
      | unwound => exact absurd h'.2.2.1 (hcallback v)
      | rejected => rfl

end Fate

/-- Every value is consumed at most once, as the value of the call that
submitted it, and every finished call of `process` that has passed
`assert_mutex_good` has exactly one fate. -/
theorem values_accounted (h : Run cfg frontState data acts log s) :
    ((takings log).map Taking.owner).Nodup ∧
      (∀ r ∈ takings log, ∃ f, s.frames r.owner = some f ∧
        f.call.method.value? = some r.value) ∧
      ∀ i f v outcome, s.frames i = some f →
        f.call.method.value? = some v → f.pc = .done outcome →
          .mutexGood i ∈ log →
            ∃! fate : Fate R,
              fate.Holds cfg frontState data acts log s i v outcome := by
  obtain ⟨l, -, hR⟩ := h.refines
  refine ⟨hR.nodup_takings, fun r hr => hR.value_of_taking h.callPast hr, ?_⟩
  intro i f v outcome hf hv hpc hgood
  obtain ⟨fate, hfate⟩ := h.exists_fate hf hv hpc hgood
  exact ⟨fate, hfate, fun fate' hfate' => hfate'.unique hfate⟩

/-- After `handOverRun` and the end of call 1, the values of calls 0 and 1 are
accounted for, and call 1 has one fate. -/
theorem values_accounted_handOver :
    let acts := handOverRun ++
      [.step 1, .step 1, .step 1, .step 1, .step 1, .step 1, .step 1]
    let r := (run ⟨.default, false⟩ 0 (fun _ => ()) acts).get (by decide)
    (takings r.2).map Taking.owner = [0, 1] ∧
      ((takings r.2).map Taking.owner).Nodup ∧
      ∃! fate : Fate Nat, fate.Holds ⟨.default, false⟩ 0 (fun _ => ()) acts
        r.2 r.1 1 20 (.returned .processedElsewhere) := by
  intro acts r
  have hrun : Run ⟨.default, false⟩ 0 (fun _ => ()) acts r.2 r.1 :=
    Run.of_run (by decide)
  refine ⟨by decide, (values_accounted hrun).1, ?_⟩
  exact (values_accounted hrun).2.2 1
    ⟨⟨1, 1, .lockAndProcess 20⟩, ⟨1⟩, .done (.returned .processedElsewhere)⟩
    20 _ (by decide) rfl rfl (by decide)

end ContentionQueue
