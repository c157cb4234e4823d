import ContentionQueue.Reporting

/-!
# Alarms

The `Err` branch sets `PANIC_BIT` in the task at the head of the queue, and it
does not ask whether the call that unwinds is the call that popped the value of
that task.  A merged call that unwinds because of stale queue poison passes an
alarm on to the next merged task, whose value may have been processed well.

* `Panic.Explained` is what the `Err` branch could know about the queue from
  the reason of its unwind.
* `Frame.isAlarmed` says that a call has an alarm and has not taken its
  queue-poison assertion yet.
* `false_alarm_iff` says when a false alarm becomes a `ProcessingPanicked`:
  somebody clears the queue poison while the call is alarmed.
-/

namespace ContentionQueue

open Machines State HandOff

variable {M FS V R : Type} {cfg : Config} {s s' : State M FS V R}
  {a : Action M FS V R} {evs log : List (Event V R)}
  {acts : List (Action M FS V R)} {frontState : FS} {data : Addr → M}

/-! ## What an unwind says about the queue -/

/-- What the reason of an unwind out of `try_process_unchecked` says about the
merged tasks in the queue. -/
def Panic.Explained (cfg : Config) (log : List (Event V R))
    (queue : List (Task V)) : Panic → Prop
  | .task => ∀ t ∈ queue, t.value = none → Panicked log t.state
  | .mutexPoisoned => ∀ t ∈ queue, t.value ≠ none
  | .queuePoisoned => cfg.options.unwrapQueuePoison = true
  | _ => False

/-- The panic that the `Err` branch will resume. -/
def Pc.errPanic? : Pc V R → Option Panic
  | .errLock p => some p
  | .errHandOff _ p => some p
  | _ => none

/-- The panics in the `Err` branches are explained. -/
def State.Explained (cfg : Config) (log : List (Event V R))
    (s : State M FS V R) : Prop :=
  ∀ i f p, s.frames i = some f → f.pc.errPanic? = some p →
    p.Explained cfg log s.mutexExclusive.queue

section Explained

variable {l : Line CallId V} {i : CallId} {f : Frame V R}

theorem Panicked.append {o : CallId} (h : Panicked log o) :
    Panicked (log ++ evs) o := by
  obtain ⟨i, v, hpop, hunwind⟩ := h
  exact ⟨i, v, List.mem_append_left _ hpop, List.mem_append_left _ hunwind⟩

theorem Panic.Explained.mono {p : Panic} {queue queue' : List (Task V)}
    (h : p.Explained cfg log queue)
    (hqueue : ∀ t ∈ queue', t ∈ queue ∨ t.value ≠ none) :
    p.Explained cfg (log ++ evs) queue' := by
  cases p with
  | task =>
      intro t ht hnone
      rcases hqueue t ht with hold | hvalue
      · exact (h t hold hnone).append
      · exact absurd hnone hvalue
  | mutexPoisoned =>
      intro t ht
      rcases hqueue t ht with hold | hvalue
      · exact h t hold
      · exact hvalue
  | queuePoisoned => exact h
  | mutexMismatch | poisonedLock | nextIdx => exact h

theorem errPanic?_notifyOne (pc : Pc V R) :
    pc.notifyOne.errPanic? = pc.errPanic? := by
  cases pc <;> rfl

/-- Tasks come to the queue with their value, and lose it to handles only. -/
theorem Transition.queue_before (ht : Transition cfg s a s' evs)
    (hpop : ∀ i f hd g, s.InCallback i f hd g → a ≠ .callback i .pop) :
    ∀ t ∈ s'.mutexExclusive.queue,
      t ∈ s.mutexExclusive.queue ∨ t.value ≠ none := by
  intro t hmem
  cases ht
  case push =>
    rcases List.mem_append.mp hmem with hold | hnew
    · exact Or.inl hold
    · obtain rfl := List.mem_singleton.mp hnew
      exact Or.inr (by simp)
  case popFront hq =>
    obtain ⟨t₀, hq', -, -⟩ := MutexExclusive.popFront_eq_some hq
    exact Or.inl (hq' ▸ List.mem_cons_of_mem _ hmem)
  case pop hin _ => exact absurd rfl (hpop _ _ _ _ hin)
  case popPanic hin _ => exact absurd rfl (hpop _ _ _ _ hin)
  case handOff =>
    rw [wakeNext_queue] at hmem
    exact Or.inl hmem
  case errHandOff =>
    rw [wakeNext_queue] at hmem
    exact Or.inl hmem
  all_goals exact Or.inl hmem

/-- While a call has the front outside its callback, no handle pops. -/
theorem Refines.no_pop (hR : Refines log s l) (hf : s.frames i = some f)
    (hholds : f.pc.holdsFront = true) (hpc : f.pc.isUserCode = false)
    {j : CallId} {f' : Frame V R} {hd : QueueHandle} {g : Addr}
    (hin : s.InCallback j f' hd g) : False := by
  have hi : (l.stage i).holds = true := by
    rw [← (hR.frames i f hf).stage, holds_stage, hholds]
  have hj : (l.stage j).holds = true := by
    rw [← (hR.at hin.loc).stage]
    rfl
  obtain rfl := l.holds_unique hi hj
  rw [hin.pc_eq hf] at hpc
  cases hpc

/-- While a call is in its callback, the merged tasks in the queue were popped
by its handle. -/
theorem Refines.popped_of_serving (hR : Refines log s l)
    (hserving : l.baton = .serving i) {t : Task V}
    (ht : t ∈ s.mutexExclusive.queue) (hnone : t.value = none) :
    ∃ v, .pop i t.state v ∈ log := by
  have hmerged := hR.mem_merged ht hnone
  obtain ⟨j, v, -, hpop, hr⟩ := hR.pop_of_merged hmerged
  have hlast := l.batch _ hr hmerged
  rw [(l.served i hserving).1, Option.some.injEq] at hlast
  exact ⟨v, hlast ▸ hpop⟩

/-- Where a panic of the `Err` branch comes from. -/
theorem Transition.explained_self (ht : Transition cfg s a s' evs)
    (hR : Refines log s l) (h : s.Explained cfg log) (hi : a.call? = some i)
    (hf : s'.frames i = some f) {p : Panic} (hp : f.pc.errPanic? = some p) :
    p.Explained cfg (log ++ evs) s'.mutexExclusive.queue := by
  -- a call whose baton still has its value has popped nothing
  have hfresh : ∀ {f v pc}, s.At i f pc →
      pc.stage f.taskState = .front (some v) →
        ∀ t ∈ s.mutexExclusive.queue, t.value ≠ none := by
    intro f v pc hat hstage t ht hnone
    have hbaton := hR.front hat hstage
    have hmerged := hR.mem_merged ht hnone
    rw [l.fresh i v hbaton] at hmerged
    cases hmerged
  cases ht <;> cases hi
  case queuePoisoned hunwrap _ hloc =>
    obtain rfl := frame_of_update hf
    obtain rfl : .queuePoisoned = p := Option.some.inj hp
    exact hunwrap
  case mutexPoisoned hloc =>
    obtain rfl := frame_of_update hf
    obtain rfl : .mutexPoisoned = p := Option.some.inj hp
    exact hfresh hloc rfl
  case unwind g hd hin =>
    obtain rfl := frame_of_update hf
    obtain rfl : .task = p := Option.some.inj hp
    intro t ht hnone
    have hserving := hR.serving hin.loc rfl
    obtain ⟨v, hpop⟩ := hR.popped_of_serving hserving ht hnone
    exact ⟨i, v, List.mem_append_left _ hpop, by simp⟩
  case errLock hloc =>
    obtain rfl := frame_of_update hf
    exact (h i _ p hloc.frame (by rw [hloc.pc]; exact hp)).mono
      fun t ht => Or.inl ht
  case handOff =>
    rw [pc_of_handOff hf rfl] at hp
    cases hp
  case errHandOff =>
    rw [pc_of_handOff hf rfl] at hp
    cases hp
  case callOther c _ _ _ =>
    obtain rfl := frame_of_update hf
    cases hm : c.method <;> simp [hm, Method.entry, Pc.errPanic?] at hp
  all_goals
    first
    | (obtain rfl := frame_of_update hf; cases hp)
    | (rename_i hin
       rw [hin.pc_eq hf] at hp
       cases hp)

theorem Transition.explained (ht : Transition cfg s a s' evs)
    (hR : Refines log s l) (h : s.Explained cfg log) :
    s'.Explained cfg (log ++ evs) := by
  intro i f p hf hp
  by_cases hi : a.call? = some i
  · exact ht.explained_self hR h hi hf hp
  obtain ⟨f₀, hf₀, -, hp₀⟩ := ht.pc_before hi hf
    (q := fun pc => pc.errPanic? = some p)
    (by simp [errPanic?_notifyOne]) hp
  refine (h i f₀ p hf₀ hp₀).mono (ht.queue_before ?_)
  rintro j f' hd g hin -
  refine hR.no_pop hf₀ ?_ ?_ hin
  · cases hpc : f₀.pc <;> rw [hpc] at hp₀ <;> first | rfl | cases hp₀
  · cases hpc : f₀.pc <;> rw [hpc] at hp₀ <;> first | rfl | cases hp₀

theorem Run.explained (h : Run cfg frontState data acts log s) :
    s.Explained cfg log := by
  induction h with
  | nil => simp [State.Explained, State.new]
  | snoc run _ hstep ih =>
      obtain ⟨l, -, hR⟩ := Run.refines run
      exact (transition_of_step hstep).explained hR ih

end Explained

/-! ## Alarmed calls -/

/-- Whether a call was woken with `PANIC_BIT`, or has read it, and has not taken
its queue-poison assertion yet. -/
def Frame.isAlarmed (f : Frame V R) : Bool :=
  match f.pc with
  | .wait _ => f.taskState.isFront && f.taskState.isPanic
  | .asleep _ => f.taskState.isFront && f.taskState.isPanic
  | .relock _ => f.taskState.isFront && f.taskState.isPanic
  | .testFront _ => f.taskState.isFront && f.taskState.isPanic
  | .popFront _ processingPanicked => processingPanicked
  | .assertQueueGood _ .processingPanicked => true
  | _ => false

/-- Whether a call reports that the callback that popped its value panicked. -/
def Pc.reportsPanic : Pc V R → Bool
  | .handOff _ .processingPanicked => true
  | .returning _ .processingPanicked => true
  | .ending (.returned .processingPanicked) => true
  | .done (.returned .processingPanicked) => true
  | _ => false

/-- Call `o` is alarmed, and its value was popped by a callback that has not
unwound. -/
structure State.FalselyAlarmed (log : List (Event V R)) (s : State M FS V R)
    (o : CallId) : Prop where
  merged : IsMerged log o
  spared : ¬ Panicked log o
  alarmed : ∃ f, s.frames o = some f ∧ f.isAlarmed = true

/-- The step is the access of a `clear_queue_poison` while call `o` is falsely
alarmed. -/
def ClearsAlarm (o : CallId) (log : List (Event V R)) (s : State M FS V R)
    (a : Action M FS V R) : Prop :=
  s.FalselyAlarmed log o ∧ ∃ i f g, a = .step i ∧
    s.At i f (.queryAccess g) ∧ f.call.method = .clearQueuePoison

section Alarmed

variable {l : Line CallId V} {i o : CallId} {f : Frame V R}

theorem reportsPanic_notifyOne (pc : Pc V R) :
    pc.notifyOne.reportsPanic = pc.reportsPanic := by
  cases pc <;> rfl

/-- A call that reports a panic has left the line. -/
theorem Refines.not_mem_ids_of_reportsPanic (hR : Refines log s l)
    (hf : s.frames o = some f) (h : f.pc.reportsPanic = true) :
    o ∉ l.ids := by
  intro hids
  obtain ⟨f', hf', hqueued⟩ := (hR.mem_ids_iff_pc o).mp hids
  obtain rfl : f = f' := Option.some.inj (hf.symm.trans hf')
  cases hpc : f.pc <;> rw [hpc] at h hqueued <;>
    first | cases h | cases hqueued

/-- The baton belongs to an alarmed call, which is not in a callback. -/
theorem Refines.holder_of_alarmed (hR : Refines log s l)
    (hf : s.frames o = some f) (halarm : f.isAlarmed = true) :
    l.baton.holder l.ids = some o ∧ ∀ j, l.baton ≠ .serving j := by
  have hstage := (hR.frames o f hf).stage
  have hplace : (∃ b, l.stage o = .waiting (some b)) ∨
      (∃ b, l.stage o = .called b) ∨ ∃ v, l.stage o = .front v := by
    rw [← hstage]
    cases hpc : f.pc <;> simp only [Frame.isAlarmed, hpc, Bool.and_eq_true,
      Bool.false_eq_true] at halarm <;>
      simp [Pc.stage, TaskState.signal, halarm]
  rcases hplace with ⟨b, hb⟩ | ⟨b, hb⟩ | ⟨v, hb⟩
  · obtain ⟨hbaton, hhead⟩ := (l.stage_eq_signalled o b).mp hb
    rw [hbaton]
    exact ⟨hhead, by simp⟩
  · obtain ⟨hbaton, hhead⟩ := (l.stage_eq_called o b).mp hb
    rw [hbaton]
    exact ⟨hhead, by simp⟩
  · rw [(l.stage_eq_front o v).mp hb]
    exact ⟨rfl, by simp⟩

/-- Nobody else has the front while a call is alarmed. -/
theorem Refines.eq_of_alarmed (hR : Refines log s l)
    (hf : s.frames o = some f) (halarm : f.isAlarmed = true) {f' : Frame V R}
    (hf' : s.frames i = some f') (hholds : f'.pc.holdsFront = true) :
    i = o := by
  have hi : (l.stage i).holds = true := by
    rw [← (hR.frames i f' hf').stage, holds_stage, hholds]
  have hholder := ((l.holds_iff i).mp hi).2
  rw [(hR.holder_of_alarmed hf halarm).1, Option.some.injEq] at hholder
  exact hholder.symm

/-- A call does not alarm itself. -/
theorem Transition.alarmed_self (ht : Transition cfg s a s' evs)
    (hR : Refines log s l) (ho : a.call? = some o) (hf : s'.frames o = some f)
    (halarm : f.isAlarmed = true) :
    ∃ f₀, s.frames o = some f₀ ∧ f₀.isAlarmed = true := by
  have hold : ∀ {f₀ pc}, s.At o f₀ pc →
      ({ f₀ with pc := pc } : Frame V R).isAlarmed = true →
        ∃ f₀, s.frames o = some f₀ ∧ f₀.isAlarmed = true := by
    rintro f₀ pc ⟨hf₀, -, rfl⟩ h
    exact ⟨f₀, hf₀, h⟩
  cases ht <;> cases ho
  case push hloc =>
    obtain rfl := frame_of_update hf
    have hnew := ((hR.at hloc).pushing rfl).2
    simp [Frame.isAlarmed, hnew] at halarm
  case testFront hfront hloc =>
    obtain rfl := frame_of_update hf
    refine hold hloc ?_
    simp only [Frame.isAlarmed, hfront, Bool.true_and]
    exact halarm
  case popFront g b result x hpop hloc =>
    obtain rfl := frame_of_update hf
    have hresult : result = .processingPanicked := by
      cases result <;> first | rfl | cases halarm
    have hmerged := MutexExclusive.popFront_merged hpop (by rw [hresult]; rfl)
    refine hold hloc ?_
    cases b with
    | true => rfl
    | false =>
        rw [hresult] at hmerged
        cases hmerged
  case spuriousWake hpc hframe =>
    obtain rfl := frame_of_update hf
    refine ⟨_, hframe, ?_⟩
    rw [Frame.isAlarmed, hpc]
    exact halarm
  case wait hloc =>
    obtain rfl := frame_of_update hf
    exact hold hloc halarm
  case relock hloc =>
    obtain rfl := frame_of_update hf
    exact hold hloc halarm
  case testNotFront hloc =>
    obtain rfl := frame_of_update hf
    exact hold hloc halarm
  case handOff =>
    rw [Frame.isAlarmed, pc_of_handOff hf rfl] at halarm
    cases halarm
  case errHandOff =>
    rw [Frame.isAlarmed, pc_of_handOff hf rfl] at halarm
    cases halarm
  case callOther c _ _ _ =>
    obtain rfl := frame_of_update hf
    cases hm : c.method <;> simp [hm, Method.entry, Frame.isAlarmed] at halarm
  all_goals
    first
    | (obtain rfl := frame_of_update hf; cases halarm)
    | (rename_i hin
       rw [Frame.isAlarmed, hin.pc_eq hf] at halarm
       cases halarm)

theorem isAlarmed_wakeFrontTask (f : Frame V R)
    (hbits : f.taskState.isFront = false → f.taskState.isPanic = false)
    (h : (f.wake TaskState.wakeFrontTask).isAlarmed = true) :
    f.isAlarmed = true := by
  have hfront : f.taskState.isPanic = true → f.taskState.isFront = true := by
    intro hpanic
    by_contra hfront
    rw [hbits (by simpa using hfront)] at hpanic
    cases hpanic
  cases hpc : f.pc <;>
    simp only [Frame.isAlarmed, Frame.wake, hpc, Pc.notifyOne,
      TaskState.isFront_wakeFrontTask, TaskState.isPanic_wakeFrontTask,
      Bool.true_and, Bool.and_eq_true, Bool.false_eq_true] at h ⊢ <;>
    first
    | exact ⟨hfront h, h⟩
    | exact h
    | (rename_i result
       cases result <;> first | rfl | cases h)

/-- An alarm comes from the `Err` branch, and goes to the head of the queue. -/
theorem Transition.alarmed_before (ht : Transition cfg s a s' evs)
    (hR : Refines log s l) (hf : s'.frames o = some f)
    (halarm : f.isAlarmed = true) :
    (∃ f₀, s.frames o = some f₀ ∧ f₀.isAlarmed = true) ∨
      (s'.mutexExclusive.queuePoisoned = true ∧
        ∃ i f g p t rest, s.At i f (.errHandOff g p) ∧
          s.mutexExclusive.queue = t :: rest ∧ t.state = o) := by
  by_cases ho : a.call? = some o
  · exact Or.inl (ht.alarmed_self hR ho hf halarm)
  rcases ht.woken ho with hsame | ⟨i, f₁, t, rest, rfl, hq, hstate,
    ⟨g, r, hat, hwoken⟩ | ⟨g, p, hat, hpoison, hwoken⟩⟩
  · exact Or.inl ⟨f, hsame ▸ hf, halarm⟩
  · rw [hwoken] at hf
    obtain ⟨f₀, hf₀, rfl⟩ := Option.map_eq_some_iff.mp hf
    exact Or.inl ⟨f₀, hf₀, isAlarmed_wakeFrontTask f₀
      (hR.frames o f₀ hf₀).bits halarm⟩
  · exact Or.inr ⟨hpoison, i, f₁, g, p, t, rest, hat, hq, hstate⟩

/-- A call reports a panic when it takes its queue-poison assertion with an
alarm, and the queue poison does not stop it. -/
theorem Transition.reportsPanic_self (ht : Transition cfg s a s' evs)
    (ho : a.call? = some o) (hf : s'.frames o = some f)
    (hpc : f.pc.reportsPanic = true) :
    (∃ f₀, s.frames o = some f₀ ∧ f₀.pc.reportsPanic = true) ∨
      ∃ f₀ g, s.At o f₀ (.assertQueueGood g .processingPanicked) ∧
        (cfg.options.unwrapQueuePoison = true →
          s.mutexExclusive.queuePoisoned = false) := by
  have hold : ∀ {f₀ pc}, s.At o f₀ pc → pc.reportsPanic = true →
      ∃ f₀, s.frames o = some f₀ ∧ f₀.pc.reportsPanic = true :=
    fun hloc hreports => ⟨_, hloc.frame, by rw [hloc.pc, hreports]⟩
  cases ht <;> cases ho
  case resultPanicked hgood hloc => exact Or.inr ⟨_, _, hloc, hgood⟩
  case handOff result hloc =>
    rw [pc_of_handOff hf rfl] at hpc
    refine Or.inl (hold hloc ?_)
    cases result <;> first | rfl | cases hpc
  case errHandOff =>
    rw [pc_of_handOff hf rfl] at hpc
    cases hpc
  case returnProcess result _ _ _ hloc =>
    obtain rfl := frame_of_update hf
    refine Or.inl (hold hloc ?_)
    cases result <;> first | rfl | cases hpc
  case returnOther result _ hloc =>
    obtain rfl := frame_of_update hf
    refine Or.inl (hold hloc ?_)
    cases result <;> first | rfl | cases hpc
  case ending outcome hloc =>
    obtain rfl := frame_of_update hf
    refine Or.inl (hold hloc ?_)
    rcases outcome with result | answer | p
    · cases result <;> first | rfl | cases hpc
    · cases hpc
    · cases hpc
  case callOther c _ _ _ =>
    obtain rfl := frame_of_update hf
    cases hm : c.method <;> simp [hm, Method.entry, Pc.reportsPanic] at hpc
  all_goals
    first
    | (obtain rfl := frame_of_update hf; cases hpc)
    | (rename_i hin
       rw [hin.pc_eq hf] at hpc
       cases hpc)

/-- A merged task in the queue has no value. -/
theorem Refines.value_of_merged (hR : Refines log s l) {t : Task V}
    (ht : t ∈ s.mutexExclusive.queue) (hm : IsMerged log t.state) :
    t.value = none := by
  obtain ⟨j, v, hj, hpop⟩ := hm
  cases hv : t.value with
  | none => rfl
  | some w =>
      have hpending : (t.state, w) ∈ l.pending := by
        simpa [Line.slots, hv] using hR.mem_slots ht
      refine absurd ?_ (l.not_mem_waiting_of_taken (hR.taken_of_pop hpop))
      rw [List.map_append]
      exact List.mem_append_right _ (List.mem_map_of_mem hpending)

/-- An alarmed call is not merged by the action. -/
theorem Transition.merged_before (ht : Transition cfg s a s' evs)
    (hR : Refines log s l) (hm : IsMerged (log ++ evs) o) :
    IsMerged log o ∨ ∃ j, l.baton = .serving j ∧ o ∈ l.ids := by
  obtain ⟨j, v, hj, hpop⟩ := hm
  rcases List.mem_append.mp hpop with hpop | hpop
  · exact Or.inl ⟨j, v, hj, hpop⟩
  cases ht <;> simp only [List.mem_singleton, List.not_mem_nil, reduceCtorEq,
    Event.pop.injEq] at hpop
  case pop hin htask hpop =>
    obtain ⟨rfl, rfl, rfl⟩ := hpop
    refine Or.inr ⟨j, hR.serving hin.loc rfl, ?_⟩
    rw [← hR.ids]
    exact List.mem_map_of_mem (f := Task.state) (List.mem_of_getElem? htask)

end Alarmed

/-! ## False alarms -/

/-- A call that is falsely alarmed has a queue poison in front of it, and does
not report a panic. -/
structure State.AlarmOk (cfg : Config) (s : State M FS V R) (f : Frame V R) :
    Prop where
  blocked : f.isAlarmed = true → cfg.options.unwrapQueuePoison = true ∧
    s.mutexExclusive.queuePoisoned = true
  silent : f.pc.reportsPanic = false

section FalseAlarm

variable {l : Line CallId V} {i o : CallId} {f : Frame V R}

theorem Transition.alarmOk (ht : Transition cfg s a s' evs)
    (hR : Refines log s l) (hexplained : s.Explained cfg log)
    (hclear : ¬ ClearsAlarm o log s a)
    (h : ∀ f, s.frames o = some f → IsMerged log o → ¬ Panicked log o →
      s.AlarmOk cfg f)
    (hf : s'.frames o = some f) (hm : IsMerged (log ++ evs) o)
    (hp : ¬ Panicked (log ++ evs) o) : s'.AlarmOk cfg f := by
  have hp₀ : ¬ Panicked log o := fun hold => hp hold.append
  have halarmed : ∀ {f₀}, s.frames o = some f₀ → f₀.isAlarmed = true →
      IsMerged log o ∧ cfg.options.unwrapQueuePoison = true ∧
        s.mutexExclusive.queuePoisoned = true := by
    intro f₀ hf₀ halarm
    have hm₀ : IsMerged log o := (ht.merged_before hR hm).resolve_right
      fun ⟨j, hj, _⟩ => (hR.holder_of_alarmed hf₀ halarm).2 j hj
    exact ⟨hm₀, (h f₀ hf₀ hm₀ hp₀).blocked halarm⟩
  refine ⟨fun halarm => ?_, ?_⟩
  · rcases ht.alarmed_before hR hf halarm with ⟨f₀, hf₀, halarm₀⟩ |
      ⟨hpoison, i, f₁, g, p, t, rest, hat, hq, rfl⟩
    · obtain ⟨hm₀, hunwrap, hpoison⟩ := halarmed hf₀ halarm₀
      refine ⟨hunwrap, ?_⟩
      rcases ht.queuePoisoned_cases with hsame | ⟨hset, -⟩ |
        ⟨-, ⟨i, f₁, g, rfl, hat, hmethod⟩ | ⟨i, f₁, hd, g, rfl, hin⟩⟩
      · exact hsame.trans hpoison
      · exact hset
      · exact absurd ⟨⟨hm₀, hp₀, f₀, hf₀, halarm₀⟩, i, f₁, g, rfl, hat, hmethod⟩
          hclear
      · have hserving := hR.serving hin.loc rfl
        exact absurd hserving ((hR.holder_of_alarmed hf₀ halarm₀).2 i)
    · -- the `Err` branch raises the alarm
      have hbaton := hR.front hat rfl
      have hm₀ : IsMerged log t.state := by
        refine (ht.merged_before hR hm).resolve_right ?_
        rintro ⟨j, hj, -⟩
        rw [hbaton] at hj
        cases hj
      have hmem : t ∈ s.mutexExclusive.queue := by simp [hq]
      have hnone := hR.value_of_merged hmem hm₀
      have hwhy := hexplained i f₁ p hat.frame (by rw [hat.pc]; rfl)
      cases p with
      | task => exact absurd (hwhy t hmem hnone) hp₀
      | mutexPoisoned => exact absurd hnone (hwhy t hmem)
      | queuePoisoned => exact ⟨hwhy, hpoison⟩
      | mutexMismatch | poisonedLock | nextIdx => exact hwhy.elim
  · rw [Bool.eq_false_iff]
    intro hpc
    have hold : (∃ f₀, s.frames o = some f₀ ∧ f₀.pc.reportsPanic = true) ∨
        ∃ f₀ g, s.At o f₀ (.assertQueueGood g .processingPanicked) ∧
          (cfg.options.unwrapQueuePoison = true →
            s.mutexExclusive.queuePoisoned = false) := by
      by_cases ho : a.call? = some o
      · exact ht.reportsPanic_self ho hf hpc
      obtain ⟨f₀, hf₀, -, hpc₀⟩ := ht.pc_before ho hf
        (q := fun pc => pc.reportsPanic = true)
        (by simp [reportsPanic_notifyOne]) hpc
      exact Or.inl ⟨f₀, hf₀, hpc₀⟩
    rcases hold with ⟨f₀, hf₀, hpc₀⟩ | ⟨f₀, g, hat, hgood⟩
    · have hm₀ : IsMerged log o := by
        refine (ht.merged_before hR hm).resolve_right ?_
        rintro ⟨j, -, hids⟩
        exact hR.not_mem_ids_of_reportsPanic hf₀ hpc₀ hids
      rw [(h f₀ hf₀ hm₀ hp₀).silent] at hpc₀
      cases hpc₀
    · have halarm : f₀.isAlarmed = true := by rw [Frame.isAlarmed, hat.pc]
      obtain ⟨-, hunwrap, hpoison⟩ := halarmed hat.frame halarm
      exact absurd ((hgood hunwrap).symm.trans hpoison) (by simp)

theorem Run.alarmOk (h : Run cfg frontState data acts log s)
    (hclear : ¬ Run.Took cfg frontState data acts log s
      fun log s a _ => ClearsAlarm o log s a) :
    ∀ f, s.frames o = some f → IsMerged log o → ¬ Panicked log o →
      s.AlarmOk cfg f := by
  induction h with
  | nil => simp [State.new]
  | snoc run hallow hstep ih =>
      have hok := ih fun htook => hclear (htook.trans (.single hallow hstep))
      obtain ⟨l, -, hR⟩ := Run.refines run
      intro f
      refine (transition_of_step hstep).alarmOk hR (Run.explained run) ?_ hok
      exact fun hlast => hclear (Machine.Took.last run hallow hstep hlast)

/-- The queue poison that should stop a false alarm is cleared, or the alarm has
already become a report. -/
structure State.Misled (log : List (Event V R)) (s : State M FS V R)
    (o : CallId) : Prop where
  merged : IsMerged log o
  spared : ¬ Panicked log o
  frame : ∃ f, s.frames o = some f ∧
    (f.isAlarmed = true ∧ s.mutexExclusive.queuePoisoned = false ∨
      f.pc.reportsPanic = true)

/-- The next step of an alarmed call whose value was merged, while the queue is
not poisoned. -/
theorem Transition.misled_self (ht : Transition cfg s a s' evs)
    (hR : Refines log s l) (ho : a.call? = some o)
    (hf : s.frames o = some f) (hm : IsMerged log o)
    (halarm : f.isAlarmed = true)
    (hpoison : s.mutexExclusive.queuePoisoned = false) :
    ∃ f', s'.frames o = some f' ∧
      (f'.isAlarmed = true ∧ s'.mutexExclusive.queuePoisoned = false ∨
        f'.pc.reportsPanic = true) := by
  have hat : ∀ {f₀ pc}, s.At o f₀ pc →
      ({ f₀ with pc := pc } : Frame V R).isAlarmed = true := by
    rintro f₀ pc ⟨hf₀, -, rfl⟩
    rw [hf, Option.some.injEq] at hf₀
    exact hf₀ ▸ halarm
  cases ht <;> cases ho
  case wait hloc =>
    have halarm' := hat hloc
    exact ⟨_, Function.update_self _ _ _, .inl ⟨halarm', hpoison⟩⟩
  case relock hloc =>
    have halarm' := hat hloc
    exact ⟨_, Function.update_self _ _ _, .inl ⟨halarm', hpoison⟩⟩
  case testNotFront hloc =>
    have halarm' := hat hloc
    exact ⟨_, Function.update_self _ _ _, .inl ⟨halarm', hpoison⟩⟩
  case testFront hfront hloc =>
    refine ⟨_, Function.update_self _ _ _, .inl ⟨?_, hpoison⟩⟩
    have hbits := hat hloc
    rwa [Frame.isAlarmed, hfront, Bool.true_and] at hbits
  case popFront g b result x hpop hloc =>
    obtain rfl : b = true := hat hloc
    obtain ⟨t, hq, hvalue, hx⟩ := MutexExclusive.popFront_eq_some hpop
    obtain ⟨t', rest, hq', rfl⟩ := hR.popOk.head o _ g true hloc.frame hloc.pc
    obtain rfl : t = t' := (List.cons.inj (hq.symm.trans hq')).1
    have hnone := hR.value_of_merged (by simp [hq]) hm
    have hmerged := MutexExclusive.popFront_merged hpop (hvalue.trans hnone)
    refine ⟨_, Function.update_self _ _ _, .inl ⟨?_, ?_⟩⟩
    · rw [hmerged]
      rfl
    · rw [hx]
      exact hpoison
  case popNothing g b hpop hloc =>
    obtain ⟨t', rest, hq, -⟩ := hR.popOk.head o _ g b hloc.frame hloc.pc
    cases hpop.symm.trans hq
  case queuePoisoned hpoisoned hloc => cases hpoison.symm.trans hpoisoned
  case resultPanicked hloc =>
    exact ⟨_, Function.update_self _ _ _, .inr rfl⟩
  case spuriousWake hpc hframe =>
    refine ⟨_, Function.update_self _ _ _, .inl ⟨?_, hpoison⟩⟩
    rw [hframe, Option.some.injEq] at hf
    rw [← hf, Frame.isAlarmed, hpc] at halarm
    exact halarm
  case callProcess hnone => cases hnone.symm.trans hf
  case callOther hnone => cases hnone.symm.trans hf
  all_goals
    rename_i hloc
    first
    | cases hat hloc
    | cases hat hloc.loc

/-- A report goes its way. -/
theorem Transition.report_self (ht : Transition cfg s a s' evs)
    (ho : a.call? = some o) (hf : s.frames o = some f)
    (hreport : f.pc.reportsPanic = true) :
    ∃ f', s'.frames o = some f' ∧ f'.pc.reportsPanic = true := by
  have hat : ∀ {f₀ pc}, s.At o f₀ pc → pc.reportsPanic = true := by
    rintro f₀ pc ⟨hf₀, -, rfl⟩
    rw [hf, Option.some.injEq] at hf₀
    exact hf₀ ▸ hreport
  cases ht <;> cases ho
  case handOff f₀ g result hloc =>
    have hreturning : (Pc.returning g result : Pc V R).reportsPanic = true := by
      have hresult := hat hloc
      cases result <;> first | rfl | cases hresult
    have hself : (s.goto o f₀ (.returning g result)).frames o =
        some { f₀ with pc := .returning g result } := Function.update_self _ _ _
    rcases wakeNext_frame (s.goto o f₀ (.returning g result))
      TaskState.wakeFrontTask o with hsame | ⟨t, rest, -, -, hwoken⟩
    · exact ⟨_, hsame.trans hself, hreturning⟩
    · exact ⟨_, hwoken.trans (congrArg _ hself), hreturning⟩
  case returnProcess result _ _ _ hloc =>
    refine ⟨_, Function.update_self _ _ _, ?_⟩
    have hresult := hat hloc
    cases result <;> first | rfl | cases hresult
  case returnOther result _ hloc =>
    refine ⟨_, Function.update_self _ _ _, ?_⟩
    have hresult := hat hloc
    cases result <;> first | rfl | cases hresult
  case ending outcome hloc =>
    refine ⟨_, Function.update_self _ _ _, ?_⟩
    have houtcome := hat hloc
    rcases outcome with result | answer | p
    · cases result <;> first | rfl | cases houtcome
    · cases houtcome
    · cases houtcome
  case spuriousWake hpc hframe =>
    rw [hframe, Option.some.injEq] at hf
    rw [← hf, hpc] at hreport
    cases hreport
  case callProcess hnone => cases hnone.symm.trans hf
  case callOther hnone => cases hnone.symm.trans hf
  all_goals
    rename_i hloc
    first
    | cases hat hloc
    | cases hat hloc.loc

theorem Transition.misled (ht : Transition cfg s a s' evs)
    (hR : Refines log s l)
    (hleaves : ∀ i f, s.frames i = some f → f.Leaves log i)
    (h : s.Misled log o) : s'.Misled (log ++ evs) o := by
  obtain ⟨f, hf, hstate⟩ := h.frame
  refine ⟨h.merged.append, fun hp => ?_, ?_⟩
  · rcases ht.panicked_before hR hleaves hp with hp | ⟨j, hserving, ho⟩
    · exact h.spared hp
    rcases hstate with ⟨halarm, -⟩ | hreport
    · exact (hR.holder_of_alarmed hf halarm).2 j hserving
    rcases ho with rfl | hids
    · have hstage := (hR.frames o f hf).stage
      rw [(l.stage_eq_serving o).mpr hserving] at hstage
      cases hpc : f.pc <;> rw [hpc] at hstage hreport <;>
        first | cases hreport | cases hstage
    · exact hR.not_mem_ids_of_reportsPanic hf hreport hids
  by_cases ho : a.call? = some o
  · rcases hstate with ⟨halarm, hpoison⟩ | hreport
    · exact ht.misled_self hR ho hf h.merged halarm hpoison
    · obtain ⟨f', hf', hreport'⟩ := ht.report_self ho hf hreport
      exact ⟨f', hf', Or.inr hreport'⟩
  rcases hstate with ⟨halarm, hpoison⟩ | hreport
  · -- nobody else has the front, so nobody wakes the call or poisons the queue
    have hother : ∀ {j f' pc}, s.At j f' pc → pc.holdsFront = true →
        a = .step j → False := by
      rintro j f' pc hat hholds rfl
      have hj := hR.eq_of_alarmed hf halarm hat.frame (by rwa [hat.pc])
      exact ho (by rw [hj]; rfl)
    have hpoison' : s'.mutexExclusive.queuePoisoned = false := by
      rcases ht.queuePoisoned_cases with hsame | ⟨-, j, f', g, p, ha, hat⟩ |
        ⟨hclear, -⟩
      · exact hsame.trans hpoison
      · exact (hother hat rfl ha).elim
      · exact hclear
    rcases ht.woken ho with hsame | ⟨j, f', t, rest, ha, -, -,
      ⟨g, r, hat, -⟩ | ⟨g, p, hat, -⟩⟩
    · exact ⟨f, hsame.trans hf, .inl ⟨halarm, hpoison'⟩⟩
    · exact (hother hat rfl ha).elim
    · exact (hother hat rfl ha).elim
  · rcases ht.other ho with hsame | ⟨wake, hwoken⟩
    · exact ⟨f, hsame.trans hf, .inr hreport⟩
    · refine ⟨f.wake wake, by rw [hwoken, hf]; rfl, .inr ?_⟩
      rwa [Frame.wake, reportsPanic_notifyOne]

/-- After the queue poison was cleared, a false alarm becomes a report. -/
theorem Run.misled (h : Run cfg frontState data acts log s)
    (hclear : Run.Took cfg frontState data acts log s
      fun log s a _ => ClearsAlarm o log s a) : s.Misled log o := by
  obtain ⟨acts₁, log₁, s₁, a, evs, s₂, acts₂, log₂, h₁, ha, hstep, h₂, -, rfl,
    ⟨hm, hp, f, hf, halarm⟩, i, f', g, rfl, hat, hmethod⟩ := hclear
  have h₁' := h₁.snoc ha hstep
  change step cfg s₁ (.step i) = some (s₂, evs) at hstep
  have hclear : s₂ = (s₁.setExclusive { s₁.mutexExclusive with
      queuePoisoned := false }).goto i f' (.queryReturn g none) := by
    rw [hat.step_eq] at hstep
    simp only [stepFrame, hat.pc, hmethod, Option.some.injEq,
      Prod.mk.injEq] at hstep
    rw [← hstep.1]
  have hne : o ≠ i := by
    rintro rfl
    rw [hat.frame, Option.some.injEq] at hf
    rw [← hf, Frame.isAlarmed, hat.pc] at halarm
    cases halarm
  have hsecond : s₂.Misled (log₁ ++ evs) o := by
    refine ⟨hm.append, fun hp' => ?_, f, ?_, .inl ⟨halarm, ?_⟩⟩
    · obtain ⟨l, -, hR⟩ := Run.refines h₁
      rcases (transition_of_step hstep).panicked_before hR (Run.leaves h₁) hp'
        with hold | ⟨j, hserving, -⟩
      · exact hp hold
      · exact (hR.holder_of_alarmed hf halarm).2 j hserving
    · rw [hclear, goto_frames, setExclusive_frames, Function.update_of_ne hne,
        hf]
    · rw [hclear]
      rfl
  have hend : s.Misled (log₁ ++ evs ++ log₂) o := by
    refine Machine.Exec.stays
      (I := fun log s => ∃ acts, Run cfg frontState data acts log s)
      (J := fun log s => s.Misled log o) ?_ ?_ ⟨_, h₁'⟩ hsecond h₂
    · rintro s log a s' evs ⟨acts, run⟩ hallow hstep
      exact ⟨_, run.snoc hallow hstep⟩
    · rintro s log a s' evs ⟨acts, run⟩ hmisled - hstep
      obtain ⟨l, -, hR⟩ := Run.refines run
      exact (transition_of_step hstep).misled hR (Run.leaves run) hmisled
  simpa using hend

end FalseAlarm

/-- A call that has ended returned `ProcessingPanicked` without a panic in the
callback that popped its value, if and only if somebody cleared the queue
poison while the call was falsely alarmed. -/
theorem false_alarm_iff (h : Run cfg frontState data acts log s) {o : CallId}
    {f : Frame V R} {outcome : Outcome R} (hf : s.frames o = some f)
    (hpc : f.pc = .done outcome) :
    (outcome = .returned .processingPanicked → Panicked log o) ↔
      ¬ Run.Took cfg frontState data acts log s
        fun log s a _ => ClearsAlarm o log s a := by
  constructor
  · intro hreason hclear
    obtain ⟨-, hspared, f', hf', hstate⟩ := h.misled hclear
    obtain rfl : f = f' := Option.some.inj (hf.symm.trans hf')
    rcases hstate with ⟨halarm, -⟩ | hreport
    · rw [Frame.isAlarmed, hpc] at halarm
      cases halarm
    · refine hspared (hreason ?_)
      rw [hpc] at hreport
      cases outcome with
      | returned result => cases result <;> first | rfl | cases hreport
      | answered answer => cases hreport
      | unwound p => cases hreport
  · rintro hclear rfl
    by_contra hspared
    have hmerged : IsMerged log o := by
      have hpast := (h.callPast o f hf).past
      rw [hpc] at hpast
      exact hpast
    have hsilent := (h.alarmOk hclear f hf hmerged hspared).silent
    rw [hpc] at hsilent
    cases hsilent

/-- After `poisonedRun` the mutex is repaired.  The callback of call 1 pops the
values of calls 2 and 3 and returns, and call 2 unwinds because of the stale
queue poison. -/
def alarmRun : List (Action Unit Nat Nat Nat) :=
  poisonedRun ++ [.clearPoison 1,
    .call 1 ⟨1, 1, .lockAndProcess 20⟩, .step 1, .step 1, .step 1, .step 1,
    .callback 1 .unlocked,
    .call 2 ⟨2, 1, .lockAndProcess 30⟩, .step 2, .step 2, .step 2, .step 2,
    .step 2,
    .call 3 ⟨3, 1, .lockAndProcess 40⟩, .step 3, .step 3, .step 3, .step 3,
    .step 3,
    .callback 1 .endUnlocked, .step 1, .callback 1 .pop, .callback 1 .pop,
    .callback 1 (.ret 5), .step 1, .step 1, .step 1,
    .step 2, .step 2, .step 2, .step 2, .step 2, .step 2, .step 2, .step 2]

/-- After `alarmRun` somebody clears the queue poison, and call 3 goes to its
end. -/
def falseAlarmRun : List (Action Unit Nat Nat Nat) :=
  alarmRun ++ [.call 4 ⟨4, 1, .clearQueuePoison⟩, .step 4, .step 4, .step 4,
    .step 4, .step 4, .step 3, .step 3, .step 3, .step 3, .step 3, .step 3,
    .step 3]

/-- What `falseAlarmRun` leads to. -/
def falseAlarmEnd : State Unit Nat Nat Nat × List (Event Nat Nat) :=
  (run ⟨.default, false⟩ 0 (fun _ => ()) falseAlarmRun).get (by decide)

/-- The two sides of the rule for call 3 in `falseAlarmRun`. -/
theorem false_alarm_falseAlarmRun :
    ((.returned .processingPanicked : Outcome Nat) =
        .returned .processingPanicked → Panicked falseAlarmEnd.2 3) ↔
      ¬ Run.Took ⟨.default, false⟩ 0 (fun _ => ()) falseAlarmRun falseAlarmEnd.2
        falseAlarmEnd.1 fun log s a _ => ClearsAlarm 3 log s a :=
  false_alarm_iff (f := ⟨⟨3, 1, .lockAndProcess 40⟩, ⟨3⟩,
    .done (.returned .processingPanicked)⟩) (Run.of_run (by decide)) (by decide)
    rfl

/-- The callback that popped the value of call 3 returned, and call 3 returns
`ProcessingPanicked`. -/
theorem false_alarm :
    ¬ ∀ (acts : List (Action Unit Nat Nat Nat)) (log : List (Event Nat Nat))
      (s : State Unit Nat Nat Nat),
      Run ⟨.default, false⟩ 0 (fun _ => ()) acts log s →
        ∀ o f, s.frames o = some f →
          f.pc = .done (.returned .processingPanicked) → Panicked log o := by
  intro hall
  have hrun : Run ⟨.default, false⟩ 0 (fun _ => ()) falseAlarmRun
      falseAlarmEnd.2 falseAlarmEnd.1 := Run.of_run (by decide)
  obtain ⟨i, v, -, hunwind⟩ := hall _ _ _ hrun 3 ⟨⟨3, 1, .lockAndProcess 40⟩,
    ⟨3⟩, .done (.returned .processingPanicked)⟩ (by decide) rfl
  have hnone : (falseAlarmEnd.2.all fun e => match e with
      | .callbackUnwind _ => false
      | _ => true) = true := by decide
  cases List.all_eq_true.mp hnone _ hunwind

end ContentionQueue
