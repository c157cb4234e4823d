import ContentionQueue.Permission

/-!
# The state byte of a task

A `TaskState` has one byte, and two bits of it are written: `FRONT_BIT` by
`wake_front_task`, and `PANIC_BIT` with it by `wake_front_task_panicking`.
This module is the protocol of that byte over whole runs.

* `Frame.ByteOk` says which values the byte takes and where it is still zero.
* `Transition.signal_cases` is the step lemma: only a hand-off writes the byte,
  it writes that of the head of the queue, and it finds a zero there.
* `state_byte_protocol` is the result.
-/

namespace ContentionQueue

open Machines State HandOff

variable {M FS V R : Type} {cfg : Config} {s s' : State M FS V R}
  {a : Action M FS V R} {evs log : List (Event V R)} {l : Line CallId V}
  {acts : List (Action M FS V R)} {frontState : FS} {data : Addr → M}
  {i : CallId} {f f' : Frame V R}

/-! ## The values of the byte -/

namespace TaskState

/-- The byte with `FRONT_BIT`. -/
def front : TaskState := ⟨frontBit⟩

/-- The byte with both bits. -/
def frontPanic : TaskState := ⟨panicBit ||| frontBit⟩

theorem wakeFrontTask_new : new.wakeFrontTask = front := rfl

theorem wakeFrontTaskPanicking_new :
    new.wakeFrontTaskPanicking = frontPanic := rfl

@[simp] theorem isFront_front : front.isFront = true := rfl

@[simp] theorem isFront_frontPanic : frontPanic.isFront = true := rfl

end TaskState

/-- The byte is zero or was written by one hand-off, and it is zero before the
call has arrived. -/
structure Frame.ByteOk (f : Frame V R) : Prop where
  word : f.taskState = .new ∨ f.taskState = .front ∨ f.taskState = .frontPanic
  fresh : f.pc.hasArrived = false → f.taskState = .new

/-- A byte without `FRONT_BIT` is zero. -/
theorem Frame.ByteOk.eq_new (h : f.ByteOk)
    (hfront : f.taskState.isFront = false) : f.taskState = .new := by
  rcases h.word with hnew | hword | hword
  · exact hnew
  · simp [hword] at hfront
  · simp [hword] at hfront

/-! ## Steps -/

/-- Call `o` hands the front over to call `i`, the head of the queue, and writes
the byte of its task, which was zero. -/
structure State.Signals (s : State M FS V R) (a : Action M FS V R) (i : CallId)
    (before after : TaskState) : Prop where
  head : (s.mutexExclusive.queue.map Task.state).head? = some i
  zero : before = .new
  block : ∃ o f g, a = .step o ∧
    ((∃ r, s.At o f (.handOff g r)) ∧ after = .front ∨
      (∃ p, s.At o f (.errHandOff g p)) ∧ after = .frontPanic)

/-- The head of the queue has not been told to go on while another call has
front permission. -/
theorem Refines.isFront_head (hR : Refines log s l) {o : CallId}
    {v : Option V} (hbaton : l.baton = .front o v) {t : Task V}
    {rest : List (Task V)} (hq : s.mutexExclusive.queue = t :: rest)
    (hf : s.frames t.state = some f) : f.taskState.isFront = false := by
  have hmem : t ∈ s.mutexExclusive.queue := by simp [hq]
  have hids : t.state ∈ l.ids := hR.mem_ids hmem
  have hstage : l.stage t.state = .waiting none :=
    l.stage_of_person (by rw [hbaton]; rfl) hids
  rw [← (hR.frames _ f hf).stage] at hstage
  have hsignal : f.taskState.signal = none := signal_of_stage hstage
  by_contra hfront
  rw [signal_of_front (by simpa using hfront)] at hsignal
  cases hsignal

/-- A block that hands the front over wakes another call. -/
theorem Refines.front_ne_head (hR : Refines log s l) {o : CallId}
    {v : Option V} (hbaton : l.baton = .front o v) {t : Task V}
    {rest : List (Task V)} (hq : s.mutexExclusive.queue = t :: rest) :
    t.state ≠ o := by
  rintro rfl
  have hmem : t ∈ s.mutexExclusive.queue := by simp [hq]
  have hids : t.state ∈ l.ids := hR.mem_ids hmem
  exact l.not_mem_ids_of_person (by rw [hbaton]; rfl) hids

/-- The call of a hand-off keeps its own byte. -/
theorem Refines.wakeNext_self (hR : Refines log s l) {v : Option V}
    (hbaton : l.baton = .front i v) {s₁ : State M FS V R}
    {wake : TaskState → TaskState}
    (hf' : (s₁.wakeNext wake).frames i = some f')
    (hq : s₁.mutexExclusive.queue = s.mutexExclusive.queue)
    (hf : s₁.frames i = some f) : f' = f := by
  rcases wakeNext_frame s₁ wake i with hsame | ⟨t, rest, hqueue, hstate, -⟩
  · rw [hsame, hf] at hf'
    exact (Option.some.inj hf').symm
  · exact absurd hstate (hR.front_ne_head hbaton (hq ▸ hqueue))

/-- A call does not write its own byte. -/
theorem Transition.taskState_own (ht : Transition cfg s a s' evs)
    (hR : Refines log s l) (hbyte : f.ByteOk) (hi : a.call? = some i)
    (hf : s.frames i = some f) (hf' : s'.frames i = some f') :
    f'.taskState = f.taskState := by
  have hsame : s.frames i = some f' → f'.taskState = f.taskState := by
    intro hsame
    rw [Option.some.inj (hf.symm.trans hsame)]
  cases ht <;> cases hi
  case callProcess hnew => cases hf.symm.trans hnew
  case callOther hnew => cases hf.symm.trans hnew
  case handOff hat =>
    obtain rfl := Option.some.inj (hat.frame.symm.trans hf)
    have hbaton := hR.front hat rfl
    obtain rfl := hR.wakeNext_self hbaton hf' rfl (Function.update_self _ _ _)
    rfl
  case errHandOff hat =>
    obtain rfl := Option.some.inj (hat.frame.symm.trans hf)
    have hbaton := hR.front hat rfl
    obtain rfl := hR.wakeNext_self hbaton hf' rfl (Function.update_self _ _ _)
    rfl
  case contended hat =>
    obtain rfl := frame_of_update hf'
    have hfresh := hbyte.fresh (by rw [hat.pc_eq hf]; rfl)
    exact hfresh.symm
  case spuriousWake hframe =>
    obtain rfl := Option.some.inj (hframe.symm.trans hf)
    obtain rfl := frame_of_update hf'
    rfl
  case peek | peekPanic | popNone | isQueuePoisoned | frontState |
      frontUnlocked | clearQueuePoison | mutexState => exact hsame hf'
  case pop hin | popPanic hin | unlocked hin | ret hin | unwind hin =>
    obtain rfl := Option.some.inj (hin.loc.frame.symm.trans hf)
    obtain rfl := frame_of_update hf'
    rfl
  all_goals
    rename_i hat
    obtain rfl := Option.some.inj (hat.frame.symm.trans hf)
    obtain rfl := frame_of_update hf'
    rfl

/-- Only a hand-off writes the byte of a task. -/
theorem Transition.signal_cases (ht : Transition cfg s a s' evs)
    (hR : Refines log s l) (hall : AllFrames Frame.ByteOk s.frames)
    (hf : s.frames i = some f) (hf' : s'.frames i = some f') :
    f'.taskState = f.taskState ∨ s.Signals a i f.taskState f'.taskState := by
  by_cases hi : a.call? = some i
  · exact .inl (ht.taskState_own hR (hall i f hf) hi hf hf')
  rcases ht.woken hi with hsame | ⟨o, fo, t, rest, rfl, hq, rfl, hwoken⟩
  · rw [hsame, hf] at hf'
    exact .inl (by rw [Option.some.inj hf'])
  · have hhead : (s.mutexExclusive.queue.map Task.state).head? =
        some t.state := by rw [hq]; rfl
    have hzero : ∀ {v}, l.baton = .front o v → f.taskState = .new :=
      fun hbaton => (hall _ f hf).eq_new (hR.isFront_head hbaton hq hf)
    refine .inr ?_
    rcases hwoken with ⟨g, r, hat, hwoken⟩ | ⟨g, p, hat, -, hwoken⟩
    · have hnew := hzero (hR.front hat rfl)
      rw [hwoken, hf] at hf'
      cases hf'
      refine ⟨hhead, hnew, o, fo, g, rfl, .inl ⟨⟨r, hat⟩, ?_⟩⟩
      show f.taskState.wakeFrontTask = .front
      rw [hnew, TaskState.wakeFrontTask_new]
    · have hnew := hzero (hR.front hat rfl)
      rw [hwoken, hf] at hf'
      cases hf'
      refine ⟨hhead, hnew, o, fo, g, rfl, .inr ⟨⟨p, hat⟩, ?_⟩⟩
      show f.taskState.wakeFrontTaskPanicking = .frontPanic
      rw [hnew, TaskState.wakeFrontTaskPanicking_new]

/-- A call that has arrived stays so. -/
theorem Transition.hasArrived (ht : Transition cfg s a s' evs)
    (hf : s.frames i = some f) (hf' : s'.frames i = some f')
    (harrived : f.pc.hasArrived = true) : f'.pc.hasArrived = true := by
  have hother : a.call? ≠ some i → f'.pc.hasArrived = true := by
    intro hi
    obtain ⟨f₀, hf₀, -, hpc⟩ := ht.frame_before hi hf'
    obtain rfl := Option.some.inj (hf.symm.trans hf₀)
    rcases hpc with hpc | hpc
    · rwa [hpc]
    · rw [hpc]
      cases hp : f.pc <;> rw [hp] at harrived <;> first | rfl | cases harrived
  have hself : a.call? = some i → f'.pc.hasArrived = true := by
    intro hi
    have hsame : s.frames i = some f' → f'.pc.hasArrived = true := by
      intro hsame
      rwa [← Option.some.inj (hf.symm.trans hsame)]
    cases ht <;> cases hi
    case callProcess hnew => cases hf.symm.trans hnew
    case callOther hnew => cases hf.symm.trans hnew
    case handOff | errHandOff =>
      rw [pc_of_handOff hf' rfl]
      rfl
    case peek | peekPanic | popNone | isQueuePoisoned | frontState |
        frontUnlocked | clearQueuePoison | mutexState => exact hsame hf'
    case lock hat | mutexGood hat | contended hat | queryGood hat |
        queryLock hat | queryClear hat | queryRead hat =>
      rw [hat.pc_eq hf] at harrived
      cases harrived
    all_goals
      obtain rfl := frame_of_update hf'
      rfl
  by_cases hi : a.call? = some i
  · exact hself hi
  · exact hother hi

/-- A call starts with a zero byte. -/
theorem Transition.taskState_new (ht : Transition cfg s a s' evs)
    (hold : s.frames i = none) (hf : s'.frames i = some f) :
    f.taskState = .new := by
  have hi : a.call? = some i := by
    rw [ht.eq_call hold hf]
    rfl
  cases ht <;> cases hi
  case callProcess =>
    obtain rfl := frame_of_update hf
    rfl
  case callOther =>
    obtain rfl := frame_of_update hf
    rfl
  case spuriousWake hframe => cases hold.symm.trans hframe
  all_goals
    rename_i hloc
    first
    | cases hold.symm.trans hloc.frame
    | cases hold.symm.trans hloc.loc.frame

theorem Transition.byteOk (ht : Transition cfg s a s' evs)
    (hR : Refines log s l) (hall : AllFrames Frame.ByteOk s.frames) :
    AllFrames Frame.ByteOk s'.frames := by
  intro i f' hf'
  cases hf : s.frames i with
  | none =>
      have hnew := ht.taskState_new hf hf'
      exact ⟨.inl hnew, fun _ => hnew⟩
  | some f =>
      have hold := hall i f hf
      have harrived := ht.hasArrived hf hf'
      rcases ht.signal_cases hR hall hf hf' with hsame | hsignal
      · refine ⟨by rw [hsame]; exact hold.word, fun hnot => ?_⟩
        rw [hsame]
        refine hold.fresh ?_
        by_contra hpc
        rw [harrived (by simpa using hpc)] at hnot
        cases hnot
      · have hids : i ∈ l.ids := by
          rw [← hR.ids]
          exact List.mem_of_mem_head? hsignal.head
        obtain ⟨f₀, hf₀, hqueued⟩ := (hR.mem_ids_iff_pc i).mp hids
        obtain rfl := Option.some.inj (hf.symm.trans hf₀)
        refine ⟨?_, fun hnot => ?_⟩
        · obtain ⟨o, fo, g, -, ⟨-, hword⟩ | ⟨-, hword⟩⟩ := hsignal.block
          · exact .inr (.inl hword)
          · exact .inr (.inr hword)
        · rw [harrived] at hnot
          · cases hnot
          · cases hp : f.pc <;> rw [hp] at hqueued <;>
              first | rfl | cases hqueued

/-! ## Runs -/

/-- The bytes of a run. -/
theorem Run.byteOk (run : Run cfg frontState data acts log s) :
    AllFrames Frame.ByteOk s.frames := by
  induction run with
  | nil => simp [AllFrames, State.new]
  | snoc run _ hstep ih =>
      obtain ⟨l, -, hR⟩ := Run.refines run
      exact (transition_of_step hstep).byteOk hR ih

/-- Call `i` has pushed its task, and the calls that arrived before it have
acquired front permission. -/
structure Due (log : List (Event V R)) (i : CallId) : Prop where
  pushed : ∃ v, .push i v ∈ log
  turn : ∃ before after, (arrivals log).map Prod.fst = before ++ i :: after ∧
    before <+: acquisitions log

/-- A call stays due. -/
theorem Due.append (h : Due log i) (evs : List (Event V R)) :
    Due (log ++ evs) i where
  pushed := by
    obtain ⟨v, hv⟩ := h.pushed
    exact ⟨v, List.mem_append_left _ hv⟩
  turn := by
    obtain ⟨before, after, harrivals, hprefix⟩ := h.turn
    refine ⟨before, after ++ (arrivals evs).map Prod.fst, ?_, ?_⟩
    · simp only [arrivals, List.filterMap_append, List.map_append]
        at harrivals ⊢
      rw [harrivals]
      simp
    · simp only [acquisitions, List.filterMap_append]
      exact hprefix.trans (List.prefix_append _ _)

/-- The call whose byte is written is due. -/
theorem State.Signals.due {before after : TaskState}
    (h : s.Signals a i before after) (hR : Refines log s l) : Due log i where
  pushed := by
    have hids : i ∈ l.ids := by
      rw [← hR.ids]
      exact List.mem_of_mem_head? h.head
    exact ((hR.mem_ids_iff_log i).mp hids).1
  turn := by
    have hhead : l.ids.head? = some i := by rw [← hR.ids]; exact h.head
    obtain ⟨rest, hids⟩ := List.head?_eq_some_iff.mp hhead
    refine ⟨l.acquired, rest, ?_, ?_⟩
    · rw [hR.history.arrivals, ← l.acquired_append_ids, hids]
    · rw [hR.history.acquired]

/-- A call whose byte is not zero is due. -/
theorem Run.due_of_byte (run : Run cfg frontState data acts log s)
    (hf : s.frames i = some f) (hbyte : f.taskState ≠ .new) : Due log i := by
  induction run generalizing f with
  | nil => cases hf
  | @snoc acts log s a evs s' run _ hstep ih =>
      obtain ⟨l, -, hR⟩ := Run.refines run
      have ht := transition_of_step hstep
      cases hf₀ : s.frames i with
      | none => exact absurd (ht.taskState_new hf₀ hf) hbyte
      | some f₀ =>
          have hdue : Due log i := by
            have hall := Run.byteOk run
            rcases ht.signal_cases hR hall hf₀ hf with hsame | hsignal
            · exact ih hf₀ (hsame ▸ hbyte)
            · exact hsignal.due hR
          exact hdue.append evs

/-- In every run the byte of a task is zero, `FRONT_BIT` or `FRONT_BIT` with
`PANIC_BIT`, and it is zero before its call has arrived. It is written once: by
a hand-off, to the head of the queue, when every call that arrived earlier has
acquired front permission. -/
theorem state_byte_protocol (h : Run cfg frontState data acts log s) :
    (∀ i f, s.frames i = some f →
      f.ByteOk ∧ (f.taskState ≠ .new → Due log i)) ∧
    ∀ a s' evs, a.Matched → step cfg s a = some (s', evs) →
      ∀ i f f', s.frames i = some f → s'.frames i = some f' →
        f'.taskState ≠ f.taskState →
          s.Signals a i f.taskState f'.taskState := by
  have hall := Run.byteOk h
  refine ⟨fun i f hf => ⟨hall i f hf, Run.due_of_byte h hf⟩, ?_⟩
  intro a s' evs _ hstep i f f' hf hf' hwritten
  obtain ⟨l, -, hR⟩ := Run.refines h
  rcases (transition_of_step hstep).signal_cases hR hall hf hf' with
    hsame | hsignal
  · exact absurd hsame hwritten
  · exact hsignal

/-- At the end of `handOverRun` the byte of call 1 is `FRONT_BIT`. -/
theorem state_byte_protocol_handOver :
    let r := (run ⟨.default, false⟩ 0 (fun _ => ())
      handOverRun).get (by decide)
    (r.1.frames 1).map Frame.taskState = some .front ∧
      (∀ i f, r.1.frames i = some f →
        f.ByteOk ∧ (f.taskState ≠ .new → Due r.2 i)) ∧
      ∀ a s' evs, a.Matched → step ⟨.default, false⟩ r.1 a = some (s', evs) →
        ∀ i f f', r.1.frames i = some f → s'.frames i = some f' →
          f'.taskState ≠ f.taskState →
            r.1.Signals a i f.taskState f'.taskState :=
  ⟨by decide, state_byte_protocol (Run.of_run (by decide))⟩

end ContentionQueue
