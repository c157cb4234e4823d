import ContentionQueue.Permission
import ContentionQueue.Lib.Fifo

/-!
# A handle is a FIFO queue

A `QueueHandle` keeps an index into the queue, and other calls push their tasks
while the callback is in `unlocked`.  To the callback it is a FIFO queue whose
contents are the values from `next_idx` on.

* `Refines.cursor` is the invariant of a handle: the tasks before `next_idx`
  have no value, and the tasks from it on have one.
* `HandleStep` is what one step does to the queue and to the handle, and
  `Transition.handleStep` is its proof.
* `handle_refines_fifo` is the refinement, for any part of a callback.
-/

namespace ContentionQueue

open Machines State HandOff

variable {M FS V R : Type} {cfg : Config} {s s' : State M FS V R}
  {a : Action M FS V R} {evs log : List (Event V R)}
  {acts : List (Action M FS V R)} {frontState : FS} {data : Addr → M}

/-! ## The handle of a call -/

/-- The handle that a call has in its callback. -/
def Pc.handle? : Pc V R → Option QueueHandle
  | .callback h => some h
  | .unlocked h => some h
  | .reLock h => some h
  | _ => none

/-- The handle of a call. -/
def State.handleOf (s : State M FS V R) (i : CallId) : Option QueueHandle :=
  (s.frames i).bind fun f => f.pc.handle?

/-- What an event is to the handle of call `i`, as a FIFO queue. -/
def Event.fifoOp? (i : CallId) : Event V R → Option (Fifo.Op V)
  | .push _ v => some (.enqueue v)
  | .peek j result => if j = i then some (.front result) else none
  | .pop j _ v => if j = i then some (.dequeue (some v)) else none
  | .popNone j => if j = i then some (.dequeue none) else none
  | _ => none

/-- The operations of the handle of call `i`, with the pushes of other
calls. -/
def fifoOps (i : CallId) (log : List (Event V R)) : List (Fifo.Op V) :=
  log.filterMap (Event.fifoOp? i)

/-- The task that an event pushes. -/
def Event.pushed? : Event V R → Option (Task V)
  | .push j v => some ⟨j, some v⟩
  | _ => none

/-- The tasks that were pushed, in order. -/
def pushedTasks (log : List (Event V R)) : List (Task V) :=
  log.filterMap Event.pushed?

/-- Whether an event is a successful pop of call `i`. -/
def Event.isPopOf (i : CallId) : Event V R → Bool
  | .pop j _ _ => j = i
  | _ => false

section Handle

variable {l : Line CallId V} {i : CallId} {f : Frame V R} {pc : Pc V R}
  {hd hd' : QueueHandle}

theorem handle?_notifyOne (pc : Pc V R) :
    pc.notifyOne.handle? = pc.handle? := by
  cases pc <;> rfl

theorem State.At.handleOf (hat : s.At i f pc) :
    s.handleOf i = pc.handle? := by
  simp [State.handleOf, hat.frame, hat.pc]

theorem handleOf_goto (s : State M FS V R) (i : CallId) (f : Frame V R)
    (pc : Pc V R) : (s.goto i f pc).handleOf i = pc.handle? := by
  simp [State.handleOf]

theorem bind_handle?_wake (wake : TaskState → TaskState)
    (o : Option (Frame V R)) :
    ((o.map (Frame.wake wake)).bind fun f => f.pc.handle?) =
      o.bind fun f => f.pc.handle? := by
  cases o with
  | none => rfl
  | some f => exact handle?_notifyOne f.pc

theorem handleOf_wakeNext (s : State M FS V R)
    (wake : TaskState → TaskState) (i : CallId) :
    (s.wakeNext wake).handleOf i = s.handleOf i := by
  unfold State.handleOf
  rcases wakeNext_frames s wake i with hsame | hwoken
  · rw [hsame]
  · rw [hwoken, bind_handle?_wake]

theorem State.handleOf_eq_some : s.handleOf i = some hd ↔
    ∃ f, s.frames i = some f ∧ f.pc.handle? = some hd := by
  simp [State.handleOf, Option.bind_eq_some_iff]

theorem nextIdx_of_handle {pc : Pc V R} (h : pc.handle? = some hd) :
    pc.nextIdx? = some hd.nextIdx := by
  cases pc <;> cases h <;> rfl

theorem inCallback_of_handle {pc : Pc V R} (h : pc.handle? = some hd) :
    pc.inCallback = true := by
  cases pc <;> first | rfl | cases h

theorem inSpan_of_handle (h : s.handleOf i = some hd) : s.InSpan i := by
  obtain ⟨f, hf, hpc⟩ := State.handleOf_eq_some.mp h
  exact ⟨f, hf, inCallback_of_handle hpc⟩

/-- A call that an action is not about keeps its handle. -/
theorem Transition.handleOf_other (ht : Transition cfg s a s' evs)
    (hi : a.call? ≠ some i) : s'.handleOf i = s.handleOf i := by
  unfold State.handleOf
  rcases ht.other hi with hsame | ⟨wake, hwoken⟩
  · rw [hsame]
  · rw [hwoken, bind_handle?_wake]

/-- The invariant of a handle. -/
theorem Refines.cursor (hR : Refines log s l) (h : s.handleOf i = some hd) :
    ∃ c : Fifo.Cursor V, c.slots = s.mutexExclusive.queue.map Task.value ∧
      c.next = hd.nextIdx := by
  obtain ⟨f, hf, hpc⟩ := State.handleOf_eq_some.mp h
  have hnext := (hR.frames i f hf).nextIdx _ (nextIdx_of_handle hpc)
  have hslots : s.mutexExclusive.queue.map Task.value =
      l.merged.map (fun _ => none) ++ l.pending.map fun p => some p.2 := by
    have hqueue := congrArg (List.map Prod.snd) hR.queue
    simpa [Line.slots, Function.comp_def] using hqueue
  have hlength : hd.nextIdx =
      (l.merged.map fun _ => (none : Option V)).length := by
    rw [hnext, List.length_map]
  refine ⟨⟨s.mutexExclusive.queue.map Task.value, hd.nextIdx, ?_, ?_, ?_⟩, rfl,
    rfl⟩
  · rw [hslots, List.length_append, hlength]
    exact Nat.le_add_right _ _
  · rw [hslots, hlength, List.take_left]
    simp
  · rw [hslots, hlength, List.drop_left]
    rintro x hx rfl
    simp at hx

end Handle

/-! ## Steps -/

/-- What a step does to the queue and to the handle `hd` of call `i`. -/
inductive HandleStep (i : CallId) (queue : List (Task V)) (hd : QueueHandle) :
    Action M FS V R → List (Event V R) → List (Task V) → QueueHandle →
      Prop where
  | peek {value}
      (hslot : queue[hd.nextIdx]?.map Task.value = value.map some) :
      HandleStep i queue hd (.callback i .peek) [.peek i value] queue hd
  | pop {owner value}
      (hslot : queue[hd.nextIdx]? = some ⟨owner, some value⟩) :
      HandleStep i queue hd (.callback i .pop) [.pop i owner value]
        (queue.set hd.nextIdx ⟨owner, none⟩)
        { hd with nextIdx := hd.nextIdx + 1 }
  | popNone (hslot : queue[hd.nextIdx]? = none) :
      HandleStep i queue hd (.callback i .pop) [.popNone i] queue hd
  | push {j value} (hj : j ≠ i) :
      HandleStep i queue hd (.step j) [.push j value]
        (queue ++ [⟨j, some value⟩]) hd
  | keep {a evs hd'} (hpeek : a ≠ .callback i .peek)
      (hpop : a ≠ .callback i .pop) (hnext : hd'.nextIdx = hd.nextIdx)
      (hops : fifoOps i evs = []) (hpushed : pushedTasks evs = [])
      (hpopped : evs.countP (Event.isPopOf i) = 0) :
      HandleStep i queue hd a evs queue hd'

section HandleStep

variable {l : Line CallId V} {i : CallId} {f : Frame V R} {pc : Pc V R}
  {hd hd' : QueueHandle}

theorem peek_eq_ok {x : MutexExclusive V} {value : Option V} :
    hd.peek x = .ok value ↔
      x.queue[hd.nextIdx]?.map Task.value = value.map some := by
  unfold QueueHandle.peek
  cases x.queue[hd.nextIdx]? with
  | none => cases value <;> simp
  | some t => cases ht : t.value <;> cases value <;> simp [ht]

theorem peek_eq_error {x : MutexExclusive V} {p : Panic}
    (h : hd.peek x = .error p) :
    ∃ owner, x.queue[hd.nextIdx]? = some ⟨owner, none⟩ := by
  unfold QueueHandle.peek at h
  cases hslot : x.queue[hd.nextIdx]? with
  | none => simp [hslot] at h
  | some t =>
      obtain ⟨owner, value⟩ := t
      cases value with
      | none => exact ⟨owner, rfl⟩
      | some v => simp [hslot] at h

theorem pop_of_none {x : MutexExclusive V}
    (h : x.queue[hd.nextIdx]? = none) : hd.pop x = (.ok none, hd, x) := by
  simp [QueueHandle.pop, h]

theorem pop_of_some {x : MutexExclusive V} {owner : CallId} {value : V}
    (h : x.queue[hd.nextIdx]? = some ⟨owner, some value⟩) :
    hd.pop x = (.ok (some (owner, value)),
      { hd with nextIdx := hd.nextIdx + 1 },
      { x with queue := x.queue.set hd.nextIdx ⟨owner, none⟩ }) := by
  simp [QueueHandle.pop, Task.take, h]

/-- No handle finds a task without a value at its index. -/
theorem Refines.slot_ne_none (hR : Refines log s l)
    (h : s.handleOf i = some hd) {owner : CallId} :
    s.mutexExclusive.queue[hd.nextIdx]? ≠ some ⟨owner, none⟩ := by
  intro hslot
  obtain ⟨c, hslots, hnext⟩ := hR.cursor h
  have hhead := c.slot_eq_head?
  rw [hslots, hnext, List.getElem?_map, hslot] at hhead
  cases hc : c.contents.head? <;> simp [hc] at hhead

/-- One call at a time has a handle. -/
theorem Refines.handle_unique (hR : Refines log s l)
    (h : s.handleOf i = some hd) {j : CallId} (hj : s.InSpan j) : j = i := by
  have hbaton := hR.baton_of_inSpan (inSpan_of_handle h)
  rw [hR.baton_of_inSpan hj, Baton.serving.injEq] at hbaton
  exact hbaton

theorem Transition.handleStep_self (ht : Transition cfg s a s' evs)
    (hR : Refines log s l) (hi : a.call? = some i)
    (h : s.handleOf i = some hd) (h' : s'.handleOf i = some hd') :
    HandleStep i s.mutexExclusive.queue hd a evs s'.mutexExclusive.queue
      hd' := by
  have hsame : ∀ {f : Frame V R} {hd₀ : QueueHandle},
      s.At i f (.callback hd₀) → hd₀ = hd := by
    intro f hd₀ hat
    exact Option.some.inj (hat.handleOf.symm.trans h)
  cases ht <;> cases hi
  case peek hpeek hin =>
    obtain rfl := hsame hin.loc
    obtain rfl := Option.some.inj (h.symm.trans h')
    exact .peek (peek_eq_ok.mp hpeek)
  case peekPanic hpeek hin =>
    obtain rfl := hsame hin.loc
    obtain ⟨owner, hslot⟩ := peek_eq_error hpeek
    exact absurd hslot (hR.slot_ne_none h)
  case pop htask hin =>
    obtain rfl := hsame hin.loc
    obtain rfl := Option.some.inj ((handleOf_goto _ _ _ _).symm.trans h')
    exact .pop htask
  case popPanic htask hin =>
    obtain rfl := hsame hin.loc
    exact absurd htask (hR.slot_ne_none h)
  case popNone htask hin =>
    obtain rfl := hsame hin.loc
    obtain rfl := Option.some.inj (h.symm.trans h')
    exact .popNone htask
  case uninit hslot hat =>
    exact (hR.basics.slots.not_uninit hat hslot).elim
  case isQueuePoisoned | mutexState | frontState | frontUnlocked |
      clearQueuePoison =>
    obtain rfl := Option.some.inj (h.symm.trans h')
    exact .keep (by simp) (by simp) rfl rfl rfl rfl
  case unlocked hin =>
    obtain rfl := hsame hin.loc
    obtain rfl := Option.some.inj ((handleOf_goto _ _ _ _).symm.trans h')
    exact .keep (by simp) (by simp) rfl rfl rfl rfl
  case endUnlocked hat =>
    obtain rfl := Option.some.inj (hat.handleOf.symm.trans h)
    obtain rfl := Option.some.inj ((handleOf_goto _ _ _ _).symm.trans h')
    exact .keep (by simp) (by simp) rfl rfl rfl rfl
  case reLock hfree hat =>
    obtain rfl := Option.some.inj (hat.handleOf.symm.trans h)
    obtain rfl := Option.some.inj ((handleOf_goto _ _ _ _).symm.trans h')
    exact .keep (by simp) (by simp) rfl rfl rfl rfl
  case callProcess hnew => simp [State.handleOf, hnew] at h
  case callOther hnew => simp [State.handleOf, hnew] at h
  case spuriousWake hpc hframe =>
    simp [State.handleOf, hframe, hpc, Pc.handle?] at h
  case ret => cases (handleOf_goto _ _ _ _).symm.trans h'
  case unwind => cases (handleOf_goto _ _ _ _).symm.trans h'
  all_goals
    rename_i hat
    cases hat.handleOf.symm.trans h

/-- What a step of another call does. -/
theorem Transition.handleStep_other (ht : Transition cfg s a s' evs)
    (hR : Refines log s l) (hi : a.call? ≠ some i)
    (h : s.handleOf i = some hd) :
    HandleStep i s.mutexExclusive.queue hd a evs s'.mutexExclusive.queue
      hd := by
  have hserving := hR.baton_of_inSpan (inSpan_of_handle h)
  have hin : ∀ {j f hd g}, s.InCallback j f hd g → some j ≠ some i → False :=
    fun hin hne =>
      hne (congrArg some (hR.handle_unique h (hin.loc.inSpan rfl)))
  have hpeek : a ≠ .callback i .peek := fun heq => hi (heq ▸ rfl)
  have hpop : a ≠ .callback i .pop := fun heq => hi (heq ▸ rfl)
  cases ht
  case push j f g v hat => exact .push fun heq => hi (congrArg some heq)
  case popFront hat _ =>
    obtain ⟨hcalled, -⟩ := (l.stage_eq_called _ _).mp (hR.at hat).stage.symm
    cases hserving.symm.trans hcalled
  case peek hin' _ => exact (hin hin' hi).elim
  case pop hin' _ => exact (hin hin' hi).elim
  case popPanic hin' _ => exact (hin hin' hi).elim
  case popNone hin' _ => exact (hin hin' hi).elim
  case handOff =>
    rw [wakeNext_queue]
    exact .keep hpeek hpop rfl rfl rfl rfl
  case errHandOff =>
    rw [wakeNext_queue]
    exact .keep hpeek hpop rfl rfl rfl rfl
  all_goals exact .keep hpeek hpop rfl rfl rfl rfl

/-- What a step does to a handle that is there before and afterwards. -/
theorem Transition.handleStep (ht : Transition cfg s a s' evs)
    (hR : Refines log s l) (h : s.handleOf i = some hd)
    (h' : s'.handleOf i = some hd') :
    HandleStep i s.mutexExclusive.queue hd a evs s'.mutexExclusive.queue
      hd' := by
  by_cases hi : a.call? = some i
  · exact ht.handleStep_self hR hi h h'
  · rw [ht.handleOf_other hi, h] at h'
    obtain rfl := Option.some.inj h'
    exact ht.handleStep_other hR hi h

theorem map_some_injective {α : Type} :
    Function.Injective (Option.map (some : α → Option α)) :=
  Option.map_injective fun _ _ => Option.some.inj

theorem fifoOps_peek (i : CallId) (value : Option V) :
    fifoOps i [(.peek i value : Event V R)] = [.front value] := by
  simp [fifoOps, Event.fifoOp?]

theorem fifoOps_pop (i owner : CallId) (value : V) :
    fifoOps i [(.pop i owner value : Event V R)] =
      [.dequeue (some value)] := by
  simp [fifoOps, Event.fifoOp?]

theorem fifoOps_popNone (i : CallId) :
    fifoOps i [(.popNone i : Event V R)] = [.dequeue none] := by
  simp [fifoOps, Event.fifoOp?]

/-- A step is at most one operation of the FIFO queue. -/
theorem HandleStep.fifo {queue queue' : List (Task V)} {c c' : Fifo.Cursor V}
    (hstep : HandleStep i queue hd a evs queue' hd')
    (hslots : c.slots = queue.map Task.value) (hnext : c.next = hd.nextIdx)
    (hslots' : c'.slots = queue'.map Task.value)
    (hnext' : c'.next = hd'.nextIdx) :
    Fifo.Steps c.contents (fifoOps i evs) c'.contents := by
  have hhead : c.contents.head?.map some =
      queue[hd.nextIdx]?.map Task.value := by
    rw [← c.slot_eq_head?, hslots, hnext, List.getElem?_map]
  cases hstep with
  | peek hvalue =>
      have hsame := Fifo.Cursor.contents_congr (hslots'.trans hslots.symm)
        (hnext'.trans hnext.symm)
      obtain rfl := map_some_injective (hhead.trans hvalue)
      rw [hsame, fifoOps_peek]
      exact .single .front
  | pop htask =>
      rw [htask] at hhead
      have hpop : c.contents.head? = some _ := map_some_injective hhead
      have htail : c'.contents = c.contents.tail := by
        refine Fifo.Cursor.contents_advance ?_ ?_
        · rw [hslots', hslots, hnext, List.map_set]
        · rw [hnext', hnext]
      rw [htail, fifoOps_pop, ← hpop]
      exact .single .dequeue
  | popNone hnone =>
      have hsame := Fifo.Cursor.contents_congr (hslots'.trans hslots.symm)
        (hnext'.trans hnext.symm)
      rw [hnone] at hhead
      have hempty : c.contents = [] := by simpa using hhead
      rw [hsame, fifoOps_popNone, hempty]
      exact .single .dequeue
  | @push j value hj =>
      have happend : c'.contents = c.contents ++ [value] := by
        refine Fifo.Cursor.contents_append ?_ (hnext'.trans hnext.symm)
        rw [hslots', hslots, List.map_append]
        rfl
      rw [happend]
      exact .single .enqueue
  | keep _ _ hkeep hops _ _ =>
      rw [hops, Fifo.Cursor.contents_congr (hslots'.trans hslots.symm)
        (hnext'.trans (hkeep.trans hnext.symm))]
      exact .nil

theorem HandleStep.nextIdx_eq {queue queue' : List (Task V)}
    (hstep : HandleStep i queue hd a evs queue' hd') :
    hd'.nextIdx = hd.nextIdx + evs.countP (Event.isPopOf i) := by
  cases hstep with
  | peek => rfl
  | pop => simp [Event.isPopOf]
  | popNone => rfl
  | push => rfl
  | keep _ _ hnext _ _ hpopped => rw [hpopped, hnext, Nat.add_zero]

/-- A handle is made at the start of a callback. -/
theorem Transition.handle_new (ht : Transition cfg s a s' evs)
    (h : s.handleOf i = none) (h' : s'.handleOf i = some hd) :
    ∃ f g v, s.At i f (.assertMutexUnpoisoned g v) ∧
      evs = [.callback i v] ∧ hd = .new g := by
  have hi : a.call? = some i := by
    by_contra hi
    rw [ht.handleOf_other hi, h] at h'
    cases h'
  have hnone : ∀ {f : Frame V R} {pc : Pc V R} {hd₀ : QueueHandle},
      s.At i f pc → pc.handle? ≠ some hd₀ := by
    intro f pc hd₀ hat hpc
    rw [hat.handleOf, hpc] at h
    cases h
  cases ht <;> cases hi
  case startCallback hgood hat =>
    exact ⟨_, _, _, hat, rfl,
      (Option.some.inj ((handleOf_goto _ _ _ _).symm.trans h')).symm⟩
  case handOff =>
    rw [handleOf_wakeNext] at h'
    cases (handleOf_goto _ _ _ _).symm.trans h'
  case errHandOff =>
    rw [handleOf_wakeNext] at h'
    cases (handleOf_goto _ _ _ _).symm.trans h'
  case callOther c _ _ _ =>
    cases hm : c.method <;>
      simp [State.handleOf, hm, Method.entry, Pc.handle?] at h'
  case contended => simp [State.handleOf, Pc.handle?] at h'
  all_goals
    first
    | (rename_i hat; exact absurd rfl (hnone hat))
    | (rename_i hin; exact absurd rfl (hnone hin.loc))
    | simp [State.handleOf, Pc.handle?] at h'

/-- A call that is about to start its callback has not popped anything. -/
theorem Refines.countP_pops_eq_zero (hR : Refines log s l) {g : Addr} {v : V}
    (hat : s.At i f (.assertMutexUnpoisoned g v)) :
    log.countP (Event.isPopOf i) = 0 := by
  have hbaton := hR.front hat rfl
  rw [List.countP_eq_zero]
  intro e he hpop
  cases e <;> simp only [Event.isPopOf, decide_eq_true_eq,
    Bool.false_eq_true] at hpop
  case pop j owner w =>
    exact l.unserved i v hbaton _ (hR.taken_of_pop he) hpop

/-- `next_idx` counts the pops of the handle. -/
theorem Run.nextIdx_eq (h : Run cfg frontState data acts log s) :
    ∀ i hd, s.handleOf i = some hd →
      hd.nextIdx = log.countP (Event.isPopOf i) := by
  induction h with
  | nil =>
      intro i hd h
      cases h
  | snoc run _ hstep ih =>
      intro i hd' h'
      have ht := transition_of_step hstep
      obtain ⟨l, -, hR⟩ := Run.refines run
      rw [List.countP_append]
      cases h : State.handleOf _ i with
      | none =>
          obtain ⟨f, g, v, hat, rfl, rfl⟩ := ht.handle_new h h'
          rw [hR.countP_pops_eq_zero hat]
          rfl
      | some hd =>
          have hcount := ih i hd h
          rw [(ht.handleStep hR h h').nextIdx_eq, hcount]

theorem Transition.taskState_self (ht : Transition cfg s a s' evs)
    (hi : a.call? = some i) (hf : s.frames i = some f)
    (hqueued : f.pc.isQueued = true) :
    (s'.frames i).map Frame.taskState = (s.frames i).map Frame.taskState := by
  cases ht <;> cases hi
  case callProcess hnew => cases hnew.symm.trans hf
  case callOther hnew => cases hnew.symm.trans hf
  case spuriousWake hframe => simp [hframe]
  case wait hat => simp [hat.frame]
  case relock hat => simp [hat.frame]
  case testFront hat => simp [hat.frame]
  case testNotFront hat => simp [hat.frame]
  case popFront hat => simp [hat.frame]
  case popNothing hat => simp [hat.frame]
  all_goals
    first
    | rfl
    | (rename_i hat
       rw [hat.pc_eq hf] at hqueued
       cases hqueued)

/-- The state bits of the queued tasks stay as they are while a callback
runs. -/
theorem Transition.taskState_queued (ht : Transition cfg s a s' evs)
    (hR : Refines log s l) (h : s.handleOf i = some hd) {t : Task V}
    (hmem : t ∈ s.mutexExclusive.queue) :
    (s'.frames t.state).map Frame.taskState =
      (s.frames t.state).map Frame.taskState := by
  have hserving := hR.baton_of_inSpan (inSpan_of_handle h)
  by_cases ho : a.call? = some t.state
  · obtain ⟨f, hf, hqueued⟩ :=
      (hR.mem_ids_iff_pc _).mp (hR.mem_ids hmem)
    exact ht.taskState_self ho hf hqueued
  rcases ht.woken ho with hsame | ⟨j, f, _, _, -, -, -, hwoken⟩
  · rw [hsame]
  -- the call that hands the front over would have it
  · rcases hwoken with ⟨g, r, hat, -⟩ | ⟨g, p, hat, -⟩
    · have hbaton := hR.front hat rfl
      cases hserving.symm.trans hbaton
    · have hbaton := hR.front hat rfl
      cases hserving.symm.trans hbaton

theorem HandleStep.append {queue queue' : List (Task V)}
    (hstep : HandleStep i queue hd a evs queue' hd')
    (hpop : a ≠ .callback i .pop) :
    queue' = queue ++ pushedTasks evs ∧ hd'.nextIdx = hd.nextIdx := by
  cases hstep with
  | peek => exact ⟨(List.append_nil _).symm, rfl⟩
  | pop => exact absurd rfl hpop
  | popNone => exact absurd rfl hpop
  | push => exact ⟨rfl, rfl⟩
  | keep _ _ hnext _ hpushed _ =>
      exact ⟨by rw [hpushed, List.append_nil], hnext⟩

end HandleStep

/-! ## Parts of a callback -/

/-- What a part of a callback that pops nothing, such as an `unlocked`, leaves
of the queue and of the handle. -/
structure State.Appended (s : State M FS V R) (hd : QueueHandle)
    (log₂ : List (Event V R)) (s' : State M FS V R) (hd' : QueueHandle) :
    Prop where
  queue : s'.mutexExclusive.queue =
    s.mutexExclusive.queue ++ pushedTasks log₂
  nextIdx : hd'.nextIdx = hd.nextIdx
  frontLocked : s'.mutexExclusive.frontLocked = s.mutexExclusive.frontLocked
  bits : ∀ t ∈ s.mutexExclusive.queue,
    (s'.frames t.state).map Frame.taskState =
      (s.frames t.state).map Frame.taskState

section Parts

variable {l l' l₂ : Line CallId V} {s₂ : State M FS V R} {i : CallId}
  {hd hd' hd₂ : QueueHandle} {log₂ : List (Event V R)}

/-- `front_locked` is set while a callback runs. -/
theorem Refines.frontLocked_of_handle (hR : Refines log s l)
    (h : s.handleOf i = some hd) : s.mutexExclusive.frontLocked = true := by
  rw [hR.locked, hR.baton_of_inSpan (inSpan_of_handle h)]
  simp

/-- A call has one handle: it starts one callback. -/
theorem Refines.handle_before (hR : Refines log s l)
    (h : s.handleOf i = some hd) (hR₂ : Refines (log ++ log₂) s₂ l₂)
    (ht : Transition cfg s₂ a s' evs) (h' : s'.handleOf i = some hd') :
    ∃ hd₂, s₂.handleOf i = some hd₂ := by
  rw [← Option.ne_none_iff_exists']
  intro hnone
  obtain ⟨f, g, v, hat, -, -⟩ := ht.handle_new hnone h'
  have hbaton := hR₂.front hat rfl
  obtain ⟨hlast, -⟩ := l.served i (hR.baton_of_inSpan (inSpan_of_handle h))
  obtain ⟨r, hr, htaker⟩ := Option.map_eq_some_iff.mp hlast
  refine l₂.unserved i v hbaton r ?_ htaker
  rw [← hR₂.history.taken, takings, List.filterMap_append]
  refine List.mem_append_left _ ?_
  have hmem := List.mem_of_getLast? hr
  rwa [← hR.history.taken] at hmem

theorem State.Appended.refl (s : State M FS V R) (hd : QueueHandle) :
    s.Appended hd [] s hd where
  queue := (List.append_nil _).symm
  nextIdx := rfl
  frontLocked := rfl
  bits := fun _ _ => rfl

/-- A part of a callback goes on with a step that pops nothing. -/
theorem State.Appended.snoc (h : s.Appended hd log₂ s₂ hd₂)
    (ht : Transition cfg s₂ a s' evs) (hR₂ : Refines log s₂ l₂)
    (hR' : Refines (log ++ evs) s' l') (h₂ : s₂.handleOf i = some hd₂)
    (h' : s'.handleOf i = some hd') (hpop : a ≠ .callback i .pop) :
    s.Appended hd (log₂ ++ evs) s' hd' := by
  obtain ⟨hqueue, hnext⟩ := (ht.handleStep hR₂ h₂ h').append hpop
  refine ⟨?_, hnext.trans h.nextIdx, ?_, ?_⟩
  · rw [hqueue, h.queue, pushedTasks, pushedTasks, pushedTasks,
      List.filterMap_append, List.append_assoc]
  · rw [hR'.frontLocked_of_handle h', ← h.frontLocked,
      hR₂.frontLocked_of_handle h₂]
  · intro t ht₀
    have hmem : t ∈ s₂.mutexExclusive.queue := by
      rw [h.queue]
      exact List.mem_append_left _ ht₀
    rw [ht.taskState_queued hR₂ h₂ hmem, h.bits t ht₀]

/-- A part of a callback is a run of the FIFO queue. -/
theorem Run.handle_part (h : Run cfg frontState data acts log s)
    {acts₂ : List (Action M FS V R)}
    (h₂ : (machine M FS V R cfg).Exec (fun _ a => a.Matched) s acts₂ log₂ s')
    (hi : s.handleOf i = some hd) {c : Fifo.Cursor V}
    (hslots : c.slots = s.mutexExclusive.queue.map Task.value)
    (hnext : c.next = hd.nextIdx) :
    ∀ hd' (c' : Fifo.Cursor V), s'.handleOf i = some hd' →
      c'.slots = s'.mutexExclusive.queue.map Task.value →
      c'.next = hd'.nextIdx →
        Fifo.Steps c.contents (fifoOps i log₂) c'.contents ∧
          (.callback i .pop ∉ acts₂ → s.Appended hd log₂ s' hd') := by
  obtain ⟨l, -, hR⟩ := h.refines
  induction h₂ with
  | nil =>
      intro hd' c' hi' hslots' hnext'
      obtain rfl := Option.some.inj (hi.symm.trans hi')
      rw [Fifo.Cursor.contents_congr (hslots'.trans hslots.symm)
        (hnext'.trans hnext.symm)]
      exact ⟨.nil, fun _ => .refl s hd⟩
  | @snoc acts₂ log₂ s₂ a evs s' run hmatched hstep ih =>
      intro hd' c' hi' hslots' hnext'
      have ht := transition_of_step hstep
      obtain ⟨l₂, -, hR₂⟩ := Run.refines (Machine.Exec.trans h run)
      obtain ⟨l', -, hR'⟩ :=
        Run.refines ((Machine.Exec.trans h run).snoc hmatched hstep)
      obtain ⟨hd₂, hi₂⟩ := hR.handle_before hi hR₂ ht hi'
      obtain ⟨c₂, hslots₂, hnext₂⟩ := hR₂.cursor hi₂
      obtain ⟨hfifo, happended⟩ := ih hd₂ c₂ hi₂ hslots₂ hnext₂
      refine ⟨?_, fun hpop => ?_⟩
      · rw [fifoOps, List.filterMap_append]
        exact hfifo.trans ((ht.handleStep hR₂ hi₂ hi').fifo hslots₂ hnext₂
          hslots' hnext')
      · rw [List.mem_append, not_or, List.mem_singleton] at hpop
        exact (happended hpop.1).snoc ht hR₂ hR' hi₂ hi' (Ne.symm hpop.2)

end Parts

/-! ## The refinement -/

/-- To its callback, the handle `hd` of call `i` is a FIFO queue with the
contents `q`. -/
structure State.IsFifo (cfg : Config) (log : List (Event V R))
    (s : State M FS V R) (i : CallId) (hd : QueueHandle) (q : List V) :
    Prop where
  popped : hd.nextIdx = log.countP (Event.isPopOf i)
  bound : hd.nextIdx ≤ s.mutexExclusive.queue.length
  before : ∀ t ∈ s.mutexExclusive.queue.take hd.nextIdx, t.value = none
  after : (s.mutexExclusive.queue.drop hd.nextIdx).map Task.value = q.map some
  peek : ∀ f, s.At i f (.callback hd) →
    step cfg s (.callback i .peek) = some (s, [.peek i q.head?])
  popNone : ∀ f, s.At i f (.callback hd) → q = [] →
    step cfg s (.callback i .pop) = some (s, [.popNone i])
  pop : ∀ f v rest, s.At i f (.callback hd) → q = v :: rest →
    ∃ s' owner, step cfg s (.callback i .pop) =
        some (s', [.pop i owner v]) ∧
      s'.handleOf i = some { hd with nextIdx := hd.nextIdx + 1 } ∧
      (s'.mutexExclusive.queue.drop (hd.nextIdx + 1)).map Task.value =
        rest.map some

section IsFifo

variable {l : Line CallId V} {i : CallId} {f : Frame V R}
  {hd hd' : QueueHandle}

/-- An operation of a callback finds its two slots initialised. -/
theorem Refines.step_callback (hR : Refines log s l)
    (hat : s.At i f (.callback hd)) (op : CallbackOp M FS R) :
    ∃ g, hd.guard = some g ∧ hd.mutexExclusiveGuard = true ∧
      step cfg s (.callback i op) = stepCallback s i f hd op := by
  obtain ⟨hguard, hexclusive⟩ := hR.basics.slots.at hat
  obtain ⟨g, hg⟩ := Option.isSome_iff_exists.mp hguard
  refine ⟨g, hg, hexclusive, ?_⟩
  simp [step, hat.frame, hat.running, hat.pc]

theorem Refines.isFifo (hR : Refines log s l)
    (hpopped : hd.nextIdx = log.countP (Event.isPopOf i))
    {c : Fifo.Cursor V}
    (hslots : c.slots = s.mutexExclusive.queue.map Task.value)
    (hnext : c.next = hd.nextIdx) : s.IsFifo cfg log i hd c.contents := by
  have hhead : s.mutexExclusive.queue[hd.nextIdx]?.map Task.value =
      c.contents.head?.map some := by
    rw [← c.slot_eq_head?, hslots, hnext, List.getElem?_map]
  have hafter : (s.mutexExclusive.queue.drop hd.nextIdx).map Task.value =
      c.contents.map some := by
    rw [c.map_some_contents, hslots, hnext, List.map_drop]
  refine ⟨hpopped, ?_, ?_, hafter, ?_, ?_, ?_⟩
  · have hbound := c.bound
    rwa [hslots, hnext, List.length_map] at hbound
  · intro t ht
    refine c.emptied t.value ?_
    rw [hslots, hnext, ← List.map_take]
    exact List.mem_map_of_mem ht
  · intro f hat
    obtain ⟨g, hguard, hexclusive, hstep⟩ := hR.step_callback hat .peek
    rw [hstep]
    simp only [stepCallback, hguard, hexclusive, peek_eq_ok.mpr hhead]
  · intro f hat hempty
    obtain ⟨g, hguard, hexclusive, hstep⟩ := hR.step_callback hat .pop
    have hslot : s.mutexExclusive.queue[hd.nextIdx]? = none := by
      simpa [hempty] using hhead
    rw [hstep]
    simp only [stepCallback, hguard, hexclusive, pop_of_none hslot]
  · intro f v rest hat hcons
    obtain ⟨g, hguard, hexclusive, hstep⟩ := hR.step_callback hat .pop
    rw [hcons, List.head?_cons, Option.map_some,
      Option.map_eq_some_iff] at hhead
    obtain ⟨⟨owner, value⟩, hslot, rfl⟩ := hhead
    rw [hstep]
    simp only [stepCallback, hguard, hexclusive, pop_of_some hslot]
    refine ⟨_, owner, rfl, handleOf_goto _ _ _ _, ?_⟩
    show ((s.mutexExclusive.queue.set hd.nextIdx ⟨owner, none⟩).drop
      (hd.nextIdx + 1)).map Task.value = rest.map some
    rw [List.drop_set_of_lt (Nat.lt_succ_self _), ← List.tail_drop,
      List.map_tail, hafter, hcons]
    rfl

end IsFifo

/-- The handle of a call refines a FIFO queue.  Between two moments of a
callback the events of the handle and the pushes of other calls are operations
of the queue, in order. -/
theorem handle_refines_fifo (h : Run cfg frontState data acts log s)
    {acts₂ : List (Action M FS V R)} {log₂ : List (Event V R)}
    (h₂ : (machine M FS V R cfg).Exec (fun _ a => a.Matched) s acts₂ log₂ s')
    {i : CallId} {hd hd' : QueueHandle} (hi : s.handleOf i = some hd)
    (hi' : s'.handleOf i = some hd') :
    ∃ q q', s.IsFifo cfg log i hd q ∧ s'.IsFifo cfg (log ++ log₂) i hd' q' ∧
      Fifo.Steps q (fifoOps i log₂) q' ∧
      (.callback i .pop ∉ acts₂ → s.Appended hd log₂ s' hd') ∧
      ∀ v r ops₁ mid ops₂, fifoOps i log₂ =
          ops₁ ++ .front (some v) :: (mid ++ .dequeue r :: ops₂) →
        (∀ r', .dequeue r' ∉ mid) → r = some v := by
  obtain ⟨l, -, hR⟩ := h.refines
  have h' : Run cfg frontState data (acts ++ acts₂) (log ++ log₂) s' :=
    Machine.Exec.trans h h₂
  obtain ⟨l', -, hR'⟩ := h'.refines
  obtain ⟨c, hslots, hnext⟩ := hR.cursor hi
  obtain ⟨c', hslots', hnext'⟩ := hR'.cursor hi'
  obtain ⟨hfifo, happended⟩ :=
    h.handle_part h₂ hi hslots hnext hd' c' hi' hslots' hnext'
  refine ⟨c.contents, c'.contents, ?_, ?_, hfifo, happended, ?_⟩
  · exact hR.isFifo (h.nextIdx_eq i hd hi) hslots hnext
  · exact hR'.isFifo (h'.nextIdx_eq i hd' hi') hslots' hnext'
  · intro v r ops₁ mid ops₂ hops hmid
    exact (hops ▸ hfifo).front_dequeue hmid

/-- After `callbackRun`, call 0 is in its callback. -/
def callbackRun : List (Action Unit Nat Nat Nat) :=
  [.call 0 ⟨0, 1, .lockAndProcess 10⟩, .step 0, .step 0, .step 0, .step 0]

/-- Call 1 pushes its task during the first `unlocked` of call 0, and call 2
during the second one.  Call 0 peeks between them and pops at the end. -/
def peekPopRun : List (Action Unit Nat Nat Nat) :=
  [.callback 0 .peek, .callback 0 .unlocked,
    .call 1 ⟨1, 1, .lockAndProcess 20⟩, .step 1, .step 1, .step 1, .step 1,
    .step 1, .callback 0 .endUnlocked, .step 0, .callback 0 .peek,
    .callback 0 .unlocked, .call 2 ⟨2, 1, .lockAndProcess 30⟩, .step 2,
    .step 2, .step 2, .step 2, .step 2, .clearPoison 1,
    .callback 0 .endUnlocked, .step 0, .callback 0 .pop]

/-- The state after `callbackRun`. -/
def callbackState : State Unit Nat Nat Nat :=
  ((run ⟨⟨false, false⟩, true⟩ 0 (fun _ => ()) callbackRun).get
    (by decide)).1

/-- In `peekPopRun` call 0 pops the value that it has peeked. -/
theorem handle_refines_fifo_peekPop :
    ∃ (s' : State Unit Nat Nat Nat) (log log₂ : List (Event Nat Nat))
        (hd hd' : QueueHandle) (q q' : List Nat),
      callbackState.IsFifo ⟨⟨false, false⟩, true⟩ log 0 hd q ∧
      s'.IsFifo ⟨⟨false, false⟩, true⟩ (log ++ log₂) 0 hd' q' ∧
      Fifo.Steps q [.front none, .enqueue 20, .front (some 20), .enqueue 30,
        .dequeue (some 20)] q' := by
  have hcallback : Run ⟨⟨false, false⟩, true⟩ 0 (fun _ => ()) callbackRun _
      callbackState := Run.of_run (by decide)
  have hpeekPop : (machine Unit Nat Nat Nat ⟨⟨false, false⟩, true⟩).Exec
      (fun _ a => a.Matched) callbackState peekPopRun _ _ :=
    Machine.Exec.of_isSome (by decide)
  have hhandle : callbackState.handleOf 0 = some (.new 1) := by decide
  obtain ⟨q, q', hq, hq', hsteps, -, -⟩ :=
    handle_refines_fifo hcallback hpeekPop hhandle
      (Option.some_get (by decide)).symm
  exact ⟨_, _, _, _, _, q, q', hq, hq', hsteps⟩

end ContentionQueue
