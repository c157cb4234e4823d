import ContentionQueue.Refinement

/-!
# Front permission

A call gets front permission when it sets `front_locked`, or when it returns
from `wait_until_at_front`.  It has it until it wakes the next task or clears
`front_locked`, in either branch of `process_unchecked`.  In between, a task
whose `FRONT_BIT` is set owns the permission.

* `permission_conserved` is the conservation of the permission, with the
  mutual exclusion that follows from it.
* `unchecked_pop_ok` says that the unchecked pop is right, and which tasks the
  queue holds.
* `stack_pinned` says that a call whose task a callback can reach does not
  leave `process` before the callback ends.
-/

namespace ContentionQueue

open Machines State HandOff

variable {M FS V R : Type} {cfg : Config} {s s' : State M FS V R}
  {acts : List (Action M FS V R)} {log : List (Event V R)}
  {frontState : FS} {data : Addr → M}

/-! ## The permission -/

/-- Whether a call has acquired front permission and has not yet handed it
over or released it. -/
def Pc.holdsFront : Pc V R → Bool
  | .popFront _ _ => true
  | .assertQueueGood _ _ => true
  | .assertMutexUnpoisoned _ _ => true
  | .callback _ => true
  | .unlocked _ => true
  | .reLock _ => true
  | .handOff _ _ => true
  | .errLock _ => true
  | .errHandOff _ _ => true
  | _ => false

/-- Whether a call has pushed its task and has not yet returned from
`wait_until_at_front`. -/
def Pc.isWaiting : Pc V R → Bool
  | .wait _ => true
  | .asleep _ => true
  | .relock _ => true
  | .testFront _ => true
  | _ => false

/-- The calls that have front permission. -/
def State.frontHolders (s : State M FS V R) : Set CallId :=
  {i | ∃ f, s.frames i = some f ∧ f.pc.holdsFront = true}

/-- Whether the `FRONT_BIT` of a task is set, and the call of the task has not
yet returned from its wait. -/
def State.isSignalled (s : State M FS V R) (t : Task V) : Bool :=
  match s.frames t.state with
  | none => false
  | some f => f.pc.isWaiting && f.taskState.isFront

/-- Front permission is in one place, or nowhere when `front_locked` is not
set. -/
structure State.Conserved (s : State M FS V R) : Prop where
  count : s.frontHolders.encard +
      (s.mutexExclusive.queue.countP s.isSignalled : ℕ) =
    if s.mutexExclusive.frontLocked then 1 else 0
  front_head : ∀ t ∈ s.mutexExclusive.queue, ∀ f,
    s.frames t.state = some f → f.taskState.isFront = true →
      s.mutexExclusive.queue.head? = some t
  exclusive : ∀ i ∈ s.frontHolders, ∀ j ∈ s.frontHolders, i = j

theorem holds_stage (t : TaskState) (pc : Pc V R) :
    (pc.stage t).holds = pc.holdsFront := by
  cases pc <;> rfl

theorem isTold_stage (t : TaskState) (pc : Pc V R) :
    (pc.stage t).isTold = (pc.isWaiting && t.isFront) := by
  cases pc <;> try rfl
  all_goals
    cases hf : t.isFront <;>
      simp [Pc.stage, TaskState.signal, hf, Stage.isTold, Pc.isWaiting]

section Conserved

variable {l : Line CallId V}

theorem Refines.frontHolders (h : Refines log s l) :
    s.frontHolders = l.holders := by
  ext i
  show (∃ f, s.frames i = some f ∧ f.pc.holdsFront = true) ↔
    (l.stage i).holds = true
  rw [← h.stage_eq i]
  constructor
  · rintro ⟨f, hf, hholds⟩
    rwa [stage_of_frame hf, holds_stage]
  · intro hholds
    cases hf : s.frames i with
    | none => simp [State.stage, hf, Stage.holds] at hholds
    | some f => exact ⟨f, rfl, by rwa [stage_of_frame hf, holds_stage] at hholds⟩

theorem Refines.isSignalled (h : Refines log s l) (t : Task V) :
    s.isSignalled t = (l.stage t.state).isTold := by
  rw [← h.stage_eq]
  unfold State.isSignalled State.stage
  cases s.frames t.state with
  | none => rfl
  | some f => exact (isTold_stage f.taskState f.pc).symm

theorem Refines.countP_isSignalled (h : Refines log s l) :
    s.mutexExclusive.queue.countP s.isSignalled =
      l.ids.countP fun i => (l.stage i).isTold := by
  rw [← h.ids, List.countP_map]
  exact List.countP_congr fun t _ => by rw [h.isSignalled t]; rfl

theorem Refines.frontLocked (h : Refines log s l) :
    s.mutexExclusive.frontLocked =
      (l.baton.stage.holds || l.baton.stage.isTold) := by
  rw [Bool.eq_iff_iff, h.locked]
  rcases l.baton with _ | f | f | ⟨j, v⟩ | j <;>
    simp [Baton.stage, Stage.holds, Stage.isTold]

/-- The task of the call at the head of the line is the head of the queue. -/
theorem Refines.head_of_ids (h : Refines log s l) {t : Task V}
    (ht : t ∈ s.mutexExclusive.queue) (hhead : l.ids.head? = some t.state) :
    s.mutexExclusive.queue.head? = some t := by
  obtain ⟨t', rest, hq, hstate⟩ := h.head hhead
  have hnodup := l.nodup_ids
  rw [← h.ids] at hnodup
  have heq := List.inj_on_of_nodup_map hnodup (by simp [hq]) ht hstate
  rw [hq, heq]
  rfl

theorem Refines.conserved (h : Refines log s l) : s.Conserved where
  count := by
    rw [h.frontHolders, h.countP_isSignalled, h.frontLocked]
    exact l.one_place
  front_head := by
    intro t ht f hf hfront
    have hids : t.state ∈ l.ids := h.mem_ids ht
    have hstage := (h.frames t.state f hf).stage
    refine h.head_of_ids ht ?_
    rcases (l.mem_ids_iff_stage t.state).mp hids with ⟨x, hx⟩ | ⟨p, hp⟩
    · have hsignal := signal_of_stage (hstage.trans hx)
      rw [signal_of_front hfront] at hsignal
      exact ((l.stage_eq_signalled _ _).mp (hsignal ▸ hx)).2
    · exact ((l.stage_eq_called _ _).mp hp).2
  exclusive := by
    intro i hi j hj
    rw [h.frontHolders] at hi hj
    exact l.holds_unique hi hj

end Conserved

/-- Conservation of front permission, in every state that matched calls
reach. -/
theorem permission_conserved (h : Run cfg frontState data acts log s) :
    s.Conserved := by
  obtain ⟨l, -, hR⟩ := h.refines
  exact hR.conserved

/-- Call 0 is in its callback while calls 1 and 2 push.  It pops the value of
call 1, returns, and wakes call 1. -/
def handOverRun : List (Action Unit Nat Nat Nat) :=
  [.call 0 ⟨0, 1, .lockAndProcess 10⟩, .step 0, .step 0, .step 0, .step 0,
    .callback 0 .unlocked,
    .call 1 ⟨1, 1, .lockAndProcess 20⟩, .step 1, .step 1, .step 1, .step 1,
    .step 1,
    .call 2 ⟨2, 1, .lockAndProcess 30⟩, .step 2, .step 2, .step 2, .step 2,
    .step 2,
    .callback 0 .endUnlocked, .step 0, .callback 0 .pop,
    .callback 0 (.ret 5), .step 0, .step 0, .step 0]

/-- After `handOverRun` no call has front permission, and the task of call 1
has it. -/
theorem permission_conserved_handOver :
    State.Conserved ((run ⟨.default, false⟩ 0 (fun _ => ())
      handOverRun).get (by decide)).1 :=
  permission_conserved (Run.of_run (by decide))

/-! ## The unchecked pop -/

/-- Whether the task of a call is in the queue. -/
def Pc.isQueued : Pc V R → Bool
  | .wait _ => true
  | .asleep _ => true
  | .relock _ => true
  | .testFront _ => true
  | .popFront _ _ => true
  | _ => false

/-- The queue holds the tasks of the calls between their push and their pop,
and a call that has returned from its wait finds its own task in front. -/
structure State.PopOk (log : List (Event V R)) (s : State M FS V R) :
    Prop where
  head : ∀ i f g processingPanicked, s.frames i = some f →
    f.pc = .popFront g processingPanicked →
      ∃ t rest, s.mutexExclusive.queue = t :: rest ∧ t.state = i
  defined : ∀ i f g, s.frames i = some f → f.pc ≠ .undefined g
  nodup : (s.mutexExclusive.queue.map Task.state).Nodup
  mem_log : ∀ i, i ∈ s.mutexExclusive.queue.map Task.state ↔
    (∃ v, .push i v ∈ log) ∧ .popFront i ∉ log
  mem_pc : ∀ i, i ∈ s.mutexExclusive.queue.map Task.state ↔
    ∃ f, s.frames i = some f ∧ f.pc.isQueued = true
  value : ∀ t ∈ s.mutexExclusive.queue, ∃ v, .push t.state v ∈ log ∧
    (t.value = some v ∨
      t.value = none ∧ ∃ j, j ≠ t.state ∧ .pop j t.state v ∈ log)

section PopOk

variable {l : Line CallId V}

theorem isQueued_iff_stage {t : TaskState} {pc : Pc V R} :
    pc.isQueued = true ↔
      (∃ x, pc.stage t = .waiting x) ∨ ∃ p, pc.stage t = .called p := by
  cases pc <;> simp [Pc.isQueued, Pc.stage]

theorem Refines.mem_ids_iff_pc (h : Refines log s l) (i : CallId) :
    i ∈ l.ids ↔ ∃ f, s.frames i = some f ∧ f.pc.isQueued = true := by
  rw [l.mem_ids_iff_stage, ← h.stage_eq i]
  constructor
  · intro hstage
    cases hf : s.frames i with
    | none => simp [State.stage, hf] at hstage
    | some f =>
        rw [stage_of_frame hf] at hstage
        exact ⟨f, rfl, isQueued_iff_stage.mpr hstage⟩
  · rintro ⟨f, hf, hqueued⟩
    rw [stage_of_frame hf]
    exact isQueued_iff_stage.mp hqueued

/-- The people in the line have pushed and have not popped. -/
theorem Refines.mem_ids_iff_log (h : Refines log s l) (i : CallId) :
    i ∈ l.ids ↔ (∃ v, .push i v ∈ log) ∧ .popFront i ∉ log := by
  have hflip : ∀ {v w : V}, .flip i v ∈ log → .push i w ∉ log := by
    intro v w hf hp
    have heq := h.history.arrival_unique hf hp rfl rfl rfl
    cases heq
  constructor
  · intro hi
    have hacq : i ∉ acquisitions log := by
      rw [h.history.acquired]
      exact fun hacq => l.not_mem_ids_of_acquired hacq hi
    rw [mem_acquisitions, not_or] at hacq
    refine ⟨?_, hacq.2⟩
    obtain ⟨⟨j, v⟩, harr, rfl⟩ := List.mem_map.mp (l.mem_arrivals_of_ids hi)
    rw [← h.history.arrivals, mem_arrivals] at harr
    rcases harr with hf | hp
    · exact absurd ⟨v, hf⟩ hacq.1
    · exact ⟨v, hp⟩
  · rintro ⟨⟨v, hpush⟩, hpop⟩
    have harr : i ∈ l.arrivals.map Prod.fst := by
      rw [← h.history.arrivals]
      exact List.mem_map_of_mem (mem_arrivals.mpr (.inr hpush))
    rw [← l.acquired_append_ids, List.mem_append] at harr
    refine harr.resolve_left ?_
    rw [← h.history.acquired, mem_acquisitions]
    rintro (⟨w, hf⟩ | hp)
    · exact hflip hf hpush
    · exact hpop hp

/-- Somebody in the line has pushed the value that it arrived with. -/
theorem Refines.push_of_arrival (h : Refines log s l) {i : CallId} {v : V}
    (hi : i ∈ l.ids) (harr : (i, v) ∈ l.arrivals) : .push i v ∈ log := by
  obtain ⟨⟨w, hpush⟩, -⟩ := (h.mem_ids_iff_log i).mp hi
  rw [← h.history.arrivals, mem_arrivals] at harr
  rcases harr with hf | hp
  · have heq := h.history.arrival_unique hf hpush rfl rfl rfl
    cases heq
  · exact hp

/-- The task of a call in the line has the value of the call, or a handle of
another call has taken it. -/
theorem Refines.task_value (h : Refines log s l) {t : Task V}
    (ht : t ∈ s.mutexExclusive.queue) : ∃ v, .push t.state v ∈ log ∧
      (t.value = some v ∨
        t.value = none ∧ ∃ j, j ≠ t.state ∧ .pop j t.state v ∈ log) := by
  have hids := h.mem_ids ht
  cases hvalue : t.value with
  | none =>
      obtain ⟨j, v, hj, hpop, hr⟩ := h.pop_of_merged (h.mem_merged ht hvalue)
      have harr : (t.state, v) ∈ l.arrivals :=
        l.taken_sublist.subset (List.mem_map_of_mem hr)
      exact ⟨v, h.push_of_arrival hids harr, .inr ⟨rfl, j, hj, hpop⟩⟩
  | some v =>
      have hp : (t.state, v) ∈ l.pending := by
        simpa [Line.slots, hvalue] using h.mem_slots ht
      have harr : (t.state, v) ∈ l.arrivals := l.kept.subset (by simp [hp])
      exact ⟨v, h.push_of_arrival hids harr, .inl rfl⟩

theorem Refines.popOk (h : Refines log s l) : s.PopOk log where
  head := by
    intro i f g processingPanicked hf hpc
    have hstage := (h.frames i f hf).stage
    rw [hpc] at hstage
    exact h.head ((l.stage_eq_called i _).mp hstage.symm).2
  defined := by
    intro i f g hf hpc
    have hdefined := (h.frames i f hf).defined
    rw [hpc] at hdefined
    cases hdefined
  nodup := h.ids ▸ l.nodup_ids
  mem_log := fun i => h.ids ▸ h.mem_ids_iff_log i
  mem_pc := fun i => h.ids ▸ h.mem_ids_iff_pc i
  value := fun _ ht => h.task_value ht

end PopOk

/-- The unchecked pop of `try_wait_until_at_front` is right in every state that
matched calls reach. -/
theorem unchecked_pop_ok (h : Run cfg frontState data acts log s) :
    s.PopOk log := by
  obtain ⟨l, -, hR⟩ := h.refines
  exact hR.popOk

/-- After `handOverRun`, call 1 returns from its wait and is about to pop. -/
theorem unchecked_pop_ok_handOver :
    State.PopOk
      ((run ⟨.default, false⟩ 0 (fun _ => ())
        (handOverRun ++ [.step 1, .step 1])).get (by decide)).2
      ((run ⟨.default, false⟩ 0 (fun _ => ())
        (handOverRun ++ [.step 1, .step 1])).get (by decide)).1 :=
  unchecked_pop_ok (Run.of_run (by decide))

/-! ## Pinning -/

/-- Whether a call is between the start and the end of its callback. -/
def Pc.inCallback : Pc V R → Bool
  | .callback _ => true
  | .unlocked _ => true
  | .reLock _ => true
  | _ => false

/-- Call `i` was started and has neither returned nor unwound. -/
def State.IsLive (s : State M FS V R) (i : CallId) : Prop :=
  ∃ f, s.frames i = some f ∧ f.pc.isLive = true

/-- The callback of call `i` has started and has not ended. -/
def State.InSpan (s : State M FS V R) (i : CallId) : Prop :=
  ∃ f, s.frames i = some f ∧ f.pc.inCallback = true

section Pinning

variable {l l' : Line CallId V} {i j : CallId}

theorem serving_of_inCallback {t : TaskState} {pc : Pc V R}
    (h : pc.inCallback = true) : pc.stage t = .serving := by
  cases pc <;> first | rfl | cases h

theorem inCallback_notifyOne (pc : Pc V R) :
    pc.notifyOne.inCallback = pc.inCallback := by
  cases pc <;> rfl

theorem State.At.inSpan {f : Frame V R} {pc : Pc V R} (hat : s.At i f pc)
    (h : pc.inCallback = true) : s.InSpan i :=
  ⟨f, hat.frame, hat.pc ▸ h⟩

theorem State.At.not_inSpan {f : Frame V R} {pc : Pc V R} (hat : s.At i f pc)
    (h : pc.inCallback = false) : ¬ s.InSpan i := by
  rintro ⟨f', hf', hpc⟩
  obtain rfl : f = f' := Option.some.inj (hat.frame.symm.trans hf')
  rw [hat.pc, h] at hpc
  cases hpc

theorem Transition.inSpan_self {a : Action M FS V R} {evs : List (Event V R)}
    (ht : Transition cfg s a s' evs) (hslots : s.SlotsOk)
    (hi : a.call? = some i) (hret : ∀ r, a ≠ .callback i (.ret r))
    (hunwind : a ≠ .callback i .unwind) (h : s.InSpan i) : s'.InSpan i := by
  cases ht <;> cases hi
  case ret => exact absurd rfl (hret _)
  case unwind => exact absurd rfl hunwind
  case uninit hslot hat => exact (hslots.not_uninit hat hslot).elim
  case callProcess hnew =>
    obtain ⟨f, hf, -⟩ := h
    rw [hnew] at hf
    cases hf
  case callOther hnew =>
    obtain ⟨f, hf, -⟩ := h
    rw [hnew] at hf
    cases hf
  case spuriousWake hpc hframe =>
    obtain ⟨f, hf, hcallback⟩ := h
    rw [hframe, Option.some.injEq] at hf
    rw [← hf, hpc] at hcallback
    cases hcallback
  all_goals
    first
    | exact h
    | exact ⟨_, Function.update_self _ _ _, rfl⟩
    | (rename_i hat; exact absurd h (hat.not_inSpan rfl))

/-- A callback goes on until it returns or unwinds. -/
theorem Transition.inSpan {a : Action M FS V R} {evs : List (Event V R)}
    (ht : Transition cfg s a s' evs) (hslots : s.SlotsOk)
    (hret : ∀ r, a ≠ .callback i (.ret r)) (hunwind : a ≠ .callback i .unwind)
    (h : s.InSpan i) : s'.InSpan i := by
  by_cases hi : a.call? = some i
  · exact ht.inSpan_self hslots hi hret hunwind h
  · obtain ⟨f, hf, hpc⟩ := h
    rcases ht.other hi with hsame | ⟨wake, hwoken⟩
    · exact ⟨f, hsame.trans hf, hpc⟩
    · refine ⟨f.wake wake, by rw [hwoken, hf]; rfl, ?_⟩
      exact (inCallback_notifyOne f.pc).trans hpc

theorem isLive_of_isQueued {pc : Pc V R} (h : pc.isQueued = true) :
    pc.isLive = true := by
  cases pc <;> first | rfl | cases h

theorem Refines.baton_of_inSpan (h : Refines log s l) (hj : s.InSpan j) :
    l.baton = .serving j := by
  obtain ⟨f, hf, hpc⟩ := hj
  rw [← l.stage_eq_serving, ← (h.frames j f hf).stage]
  exact serving_of_inCallback hpc

theorem Refines.isLive_of_ids (h : Refines log s l) (hi : i ∈ l.ids) :
    s.IsLive i := by
  obtain ⟨f, hf, hqueued⟩ := (h.mem_ids_iff_pc i).mp hi
  exact ⟨f, hf, isLive_of_isQueued hqueued⟩

/-- Nobody acquires front permission while a callback runs, so a task that is
in the queue stays there. -/
theorem Refines.ids_of_span {log₂ : List (Event V R)}
    (h : Refines log s l) (h' : Refines (log ++ log₂) s' l')
    (hj : s.InSpan j) (hj' : s'.InSpan j) (hi : i ∈ l.ids) : i ∈ l'.ids := by
  have hacq : l'.acquired = l.acquired ++ acquisitions log₂ := by
    rw [← h'.history.acquired, ← h.history.acquired]
    exact List.filterMap_append
  have harr : i ∈ l'.arrivals.map Prod.fst := by
    have hold := l.mem_arrivals_of_ids hi
    rw [← h.history.arrivals] at hold
    rw [← h'.history.arrivals, arrivals, List.filterMap_append,
      List.map_append]
    exact List.mem_append_left _ hold
  -- the last acquisition is by `j` at both moments
  have hmem : j ∈ l.acquired :=
    l.mem_acquired_of_person (by rw [h.baton_of_inSpan hj]; rfl)
  have hlast : l'.acquired.getLast? = some j :=
    l'.last j (by rw [h'.baton_of_inSpan hj']; rfl)
  have hnone : acquisitions log₂ = [] := by
    by_contra hne
    have hin : j ∈ acquisitions log₂ := by
      rw [hacq, List.getLast?_append_of_ne_nil _ hne] at hlast
      exact List.mem_of_getLast? hlast
    have hnodup := l'.nodup_acquired
    rw [hacq] at hnodup
    exact (List.nodup_append.mp hnodup).2.2 j hmem j hin rfl
  rw [hnone, List.append_nil] at hacq
  rw [← l'.acquired_append_ids, List.mem_append, hacq] at harr
  exact harr.resolve_left fun hin => l.not_mem_ids_of_acquired hin hi

end Pinning

/-- A call does not leave `process` while its task is in the queue, nor while
the callback runs whose handle has popped its value.  A task that is in the
queue while a callback runs is there as long as the callback runs. -/
theorem stack_pinned {acts₂ : List (Action M FS V R)}
    {log₂ : List (Event V R)} (h : Run cfg frontState data acts log s)
    (h₂ : (machine M FS V R cfg).Exec (fun _ a => a.Matched) s acts₂ log₂
      s') :
    (∀ i ∈ s.mutexExclusive.queue.map Task.state, s.IsLive i) ∧
      (∀ i j v, .pop j i v ∈ log → s.InSpan j → s.IsLive i) ∧
      ∀ i j, i ∈ s.mutexExclusive.queue.map Task.state → s.InSpan j →
        s'.InSpan j →
          i ∈ s'.mutexExclusive.queue.map Task.state ∧ s'.IsLive i := by
  obtain ⟨l, -, hR⟩ := h.refines
  obtain ⟨l', -, hR'⟩ := Run.refines (Machine.Exec.trans h h₂)
  refine ⟨?_, ?_, ?_⟩
  · intro i hi
    rw [hR.ids] at hi
    exact hR.isLive_of_ids hi
  · intro i j v hpop hj
    have hbaton := hR.baton_of_inSpan hj
    rcases (l.served j hbaton).2 _ (hR.taken_of_pop hpop) rfl with
      hself | hmerged
    · obtain ⟨f, hf, hpc⟩ := hj
      obtain rfl : i = j := hself
      refine ⟨f, hf, ?_⟩
      cases hc : f.pc <;> rw [hc] at hpc <;> first | rfl | cases hpc
    · exact hR.isLive_of_ids (List.mem_append_left _ hmerged)
  · intro i j hi hj hj'
    rw [hR.ids] at hi
    have hi' := hR.ids_of_span hR' hj hj' hi
    rw [hR'.ids]
    exact ⟨hi', hR'.isLive_of_ids hi'⟩

/-- Call 1, which pushed while the callback of call 0 was in `unlocked`, is in
`process` when that callback has popped its value. -/
theorem stack_pinned_handOver :
    ((run ⟨.default, false⟩ 0 (fun _ => ())
      (handOverRun.take 21)).get (by decide)).1.IsLive 1 :=
  (stack_pinned (Run.of_run (by decide)) .nil).2.1 1 0 20 (by decide)
    ⟨⟨⟨0, 1, .lockAndProcess 10⟩, .new, .callback ⟨some 1, true, 1⟩⟩,
      by decide, rfl⟩

end ContentionQueue
