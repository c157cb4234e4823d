import ContentionQueue.Service

/-!
# After a callback has unwound

A callback that unwinds leaves the guard of the mutex in `maybe_uninit_guard`,
where nothing drops it.  This module says what the queue does from then on.

`State.Abandoned` is the state of the queue afterwards: the registered mutex
is locked, its guard is left behind, and the call waits for that mutex in its
`Err` branch.  No step changes this, and no step touches the shared data any
more (`Transition.abandoned`).  `unwind_stops_queue` is the result: after an
unwind of a callback nobody arrives, nobody acquires front permission and
nobody that arrived ever leaves.
-/

namespace ContentionQueue

open Machines State HandOff

variable {M FS V R : Type} {cfg : Config} {s s' : State M FS V R}
  {a : Action M FS V R} {evs log : List (Event V R)}
  {acts : List (Action M FS V R)} {frontState : FS} {data : Addr → M}
  {i : CallId}

/-- The callback of call `i` has unwound, and the guard of the registered mutex
is left behind. -/
structure State.Abandoned (s : State M FS V R) (i : CallId) : Prop where
  leaked : ∃ g : Addr, s.mutexAddress = g ∧ s.guardAt g = some (.leaked i)
  waits : ∃ f, s.frames i = some f ∧ f.pc = .errLock .task

/-- Whether an event is about a call that does not get to the shared data: it
passes `assert_mutex_good`, or it is turned away. -/
def Event.isOutside : Event V R → Bool
  | .mutexGood _ => true
  | .leave _ (.unwound .mutexMismatch) => true
  | .leave _ (.unwound .poisonedLock) => true
  | _ => false

section Abandoned

variable {f : Frame V R} {pc : Pc V R}

/-- A mutex whose guard is left behind is not locked by a call. -/
theorem State.Abandoned.not_inside (h : s.Abandoned i) (hb : Basics s)
    {j : CallId} : ¬ s.Inside j := by
  rintro ⟨g, hg, haddr⟩
  obtain ⟨g', haddr', hleak⟩ := h.leaked
  obtain rfl : g = g' := PNat.coe_injective (haddr.symm.trans haddr')
  have hcall := (hb.owners j g).mpr hg
  rw [hleak] at hcall
  cases hcall

/-- A mutex whose guard is left behind is not free. -/
theorem State.Abandoned.not_free (h : s.Abandoned i) (hb : Basics s)
    {j : CallId} (hf : s.frames j = some f)
    (hreg : f.pc.isRegistered = true) :
    (s.mutexes f.call.mutex).guard ≠ none := by
  obtain ⟨g, haddr, hleak⟩ := h.leaked
  have hsame := ok_registered (hb.locals j f hf) hreg
  obtain rfl : f.call.mutex = g :=
    PNat.coe_injective (hsame.symm.trans haddr)
  intro hfree
  rw [State.guardAt, hfree] at hleak
  cases hleak

/-- The call has not passed the front on, so no callback runs. -/
theorem State.Abandoned.not_inSpan {l : Line CallId V} (h : s.Abandoned i)
    (hR : Refines log s l) {j : CallId} : ¬ s.InSpan j := by
  intro hj
  obtain ⟨f, hf, hpc⟩ := h.waits
  have hstage : l.stage i = .front none := by
    rw [← (hR.frames i f hf).stage, hpc]
    rfl
  have hfront := (l.stage_eq_front i none).mp hstage
  rw [hR.baton_of_inSpan hj] at hfront
  cases hfront

/-- No step gives a guard back that is left behind, unless the leak is
released. -/
theorem Transition.leaked_stays (ht : Transition cfg s a s' evs)
    (hcfg : cfg.leakReleased = false) (hb : Basics s) {g : Addr}
    (h : s.guardAt g = some (.leaked i)) :
    s'.guardAt g = some (.leaked i) := by
  have hother : ∀ {b : Addr} {x : Option Place},
      s.guardAt b ≠ some (.leaked i) →
        Function.update s.guardAt b x g = some (.leaked i) := by
    intro b x hb
    have hgb : g ≠ b := by
      rintro rfl
      exact hb h
    rwa [Function.update_of_ne hgb]
  have hcall : ∀ {j f pc b}, s.At j f pc → pc.guard? = some b →
      s.guardAt b ≠ some (.leaked i) := by
    intro j f pc b hat hg hleak
    rw [(hb.owners j b).mpr (hat.guardOf.trans hg)] at hleak
    cases hleak
  have hplace : ∀ {b : Addr} {p : Option Place}, (s.mutexes b).guard = p →
      p ≠ some (.leaked i) → s.guardAt b ≠ some (.leaked i) := by
    rintro b p rfl hp
    exact hp
  cases ht
  -- a mutex that is free, or whose guard user code has
  case callProcess hguard =>
    simpa using hother (hplace hguard (by simp))
  case userLock hfree => simpa using hother (hplace hfree (by simp))
  case userUnlock hguard => simpa using hother (hplace hguard (by simp))
  case lock hfree _ => simpa using hother (hplace hfree (by simp))
  case lockPoisoned hfree _ _ => simpa using hother (hplace hfree (by simp))
  case relock hfree => simpa using hother (hplace hfree (by simp))
  case reLock hfree => simpa using hother (hplace hfree (by simp))
  case errLock hfree => simpa using hother (hplace hfree (by simp))
  case queryLock hfree => simpa using hother (hplace hfree (by simp))
  -- the guard of a call
  case mutexMismatch hat _ => simpa using hother (hcall hat rfl)
  case wait hat => simpa using hother (hcall hat rfl)
  case queuePoisoned hat _ _ => simpa using hother (hcall hat rfl)
  case mutexPoisoned hat _ _ => simpa using hother (hcall hat rfl)
  case returnProcess hat _ => simpa using hother (hcall hat rfl)
  case returnOther hat _ => simpa using hother (hcall hat rfl)
  case resumeUnwind hat => simpa using hother (hcall hat rfl)
  case queryReturn hat => simpa using hother (hcall hat rfl)
  case unlocked hin => simpa using hother (hcall hin.loc hin.guard)
  case unwind hin => simpa using hother (hcall hin.loc hin.guard)
  case releaseLeaked hleak _ =>
    rw [hcfg] at hleak
    cases hleak
  -- nobody's guard
  all_goals simpa using h

/-- Every step leaves the queue as it is, and it shows only what calls do
before they get to the shared data. -/
theorem Transition.abandoned {l : Line CallId V}
    (ht : Transition cfg s a s' evs) (hcfg : cfg.leakReleased = false)
    (hR : Refines log s l) (h : s.Abandoned i) :
    s'.Abandoned i ∧ s'.mutexExclusive = s.mutexExclusive ∧
      s'.frontExclusive = s.frontExclusive ∧
        ∀ e ∈ evs, e.isOutside = true := by
  have hb := hR.basics
  obtain ⟨g, haddr, hleak⟩ := h.leaked
  obtain ⟨fi, hfi, hwaits⟩ := h.waits
  have hleak' := ht.leaked_stays hcfg hb hleak
  have hguard : ∀ {j f pc b}, s.At j f pc → pc.isRegistered = true →
      pc.guard? = some b → False := fun hat hreg hg =>
    h.not_inside hb (hb.inside hat.frame (by rw [hat.pc, hreg])
      (by rw [hat.pc, hg]))
  have hfree : ∀ {j f pc}, s.At j f pc → pc.isRegistered = true →
      (s.mutexes f.call.mutex).guard = none → False := fun hat hreg hnone =>
    h.not_free hb hat.frame (by rw [hat.pc, hreg]) hnone
  have hne : a.call? ≠ some i := by
    intro hi
    cases ht <;> cases hi
    case callProcess hnew => cases hnew.symm.trans hfi
    case callOther hnew => cases hnew.symm.trans hfi
    case spuriousWake hasleep hframe =>
      obtain rfl := Option.some.inj (hframe.symm.trans hfi)
      cases hasleep.symm.trans hwaits
    case errLock hnone hat => exact hfree hat rfl hnone
    all_goals
      rename_i hat
      cases (hat.pc_eq hfi).symm.trans hwaits
  have hwaits' : ∃ f, s'.frames i = some f ∧ f.pc = .errLock .task := by
    obtain ⟨f', hf', -, hsame | hwoken⟩ := ht.frame_after hne hfi
    · exact ⟨f', hf', hsame.trans hwaits⟩
    · exact ⟨f', hf', by rw [hwoken, hwaits]; rfl⟩
  have hkeep : s'.mutexAddress = s.mutexAddress →
      s'.mutexExclusive = s.mutexExclusive →
      s'.frontExclusive = s.frontExclusive →
      (∀ e ∈ evs, e.isOutside = true) →
      s'.Abandoned i ∧ s'.mutexExclusive = s.mutexExclusive ∧
        s'.frontExclusive = s.frontExclusive ∧
          ∀ e ∈ evs, e.isOutside = true :=
    fun hm hx hfs hevs =>
      ⟨⟨⟨g, hm.trans haddr, hleak'⟩, hwaits'⟩, hx, hfs, hevs⟩
  have hregister : ∀ {b : Addr}, s.mutexAddress = 0 ∨ s.mutexAddress = b →
      (b : Nat) = s.mutexAddress := by
    rintro b (hzero | hsame)
    · exact absurd (haddr.symm.trans hzero) g.pos.ne'
    · exact hsame.symm
  cases ht
  case mutexGood hgood =>
    exact hkeep (hregister hgood) rfl rfl (by simp [Event.isOutside])
  case queryGood hgood =>
    exact hkeep (hregister hgood) rfl rfl (by simp [Event.isOutside])
  case lockPoisoned => exact hkeep rfl rfl rfl (by simp [Event.isOutside])
  case mutexMismatch => exact hkeep rfl rfl rfl (by simp [Event.isOutside])
  case queryMismatch => exact hkeep rfl rfl rfl (by simp [Event.isOutside])
  -- a call that has a guard of the registered mutex, or waits for it
  case flip hat _ | contended hat _ | testFront hat _ | testNotFront hat _ |
      popFront hat _ | popNothing hat _ | resultProcess hat _ |
      resultElsewhere hat _ | resultPanicked hat _ | startCallback hat _ |
      returnProcess hat _ | returnOther hat _ | queryClear hat _ |
      queryRead hat _ => exact (hguard hat rfl rfl).elim
  case queuePoisoned hat _ _ | mutexPoisoned hat _ _ =>
    exact (hguard hat rfl rfl).elim
  case push hat | wait hat | handOff hat | errHandOff hat |
      resumeUnwind hat | queryReturn hat => exact (hguard hat rfl rfl).elim
  case relock hat hnone => exact (h.not_free hb hat.frame
    (by rw [hat.pc]; rfl) ((hb.locals.at hat).1 ▸ hnone)).elim
  case reLock hat hnone | errLock hat hnone | queryLock hat hnone =>
    exact (hfree hat rfl hnone).elim
  case peek hin _ | peekPanic hin _ | pop hin _ | popPanic hin _ |
      popNone hin _ => exact (hguard hin.loc rfl hin.guard).elim
  case isQueuePoisoned hin | mutexState hin | frontState hin |
      clearQueuePoison hin | unlocked hin | ret hin | unwind hin =>
    exact (hguard hin.loc rfl hin.guard).elim
  -- a call in its callback
  case frontUnlocked hat => exact (h.not_inSpan hR (hat.inSpan rfl)).elim
  case uninit hat hslot => exact (hb.slots.not_uninit hat hslot).elim
  -- nothing that the queue shares
  all_goals exact hkeep rfl rfl rfl (by simp)

/-- The unwind of a callback leaves the queue behind. -/
theorem abandoned_of_unwind {h : QueueHandle} {g : Addr} (hb : Basics s)
    (hin : s.InCallback i f h g) :
    ((s.setMutex g ((s.mutexes g).move (.leaked i))).goto i f
      (.errLock .task)).Abandoned i := by
  have hok := hb.locals.at hin.loc
  obtain rfl : g = f.call.mutex := hok.1 g hin.guard
  refine ⟨⟨f.call.mutex, hok.2.1, ?_⟩, _, Function.update_self _ _ _, rfl⟩
  simp [State.guardAt, Mutex.move]

end Abandoned

/-- The call whose callback has unwound is still served. -/
theorem State.Abandoned.served (h : s.Abandoned i) :
    s.serviceOf i ≠ .idle := by
  obtain ⟨f, hf, hpc⟩ := h.waits
  rw [serviceOf_of_frame hf, hpc]
  simp [Pc.service]

/-- Events outside the shared data are no acquisitions and no arrivals. -/
theorem acquisitions_of_outside (h : ∀ e ∈ log, e.isOutside = true) :
    acquisitions log = [] := by
  rw [acquisitions, List.filterMap_eq_nil_iff]
  intro e he
  have hout := h e he
  cases e <;> first | rfl | cases hout

/-- After the unwind of a callback the queue has stopped, when the guard that
the unwind left behind stays where it is.  The calls that still show something
pass `assert_mutex_good` or are turned away.  Nobody arrives, acquires front
permission or leaves, and the shared data stay as they are. -/
theorem unwind_stops_queue {log₁ log₂ : List (Event V R)}
    (hcfg : cfg.leakReleased = false)
    (h : Run cfg frontState data acts (log₁ ++ .callbackUnwind i :: log₂) s) :
    (∀ e ∈ log₂, e.isOutside = true) ∧
      departures (log₁ ++ .callbackUnwind i :: log₂) = departures log₁ ∧
      (∃ f, s.frames i = some f ∧ f.pc = .errLock .task) ∧
      ∃ acts₁ s₁, Run cfg frontState data acts₁ log₁ s₁ ∧
        acts₁ <+: acts ∧ s.mutexExclusive = s₁.mutexExclusive ∧
        s.frontExclusive = s₁.frontExclusive := by
  obtain ⟨acts₁, s₁, a, s₂, acts₂, run₁, hmatched, hstep, run₂, rfl⟩ :=
    Machine.Exec.split
      (fun hs => (transition_of_step hs : Transition cfg _ _ _ _).evs_cases) h
  have hb₂ : Run cfg frontState data (acts₁ ++ [a])
      (log₁ ++ [.callbackUnwind i]) s₂ := run₁.snoc hmatched hstep
  -- what the unwind leaves, and that the rest of the run keeps it
  have hstart : s₂.Abandoned i ∧ s₂.mutexExclusive = s₁.mutexExclusive ∧
      s₂.frontExclusive = s₁.frontExclusive ∧ s₁.InSpan i := by
    cases transition_of_step hstep with
    | unwind hin =>
        exact ⟨abandoned_of_unwind (Run.basics run₁) hin, rfl, rfl,
          _, hin.loc.frame, by rw [hin.loc.pc]; rfl⟩
  obtain ⟨hstart, hx₂, hfs₂, hspan⟩ := hstart
  have hend : s.Abandoned i ∧ s.mutexExclusive = s₂.mutexExclusive ∧
      s.frontExclusive = s₂.frontExclusive ∧
        ∀ e ∈ log₂, e.isOutside = true := by
    clear h
    induction run₂ with
    | nil => exact ⟨hstart, rfl, rfl, by simp⟩
    | snoc run _ hs ih =>
        obtain ⟨ihA, ihx, ihf, ihe⟩ := ih
        obtain ⟨l, -, hR⟩ := Run.refines (Machine.Exec.trans hb₂ run)
        obtain ⟨hA, hx, hfs, he⟩ :=
          (transition_of_step hs).abandoned hcfg hR ihA
        exact ⟨hA, hx.trans ihx, hfs.trans ihf,
          List.forall_mem_append.mpr ⟨ihe, he⟩⟩
  obtain ⟨hend, hx, hfs, hevs⟩ := hend
  refine ⟨hevs, ?_, hend.waits, acts₁, s₁, run₁, List.prefix_append _ _,
    hx.trans hx₂, hfs.trans hfs₂⟩
  have hacq : acquisitions (log₁ ++ .callbackUnwind i :: log₂) =
      acquisitions log₁ := by
    have hnone := acquisitions_of_outside hevs
    rw [acquisitions] at hnone ⊢
    rw [List.filterMap_append, List.filterMap_cons_none rfl, hnone,
      List.append_nil, acquisitions]
  rw [h.acquisitions_of_served hend.served,
    Run.acquisitions_of_served run₁ hspan.served] at hacq
  exact List.append_cancel_right hacq

/-- The callback of call 0 unwinds while call 1 waits for the mutex.  Call 2
passes another mutex. -/
def unwindRun : List (Action Unit Nat Nat Nat) :=
  [.call 0 ⟨0, 1, .lockAndProcess 10⟩, .step 0, .step 0, .step 0, .step 0,
    .call 1 ⟨1, 1, .lockAndProcess 20⟩, .callback 0 .unwind,
    .call 2 ⟨2, 2, .lockAndProcess 30⟩, .step 2, .step 2]

theorem unwind_stops_queue_run :
    let r := (run ⟨.default, false⟩ 0 (fun _ => ()) unwindRun).get (by decide)
    let log₁ : List (Event Nat Nat) :=
      [.mutexGood 0, .flip 0 10, .callback 0 10]
    let log₂ : List (Event Nat Nat) := [.leave 2 (.unwound .mutexMismatch)]
    r.2 = log₁ ++ .callbackUnwind 0 :: log₂ ∧
      (∀ e ∈ log₂, e.isOutside = true) ∧
      departures (log₁ ++ .callbackUnwind 0 :: log₂) = departures log₁ ∧
      (∃ f, r.1.frames 0 = some f ∧ f.pc = .errLock .task) ∧
      ∃ acts₁ s₁, Run ⟨.default, false⟩ 0 (fun _ => ()) acts₁ log₁ s₁ ∧
        acts₁ <+: unwindRun ∧ r.1.mutexExclusive = s₁.mutexExclusive ∧
        r.1.frontExclusive = s₁.frontExclusive :=
  ⟨by decide, unwind_stops_queue rfl (Run.of_run (by decide))⟩

end ContentionQueue
