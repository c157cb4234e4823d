import ContentionQueue.Fold
import ContentionQueue.Lib.Protocol

/-!
# The service of the calls

The queue serves the calls that arrive, one at a time and in the order of
their arrival.

* `Service.Step` is the protocol of the service: a call acquires front
  permission, its callback runs and ends, or an assertion of it fails, and the
  call leaves.  `service_serial` says that the events of every run follow it,
  so no two callbacks overlap, and what a handle shows is shown while its
  callback runs.
* A call leaves when it drops its guard for the last time or, in `process`,
  gives it back to its caller.  From then on it does not touch the queue.
* `departures` are the calls that arrived and have left.
  `departures_in_order` says that they leave in the order in which they
  arrived, and that at most one call has acquired front permission and has not
  left.
* `quiescent_idle` says what is left when every call has ended.
-/

namespace ContentionQueue

open Machines State HandOff

variable {M FS V R : Type} {cfg : Config} {s s' : State M FS V R}
  {a : Action M FS V R} {evs log : List (Event V R)}
  {acts : List (Action M FS V R)} {frontState : FS} {data : Addr → M}

/-! ## The protocol -/

/-- The call that is served, if there is one. -/
inductive Service where
  | idle
  /-- Call `i` has acquired front permission, and its callback has not been
  called. -/
  | front (i : CallId)
  /-- The callback of call `i` runs. -/
  | callback (i : CallId)
  /-- The callback of call `i` has ended, or an assertion of it failed. -/
  | leaving (i : CallId)
  deriving DecidableEq, Repr

namespace Service

def person : Service → Option CallId
  | idle => none
  | front i => some i
  | callback i => some i
  | leaving i => some i

/-- What call `i` sees of the service. -/
def of (k : Service) (i : CallId) : Service :=
  if k.person = some i then k else idle

/-- The steps of the protocol. -/
inductive Step : Service → Event V R → Service → Prop where
  | flip (i v) : Step idle (.flip i v) (front i)
  | popFront (i) : Step idle (.popFront i) (front i)
  | assertFailed (i p v) : Step (front i) (.assertFailed i p v) (leaving i)
  | call (i v) : Step (front i) (.callback i v) (callback i)
  | peek (i v) : Step (callback i) (.peek i v) (callback i)
  | pop (i o v) : Step (callback i) (.pop i o v) (callback i)
  | popNone (i) : Step (callback i) (.popNone i) (callback i)
  | isQueuePoisoned (i b) :
      Step (callback i) (.isQueuePoisoned i b) (callback i)
  | callbackReturn (i r) : Step (callback i) (.callbackReturn i r) (leaving i)
  | callbackUnwind (i) : Step (callback i) (.callbackUnwind i) (leaving i)
  /-- A merged call leaves without a callback. -/
  | leaveMerged (i o) : Step (front i) (.leave i o) idle
  | leave (i o) : Step (leaving i) (.leave i o) idle
  /-- A call leaves that is not served. -/
  | leaveOther (k : Service) (i o) (h : k.person ≠ some i) :
      Step k (.leave i o) k
  | mutexGood (k : Service) (i) : Step k (.mutexGood i) k
  | push (k : Service) (i v) : Step k (.push i v) k

end Service

/-- The protocol of the service. -/
def service (V R : Type) : Protocol Service (Event V R) where
  step := Service.Step

/-- The service of call `i` at a program counter. -/
def Pc.service (i : CallId) : Pc V R → Service
  | .assertQueueGood _ _ => .front i
  | .assertMutexUnpoisoned _ _ => .front i
  | .callback _ => .callback i
  | .unlocked _ => .callback i
  | .reLock _ => .callback i
  | .handOff _ (.processed _) => .leaving i
  | .handOff _ _ => .front i
  | .returning _ (.processed _) => .leaving i
  | .returning _ _ => .front i
  | .errLock _ => .leaving i
  | .errHandOff _ _ => .leaving i
  | .resumeUnwind _ _ => .leaving i
  | _ => .idle

/-- The service of each call. -/
def State.serviceOf (s : State M FS V R) (i : CallId) : Service :=
  match s.frames i with
  | none => .idle
  | some f => f.pc.service i

/-- The calls agree about the service. -/
def State.Serves (s : State M FS V R) (k : Service) : Prop :=
  s.serviceOf = k.of

section Views

@[simp] theorem service_notifyOne (i : CallId) (pc : Pc V R) :
    pc.notifyOne.service i = pc.service i := by
  cases pc <;> rfl

@[simp] theorem service_entry (i : CallId) (m : Method V) :
    (m.entry : Pc V R).service i = .idle := by
  cases m <;> rfl

@[simp] theorem serviceOf_setMutex (s : State M FS V R) (a : Addr)
    (m : Mutex M) : (s.setMutex a m).serviceOf = s.serviceOf := rfl

@[simp] theorem serviceOf_setMutexAddress (s : State M FS V R) (n : Nat) :
    (s.setMutexAddress n).serviceOf = s.serviceOf := rfl

@[simp] theorem serviceOf_setFrontState (s : State M FS V R) (x : FS) :
    (s.setFrontState x).serviceOf = s.serviceOf := rfl

@[simp] theorem serviceOf_setExclusive (s : State M FS V R)
    (x : MutexExclusive V) : (s.setExclusive x).serviceOf = s.serviceOf := rfl

@[simp] theorem serviceOf_setFrame (s : State M FS V R) (i : CallId)
    (f : Frame V R) : (s.setFrame i f).serviceOf =
      Function.update s.serviceOf i (f.pc.service i) := by
  funext j
  rcases eq_or_ne j i with rfl | hj
  · simp [serviceOf]
  · simp [serviceOf, hj]

@[simp] theorem serviceOf_pushFrame (s : State M FS V R) (i : CallId)
    (f : Frame V R) : (s.pushFrame i f).serviceOf =
      Function.update s.serviceOf i (f.pc.service i) :=
  serviceOf_setFrame s i f

@[simp] theorem serviceOf_goto (s : State M FS V R) (i : CallId)
    (f : Frame V R) (pc : Pc V R) : (s.goto i f pc).serviceOf =
      Function.update s.serviceOf i (pc.service i) :=
  serviceOf_setFrame s i { f with pc := pc }

@[simp] theorem serviceOf_finish (s : State M FS V R) (i : CallId)
    (f : Frame V R) (o : Outcome R) : (s.finish i f o).serviceOf =
      Function.update s.serviceOf i .idle :=
  serviceOf_setFrame s i { f with pc := .done o }

@[simp] theorem serviceOf_wakeNext (s : State M FS V R)
    (wake : TaskState → TaskState) :
    (s.wakeNext wake).serviceOf = s.serviceOf := by
  funext i
  unfold serviceOf
  rcases wakeNext_frames s wake i with h | h
  · rw [h]
  · rw [h]
    cases s.frames i with
    | none => rfl
    | some f => exact service_notifyOne i f.pc

theorem serviceOf_of_frame {i : CallId} {f : Frame V R}
    (hf : s.frames i = some f) : s.serviceOf i = f.pc.service i := by
  simp [State.serviceOf, hf]

theorem State.At.serviceOf {i : CallId} {f : Frame V R} {pc : Pc V R}
    (hat : s.At i f pc) : s.serviceOf i = pc.service i := by
  rw [serviceOf_of_frame hat.frame, hat.pc]

theorem service_of_inCallback {i : CallId} {pc : Pc V R}
    (h : pc.inCallback = true) : pc.service i = .callback i := by
  cases pc <;> first | rfl | cases h

end Views

/-! ## One call at a time -/

section Serves

variable {k k' : Service} {i : CallId} {f : Frame V R} {pc pc' : Pc V R}
  {l : Line CallId V}

/-- A call whose callback runs is served. -/
theorem State.InSpan.served {i : CallId} (h : s.InSpan i) :
    s.serviceOf i ≠ .idle := by
  obtain ⟨f, hf, hpc⟩ := h
  rw [serviceOf_of_frame hf, service_of_inCallback hpc]
  simp

theorem Service.of_self (h : k.person = some i) : k.of i = k := if_pos h

theorem Service.of_other (h : k.person ≠ some i) : k.of i = .idle := if_neg h

theorem Service.of_eq (h : k.of i ≠ .idle) :
    k.of i = k ∧ k.person = some i := by
  by_cases hi : k.person = some i
  · exact ⟨of_self hi, hi⟩
  · exact absurd (of_other hi) h

theorem serves_new (frontState : FS) (data : Addr → M) :
    (State.new frontState data : State M FS V R).Serves .idle := by
  funext i
  exact (Service.of_other (by simp [Service.person])).symm

/-- The call that sees itself served is the one that is served. -/
theorem State.Serves.eq (h : s.Serves k) (hat : s.At i f pc)
    (hpc : pc.service i ≠ .idle) : k = pc.service i ∧ k.person = some i := by
  have hof : k.of i = pc.service i := by rw [← h, hat.serviceOf]
  obtain ⟨hself, hperson⟩ := Service.of_eq (hof ▸ hpc)
  exact ⟨hself.symm.trans hof, hperson⟩

/-- A call goes on and is served as before. -/
theorem State.Serves.goto (h : s.Serves k) (hat : s.At i f pc)
    (hview : s'.serviceOf = Function.update s.serviceOf i (pc.service i)) :
    s'.Serves k := by
  have hsame : Function.update s.serviceOf i (pc.service i) = s.serviceOf :=
    Function.update_eq_self_iff.mpr hat.serviceOf.symm
  exact (hview.trans hsame).trans h

/-- The service of call `i` moves on. -/
theorem State.Serves.move (h : s.Serves k)
    (hk : ∀ j, k.person = some j → j = i)
    (hk' : ∀ j, k'.person = some j → j = i)
    (hview : s'.serviceOf = Function.update s.serviceOf i (k'.of i)) :
    s'.Serves k' := by
  funext j
  rw [hview]
  rcases eq_or_ne j i with rfl | hj
  · exact Function.update_self _ _ _
  · rw [Function.update_of_ne hj, h, Service.of_other fun hp => hj (hk j hp),
      Service.of_other fun hp => hj (hk' j hp)]

/-- Whoever is served has front permission outside the queue, or has a
guard. -/
theorem Refines.person_or_inside (h : Refines log s l)
    (hf : s.frames i = some f) (hpc : f.pc.service i ≠ .idle) :
    l.baton.person = some i ∨ s.Inside i := by
  have hstage := (h.frames i f hf).stage
  have hfront : ∀ {v}, f.pc.stage f.taskState = .front v →
      l.baton.person = some i := by
    intro v hv
    rw [(l.stage_eq_front i v).mp (hstage ▸ hv)]
    rfl
  have hserving : f.pc.stage f.taskState = .serving →
      l.baton.person = some i := by
    intro hv
    rw [(l.stage_eq_serving i).mp (hstage ▸ hv)]
    rfl
  have hinside : ∀ {g}, f.pc.isRegistered = true → f.pc.guard? = some g →
      s.Inside i :=
    fun hreg hg => h.basics.inside hf hreg hg
  cases hp : f.pc <;> rw [hp] at hpc hfront hserving hinside <;>
    first
    | exact absurd rfl hpc
    | exact .inl (hfront rfl)
    | exact .inl (hserving rfl)
    | exact .inr (hinside rfl rfl)

/-- Nobody is served when a call with a guard finds that nobody has front
permission outside the queue. -/
theorem Refines.idle (h : Refines log s l) (hs : s.Serves k)
    (hat : s.At i f pc) (hpc : pc.service i = .idle) (hinside : s.Inside i)
    (hnone : l.baton.person = none) : k = .idle := by
  by_contra hk
  obtain ⟨j, hj⟩ : ∃ j, k.person = some j := by
    cases k <;> first | exact absurd rfl hk | exact ⟨_, rfl⟩
  have hof : s.serviceOf j = k := by rw [hs, Service.of_self hj]
  cases hf : s.frames j with
  | none =>
      rw [State.serviceOf, hf] at hof
      exact hk hof.symm
  | some f' =>
      rw [serviceOf_of_frame hf] at hof
      have hserved : f'.pc.service j ≠ .idle := fun hidle =>
        hk (hof.symm.trans hidle)
      rcases h.person_or_inside hf hserved with hperson | hin
      · rw [hnone] at hperson
        cases hperson
      · obtain rfl := h.basics.exclusive hin hinside
        rw [hat.pc_eq hf] at hserved
        exact hserved hpc

/-- A call acquires front permission. -/
theorem Refines.acquire (h : Refines log s l) (hs : s.Serves k)
    (hat : s.At i f pc) (hpc : pc.service i = .idle) (hinside : s.Inside i)
    (hnone : l.baton.person = none) {e : Event V R}
    (hstep : Service.Step .idle e (.front i))
    (hview : s'.serviceOf = Function.update s.serviceOf i (.front i)) :
    ∃ k', (service V R).Run k [e] k' ∧ s'.Serves k' := by
  obtain rfl := h.idle hs hat hpc hinside hnone
  refine ⟨_, .single hstep, hs.move (i := i) ?_ ?_ ?_⟩
  · simp [Service.person]
  · simp [Service.person, eq_comm]
  · rw [hview, Service.of_self rfl]

/-- The service of the call that is served moves on. -/
theorem State.Serves.step (h : s.Serves k) (hat : s.At i f pc)
    (hpc : pc.service i ≠ .idle) {e : Event V R}
    (hstep : Service.Step (pc.service i) e k')
    (hk' : k' = .idle ∨ k'.person = some i)
    (hview : s'.serviceOf = Function.update s.serviceOf i k') :
    ∃ k', (service V R).Run k [e] k' ∧ s'.Serves k' := by
  obtain ⟨hk, hperson⟩ := h.eq hat hpc
  refine ⟨k', .single (hk ▸ hstep), h.move (i := i) ?_ ?_ ?_⟩
  · intro j hj
    rw [hperson, Option.some.injEq] at hj
    exact hj.symm
  · rcases hk' with rfl | hself
    · simp [Service.person]
    · simp [hself, eq_comm]
  · rw [hview]
    rcases hk' with rfl | hself
    · rfl
    · rw [Service.of_self hself]

/-- A call that is not served leaves. -/
theorem State.Serves.leaveOther (h : s.Serves k) (hat : s.At i f pc)
    (hpc : pc.service i = .idle) {outcome : Outcome R}
    (hview : s'.serviceOf = Function.update s.serviceOf i .idle) :
    ∃ k', (service V R).Run k [.leave i outcome] k' ∧ s'.Serves k' := by
  refine ⟨k, .single (.leaveOther k i outcome ?_), ?_⟩
  · intro hperson
    have hof : k.of i = .idle := by rw [← h, hat.serviceOf, hpc]
    rw [Service.of_self hperson] at hof
    rw [hof] at hperson
    cases hperson
  · exact h.goto hat (hpc.symm ▸ hview)

end Serves

/-- The events of every step take the protocol along. -/
theorem Transition.serves {k : Service} {l : Line CallId V}
    (ht : Transition cfg s a s' evs) (hR : Refines log s l)
    (h : s.Serves k) : ∃ k', (service V R).Run k evs k' ∧ s'.Serves k' := by
  have hinside : ∀ {i f pc g}, s.At i f pc → pc.isRegistered = true →
      pc.guard? = some g → s.Inside i := fun hat hreg hg =>
    hR.basics.inside hat.frame (by rw [hat.pc, hreg]) (by rw [hat.pc, hg])
  have hnew : ∀ {i}, s.frames i = none →
      Function.update s.serviceOf i .idle = s.serviceOf := by
    intro i hnone
    rw [Function.update_eq_self_iff, State.serviceOf, hnone]
  cases ht
  -- front permission is acquired
  case flip hat hlocked =>
    have hfree : l.baton = .free := by
      by_contra hbusy
      simp [hR.locked.mpr hbusy] at hlocked
    exact hR.acquire h hat rfl (hinside hat rfl rfl) (by rw [hfree]; rfl)
      (.flip _ _) (by simp [Pc.service])
  case popFront b _ _ hat hpop =>
    have hcalled := (l.stage_eq_called _ b).mp (hR.at hat).stage.symm
    exact hR.acquire h hat rfl (hinside hat rfl rfl) (by rw [hcalled.1]; rfl)
      (.popFront _) (by simp [Pc.service])
  -- the service of a call goes on
  case startCallback hat _ =>
    exact h.step hat (by simp [Pc.service]) (.call _ _) (.inr rfl)
      (by simp [Pc.service])
  case queuePoisoned hat _ _ =>
    exact h.step hat (by simp [Pc.service]) (.assertFailed _ _ _) (.inr rfl)
      (by simp [Pc.service])
  case mutexPoisoned hat _ _ =>
    exact h.step hat (by simp [Pc.service]) (.assertFailed _ _ _) (.inr rfl)
      (by simp [Pc.service])
  case ret hin =>
    exact h.step hin.loc (by simp [Pc.service]) (.callbackReturn _ _)
      (.inr rfl) (by simp [Pc.service])
  case unwind hin =>
    exact h.step hin.loc (by simp [Pc.service]) (.callbackUnwind _)
      (.inr rfl) (by simp [Pc.service])
  -- the callback uses its handle
  case peek hin _ =>
    obtain ⟨rfl, -⟩ := h.eq hin.loc (by simp [Pc.service])
    exact ⟨_, .single (.peek _ _), h⟩
  case popNone hin _ =>
    obtain ⟨rfl, -⟩ := h.eq hin.loc (by simp [Pc.service])
    exact ⟨_, .single (.popNone _), h⟩
  case isQueuePoisoned hin =>
    obtain ⟨rfl, -⟩ := h.eq hin.loc (by simp [Pc.service])
    exact ⟨_, .single (.isQueuePoisoned _ _), h⟩
  case pop hin _ =>
    exact h.step hin.loc (by simp [Pc.service]) (.pop _ _ _) (.inr rfl)
      (by simp [Pc.service])
  -- a call leaves
  case returnProcess result _ _ hat _ | returnOther result hat _ =>
    cases result with
    | processed r =>
        exact h.step hat (by simp [Pc.service]) (.leave _ _) (.inl rfl)
          (by simp [Pc.service])
    | processedElsewhere =>
        exact h.step hat (by simp [Pc.service]) (.leaveMerged _ _) (.inl rfl)
          (by simp [Pc.service])
    | processingPanicked =>
        exact h.step hat (by simp [Pc.service]) (.leaveMerged _ _) (.inl rfl)
          (by simp [Pc.service])
  case resumeUnwind hat =>
    exact h.step hat (by simp [Pc.service]) (.leave _ _) (.inl rfl)
      (by simp [Pc.service])
  case lockPoisoned hat _ _ _ | mutexMismatch hat _ | queryMismatch hat _ |
      queryReturn hat =>
    exact h.leaveOther hat rfl (by simp [Pc.service])
  -- nothing that the protocol sees
  case mutexGood hat _ | queryGood hat _ =>
    exact ⟨k, .single (.mutexGood k _), h.goto hat (by simp [Pc.service])⟩
  case push hat =>
    exact ⟨k, .single (.push k _ _), h.goto hat (by simp [Pc.service])⟩
  all_goals refine ⟨k, .nil, ?_⟩
  case callProcess hnone _ _ =>
    simpa [Pc.service, hnew hnone, State.Serves] using h
  case callOther hnone _ _ => simpa [hnew hnone, State.Serves] using h
  case spuriousWake i f g hframe hpc =>
    have hidle : s.serviceOf i = .idle := by
      simp [State.serviceOf, hframe, hpc, Pc.service]
    simpa [State.Serves, Pc.service, ← hidle] using h
  case uninit hat hslot => exact (hR.basics.slots.not_uninit hat hslot).elim
  case popPanic hin _ => exact h.goto hin.loc (by simp [Pc.service])
  case unlocked hin => exact h.goto hin.loc (by simp [Pc.service])
  case lock hat _ _ => exact h.goto hat (by simp [Pc.service])
  case handOff result hat =>
    refine h.goto hat ?_
    cases result <;> simp [Pc.service]
  case wait hat | endUnlocked hat | errHandOff hat | ending hat =>
    exact h.goto hat (by simp [Pc.service])
  case contended hat _ | relock hat _ | testFront hat _ | testNotFront hat _ |
      popNothing hat _ | resultProcess hat _ | resultElsewhere hat _ |
      resultPanicked hat _ | reLock hat _ | errLock hat _ |
      queryLock hat _ | queryClear hat _ | queryRead hat _ =>
    exact h.goto hat (by simp [Pc.service])
  all_goals simpa [State.Serves] using h

/-- The service of every run is serial. -/
theorem service_serial (h : Run cfg frontState data acts log s) :
    ∃ k, (service V R).Run .idle log k ∧ s.Serves k := by
  refine Machine.Exec.follows (R := fun _ s k => s.Serves k)
    (serves_new frontState data) ?_ h
  intro acts log s k a s' evs run hs hmatched hstep
  obtain ⟨l, -, hR⟩ := Run.refines run
  exact (transition_of_step hstep).serves hR hs

/-- Call 0 is served while calls 1 and 2 push, and then call 1, whose value
call 0 has popped. -/
theorem service_serial_handOver :
    let r := (run ⟨.default, false⟩ 0 (fun _ => ())
      (handOverRun ++ [.step 1, .step 1, .step 1])).get (by decide)
    ∃ k, (service Nat Nat).Run .idle r.2 k ∧ r.1.Serves k :=
  service_serial (Run.of_run (by decide))

/-! ## The calls leave in the order of their arrival -/

/-- The call that leaves. -/
def Event.leaving? : Event V R → Option CallId
  | .leave i _ => some i
  | _ => none

/-- The calls that have left, in the order in which they left. -/
def leavings (log : List (Event V R)) : List CallId :=
  log.filterMap Event.leaving?

/-- The calls that have left after they arrived, in the order in which they
left. -/
def departures (log : List (Event V R)) : List CallId :=
  (leavings log).filter fun i => i ∈ (arrivals log).map Prod.fst

theorem mem_leavings {i : CallId} :
    i ∈ leavings log ↔ ∃ outcome, .leave i outcome ∈ log := by
  rw [leavings, List.mem_filterMap]
  constructor
  · rintro ⟨e, he, hi⟩
    cases e <;> simp only [Event.leaving?, reduceCtorEq,
      Option.some.injEq] at hi
    exact ⟨_, hi ▸ he⟩
  · rintro ⟨outcome, he⟩
    exact ⟨_, he, rfl⟩

/-- A step shows at most one event. -/
theorem Transition.evs_cases (ht : Transition cfg s a s' evs) :
    evs = [] ∨ ∃ e, evs = [e] := by
  cases ht <;> first | exact .inl rfl | exact .inr ⟨_, rfl⟩

section Departures

variable {k k' : Service} {i : CallId}

/-- An arrival leaves the departures alone. -/
theorem departures_arrival {e : Event V R} {v : V}
    (he : e.arrival? = some (i, v)) (hend : e.leaving? = none)
    (hi : i ∉ leavings log) : departures (log ++ [e]) = departures log := by
  have hends : leavings (log ++ [e]) = leavings log := by
    simp [leavings, hend]
  rw [departures, departures, hends]
  refine List.filter_congr fun j hj => ?_
  have hji : j ≠ i := by
    rintro rfl
    exact hi hj
  have harr : arrivals (log ++ [e]) = arrivals log ++ [(i, v)] := by
    simp [arrivals, he]
  rw [harr]
  simp [hji]

/-- Other events than arrivals and departures leave the departures alone. -/
theorem departures_quiet {e : Event V R} (he : e.arrival? = none)
    (hend : e.leaving? = none) : departures (log ++ [e]) = departures log := by
  have harr : arrivals (log ++ [e]) = arrivals log := by simp [arrivals, he]
  have hends : leavings (log ++ [e]) = leavings log := by simp [leavings, hend]
  rw [departures, departures, harr, hends]

theorem departures_leave {outcome : Outcome R} :
    departures (log ++ [.leave i outcome]) = departures log ++
      if i ∈ (arrivals log).map Prod.fst then [i] else [] := by
  have harr : arrivals (log ++ [.leave i outcome]) = arrivals log := by
    simp [arrivals, Event.arrival?]
  have hends : leavings (log ++ [.leave i outcome]) = leavings log ++ [i] := by
    simp [leavings, Event.leaving?]
  rw [departures, departures, harr, hends, List.filter_append]
  split_ifs with hi <;> simp [hi]

/-- What the machine knows of an event, beyond the protocol: a call that
arrives has not left, and a call that leaves without being served has not
arrived. -/
def Service.Knows (log : List (Event V R)) (k : Service) :
    Event V R → Prop
  | .flip i _ => i ∉ leavings log
  | .push i _ => i ∉ leavings log
  | .leave i _ => k.person ≠ some i → i ∉ (arrivals log).map Prod.fst
  | _ => True

/-- The calls that have acquired front permission are the ones that have left
and the one that is served. -/
theorem Service.Step.departures {e : Event V R} (hstep : Step k e k')
    (hknows : k.Knows log e)
    (harrived : ∀ i ∈ acquisitions log, i ∈ (arrivals log).map Prod.fst)
    (h : acquisitions log = departures log ++ k.person.toList) :
    acquisitions (log ++ [e]) =
      ContentionQueue.departures (log ++ [e]) ++ k'.person.toList := by
  have hserved : ∀ i, k.person = some i → i ∈ (arrivals log).map Prod.fst := by
    intro i hi
    exact harrived i (by simp [h, hi])
  rw [acquisitions, List.filterMap_append, ← acquisitions, h]
  cases hstep
  case flip i v =>
    rw [departures_arrival (i := i) (v := v) rfl rfl hknows]
    simp [Event.acquisition?, person]
  case push i v =>
    rw [departures_arrival (i := i) (v := v) rfl rfl hknows]
    simp [Event.acquisition?]
  case leaveMerged i o =>
    rw [departures_leave, if_pos (hserved i rfl)]
    simp [Event.acquisition?, person]
  case leave i o =>
    rw [departures_leave, if_pos (hserved i rfl)]
    simp [Event.acquisition?, person]
  case leaveOther i o hi =>
    rw [departures_leave, if_neg (hknows hi)]
    simp [Event.acquisition?]
  all_goals
    rw [departures_quiet rfl rfl]
    simp [Event.acquisition?, person]

/-- What the machine knows of the events of a step. -/
theorem Transition.knows {l : Line CallId V} (ht : Transition cfg s a s' evs)
    (hR : Refines log s l) (hs : s.Serves k)
    (hover : ∀ i outcome, .leave i outcome ∈ log →
      ∃ f, s.frames i = some f ∧ f.pc.outcome? = some outcome) :
    ∀ e ∈ evs, k.Knows log e := by
  have hstays : ∀ {i f pc}, s.At i f pc → pc.outcome? = none →
      i ∉ leavings log := by
    intro i f pc hat hpc hi
    obtain ⟨outcome, he⟩ := mem_leavings.mp hi
    obtain ⟨f', hf', hover'⟩ := hover i outcome he
    rw [← hat.pc_eq hf', hover'] at hpc
    cases hpc
  have houtside : ∀ {i f pc}, s.At i f pc → pc.hasArrived = false →
      i ∉ (arrivals log).map Prod.fst := by
    intro i f pc hat hpc
    rw [hR.history.arrivals]
    exact (hR.at hat).arrived hpc
  have hserved : ∀ {i f pc}, s.At i f pc → pc.service i ≠ .idle →
      k.person ≠ some i → i ∉ (arrivals log).map Prod.fst :=
    fun hat hpc hi => absurd (hs.eq hat hpc).2 hi
  intro e he
  cases ht <;> simp only [List.not_mem_nil, List.mem_singleton] at he <;>
    subst he
  case flip hat _ => exact hstays hat rfl
  case push hat => exact hstays hat rfl
  case returnProcess result _ _ hat _ | returnOther result hat _ =>
    exact hserved hat (by cases result <;> simp [Pc.service])
  case resumeUnwind hat => exact hserved hat (by simp [Pc.service])
  case lockPoisoned hat _ _ _ | mutexMismatch hat _ | queryMismatch hat _ |
      queryReturn hat => exact fun _ => houtside hat rfl
  all_goals trivial

end Departures

/-- Along every run, the calls that have acquired front permission are the
ones that have left and the one that is served. -/
theorem Run.serves (h : Run cfg frontState data acts log s) :
    ∃ k, s.Serves k ∧ acquisitions log = departures log ++ k.person.toList := by
  have hboth : ∃ k, (service V R).Run .idle log k ∧ s.Serves k ∧
      acquisitions log = departures log ++ k.person.toList := by
    refine Machine.Exec.follows (R := fun log s k => s.Serves k ∧
      acquisitions log = departures log ++ k.person.toList)
      ⟨serves_new frontState data, rfl⟩ ?_ h
    intro acts log s k a s' evs run hI hmatched hstep
    obtain ⟨l, -, hR⟩ := Run.refines run
    have ht := transition_of_step hstep
    obtain ⟨k', hk', hs'⟩ := ht.serves hR hI.1
    refine ⟨k', hk', hs', ?_⟩
    rcases ht.evs_cases with rfl | ⟨e, rfl⟩
    · obtain rfl := Protocol.run_nil_iff.mp hk'
      simpa using hI.2
    have hknows := ht.knows hR hI.1
      (fun _ _ => Run.over_of_leave run) e (by simp)
    have hsingle : Service.Step k e k' := by
      obtain ⟨k₁, hk₁, hlast⟩ := Protocol.run_snoc_iff.mp
        (show (service V R).Run k ([] ++ [e]) k' from hk')
      obtain rfl := Protocol.run_nil_iff.mp hk₁
      exact hlast
    refine hsingle.departures hknows ?_ hI.2
    intro i hi
    rw [hR.history.acquired] at hi
    rw [hR.history.arrivals]
    exact l.mem_arrivals_of_acquired hi
  obtain ⟨k, -, hs, hacq⟩ := hboth
  exact ⟨k, hs, hacq⟩

/-- A call that is served is the last one that has acquired front permission,
and the others have left. -/
theorem Run.acquisitions_of_served (h : Run cfg frontState data acts log s)
    (hserved : s.serviceOf i ≠ .idle) :
    acquisitions log = departures log ++ [i] := by
  obtain ⟨k, hs, hacq⟩ := h.serves
  rw [hs] at hserved
  obtain ⟨-, hperson⟩ := Service.of_eq hserved
  rw [hacq, hperson]
  rfl

/-- The calls that arrived leave in the order in which they arrived, and the
ones that have acquired front permission are the ones that have left and the
one that is served, if there is one. -/
theorem departures_in_order (h : Run cfg frontState data acts log s) :
    departures log <+: (arrivals log).map Prod.fst ∧
      ∃ k, s.Serves k ∧
        acquisitions log = departures log ++ k.person.toList := by
  obtain ⟨k, hs, hacq⟩ := h.serves
  refine ⟨?_, k, hs, hacq⟩
  obtain ⟨l, -, hR⟩ := h.refines
  have hprefix := l.acquired_prefix
  rw [← hR.history.acquired, ← hR.history.arrivals, hacq] at hprefix
  exact (List.prefix_append _ _).trans hprefix

/-- After `handOverRun` call 0 has left, and call 1 is served. -/
theorem departures_in_order_handOver :
    let r := (run ⟨.default, false⟩ 0 (fun _ => ())
      (handOverRun ++ [.step 1, .step 1, .step 1])).get (by decide)
    departures r.2 = [0] ∧ departures r.2 <+: (arrivals r.2).map Prod.fst ∧
      ∃ k, r.1.Serves k ∧
        acquisitions r.2 = departures r.2 ++ k.person.toList :=
  ⟨by decide, departures_in_order (Run.of_run (by decide))⟩

/-! ## When every call has ended -/

/-- Nothing is left of the calls. -/
structure State.Idle (log : List (Event V R)) (s : State M FS V R) :
    Prop where
  frontLocked : s.mutexExclusive.frontLocked = false
  queue : s.mutexExclusive.queue = []
  threads : ∀ t, s.threads t = []
  guards : ∀ b i, s.guardAt b ≠ some (.call i)
  departed : departures log = (arrivals log).map Prod.fst
  accounted : (drops log ++ (takings log).map Taking.item).Perm (arrivals log)

/-- When every call has ended, `front_locked` is not set, the queue is empty
and no call has a guard, every call that arrived has left in its turn, and
every value has been consumed or dropped. -/
theorem quiescent_idle (h : Run cfg frontState data acts log s)
    (hdone : ∀ i f, s.frames i = some f → f.pc.isLive = false) :
    s.Idle log := by
  obtain ⟨l, -, hR⟩ := h.refines
  have hwaiting := hR.waiting_eq_nil hdone
  have hdead : ∀ i, ¬ s.IsLive i := by
    rintro i ⟨f, hf, hlive⟩
    rw [hdone i f hf] at hlive
    cases hlive
  have hids : l.ids = [] := by
    rw [List.eq_nil_iff_forall_not_mem]
    exact fun i hi => hdead i (hR.isLive_of_ids hi)
  -- whoever is served has not ended
  obtain ⟨k, hs, hacq⟩ := h.serves
  have hserved : k.person = none := by
    rw [Option.eq_none_iff_forall_ne_some]
    intro i hi
    have hof : s.serviceOf i = k := by rw [hs, Service.of_self hi]
    cases hf : s.frames i with
    | none =>
        rw [State.serviceOf, hf] at hof
        rw [← hof] at hi
        cases hi
    | some f =>
        have hlive := hdone i f hf
        rw [serviceOf_of_frame hf] at hof
        cases hpc : f.pc <;> rw [hpc] at hlive hof <;>
          first
          | (cases hlive; done)
          | (rw [← hof] at hi; cases hi)
  have hholders : s.frontHolders = ∅ := by
    rw [Set.eq_empty_iff_forall_notMem]
    rintro i ⟨f, hf, hholds⟩
    have hlive := hdone i f hf
    cases hpc : f.pc <;> rw [hpc] at hlive hholds <;>
      first
      | (cases hlive; done)
      | cases hholds
  have hqueue : s.mutexExclusive.queue = [] := by
    rw [← List.map_eq_nil_iff (f := Task.state), hR.ids, hids]
  refine ⟨?_, hqueue, ?_, ?_, ?_, ?_⟩
  · have hcount := hR.conserved.count
    rw [hholders, hqueue] at hcount
    cases hlocked : s.mutexExclusive.frontLocked with
    | false => rfl
    | true => simp [hlocked] at hcount
  · intro t
    rw [List.eq_nil_iff_forall_not_mem]
    intro i hi
    obtain ⟨k, hk, -, hlive⟩ := (hR.basics.nested.mem t i).mp hi
    obtain ⟨f, hf, rfl⟩ := Option.map_eq_some_iff.mp hk
    exact hdead i ⟨f, hf, hlive⟩
  · intro b i hg
    have hguard := (hR.basics.owners i b).mp hg
    obtain ⟨f, hf, hpc⟩ := Option.bind_eq_some_iff.mp hguard
    have hlive := hdone i f hf
    cases hp : f.pc <;> rw [hp] at hpc hlive <;>
      first
      | (cases hlive; done)
      | cases hpc
  · rw [hserved] at hacq
    have horder := l.acquired_append_ids
    rw [hids, List.append_nil, ← hR.history.acquired,
      ← hR.history.arrivals, hacq] at horder
    simpa using horder
  · have haccount := l.account
    rwa [hwaiting, List.append_nil, ← hR.history.dropped, ← hR.history.taken,
      ← hR.history.arrivals] at haccount

/-- After `foldingRun` both calls have ended. -/
theorem quiescent_idle_folding :
    let r := (run ⟨.default, false⟩ [] (fun _ => ()) foldingRun).get
      (by decide)
    r.1.Idle r.2 := by
  intro r
  refine quiescent_idle (Run.of_run (by decide)) ?_
  intro i f hf
  match i with
  | 0 =>
    cases hf
    rfl
  | 1 =>
    cases hf
    rfl
  | i + 2 => cases hf

end ContentionQueue
