import ContentionQueue.Guards
import ContentionQueue.Lib.Line

/-!
# The queue is a hand-off line

This module proves that the machine refines the abstract line of
`HandOff.Line`.  Front permission is the baton, the tasks are the people in
the line, and a value is taken when a callback starts on it or when a handle
pops it.

* `History` reads the arrivals, the acquisitions, the taken values and the
  dropped values off the events.
* `Pc.stage` is what a call sees of the line.
* `Refines` relates a state and its history to a line.  `locked` ties
  `front_locked` to the baton, `queue` ties the queue to the people in the
  line, and `frames` ties every program counter and every state byte to what
  the line says about that call.
* `Transition.refines` matches every step with at most one step of the line,
  and `Run.refines` is the refinement.
-/

namespace ContentionQueue

open Machines State HandOff

variable {M FS V R : Type} {cfg : Config} {s s' : State M FS V R}
  {a : Action M FS V R} {evs log : List (Event V R)}

/-! ## The history -/

/-- The call that arrives and its value. -/
def Event.arrival? : Event V R → Option (CallId × V)
  | .flip i v => some (i, v)
  | .push i v => some (i, v)
  | _ => none

/-- The call that acquires front permission. -/
def Event.acquisition? : Event V R → Option CallId
  | .flip i _ => some i
  | .popFront i => some i
  | _ => none

/-- The value that is consumed, with the call that consumes it and the call
that submitted it. -/
def Event.taking? : Event V R → Option (Taking CallId V)
  | .callback i v => some ⟨i, i, v⟩
  | .pop i o v => some ⟨i, o, v⟩
  | _ => none

/-- The value that an unwind drops. -/
def Event.drop? : Event V R → Option (CallId × V)
  | .assertFailed i _ (some v) => some (i, v)
  | _ => none

/-- The arrivals, in order. -/
def arrivals (log : List (Event V R)) : List (CallId × V) :=
  log.filterMap Event.arrival?

/-- The acquisitions of front permission, in order. -/
def acquisitions (log : List (Event V R)) : List CallId :=
  log.filterMap Event.acquisition?

/-- The consumed values, in order. -/
def takings (log : List (Event V R)) : List (Taking CallId V) :=
  log.filterMap Event.taking?

/-- The dropped values, in order. -/
def drops (log : List (Event V R)) : List (CallId × V) :=
  log.filterMap Event.drop?

theorem mem_arrivals {i : CallId} {v : V} :
    (i, v) ∈ arrivals log ↔ .flip i v ∈ log ∨ .push i v ∈ log := by
  rw [arrivals, List.mem_filterMap]
  constructor
  · rintro ⟨e, he, harr⟩
    cases e <;> simp only [Event.arrival?, reduceCtorEq, Option.some.injEq,
      Prod.mk.injEq] at harr
    · obtain ⟨rfl, rfl⟩ := harr
      exact Or.inl he
    · obtain ⟨rfl, rfl⟩ := harr
      exact Or.inr he
  · rintro (he | he)
    · exact ⟨_, he, rfl⟩
    · exact ⟨_, he, rfl⟩

theorem mem_acquisitions {i : CallId} :
    i ∈ acquisitions log ↔ (∃ v, .flip i v ∈ log) ∨ .popFront i ∈ log := by
  rw [acquisitions, List.mem_filterMap]
  constructor
  · rintro ⟨e, he, hacq⟩
    cases e <;> simp only [Event.acquisition?, reduceCtorEq,
      Option.some.injEq] at hacq
    · exact Or.inl ⟨_, hacq ▸ he⟩
    · exact Or.inr (hacq ▸ he)
  · rintro (⟨v, he⟩ | he)
    · exact ⟨_, he, rfl⟩
    · exact ⟨_, he, rfl⟩

theorem mem_takings {r : Taking CallId V} :
    r ∈ takings log ↔ (r.taker = r.owner ∧ .callback r.owner r.value ∈ log) ∨
      .pop r.taker r.owner r.value ∈ log := by
  rw [takings, List.mem_filterMap]
  constructor
  · rintro ⟨e, he, htaken⟩
    cases e <;> simp only [Event.taking?, reduceCtorEq,
      Option.some.injEq] at htaken
    · subst htaken
      exact Or.inl ⟨rfl, he⟩
    · subst htaken
      exact Or.inr he
  · rintro (⟨heq, he⟩ | he)
    · obtain ⟨taker, owner, value⟩ := r
      obtain rfl : taker = owner := heq
      exact ⟨_, he, rfl⟩
    · exact ⟨_, he, rfl⟩

theorem mem_drops {i : CallId} {v : V} :
    (i, v) ∈ drops log ↔ ∃ p, .assertFailed i p (some v) ∈ log := by
  rw [drops, List.mem_filterMap]
  constructor
  · rintro ⟨e, he, hdrop⟩
    cases e with
    | assertFailed j p w =>
        cases w with
        | none => simp [Event.drop?] at hdrop
        | some w =>
            simp only [Event.drop?, Option.some.injEq, Prod.mk.injEq] at hdrop
            obtain ⟨rfl, rfl⟩ := hdrop
            exact ⟨p, he⟩
    | _ => simp [Event.drop?] at hdrop
  · rintro ⟨p, he⟩
    exact ⟨_, he, rfl⟩

/-- The history of a line is the history of a log. -/
structure SameHistory (log : List (Event V R)) (l : Line CallId V) :
    Prop where
  arrivals : arrivals log = l.arrivals
  acquired : acquisitions log = l.acquired
  taken : takings log = l.taken
  dropped : drops log = l.dropped

/-- A call arrives once. -/
theorem SameHistory.arrival_unique {l : Line CallId V}
    (h : SameHistory log l) {e e' : Event V R} {p p' : CallId × V}
    (he : e ∈ log) (he' : e' ∈ log) (hp : e.arrival? = some p)
    (hp' : e'.arrival? = some p') (hcall : p.1 = p'.1) : e = e' := by
  by_contra hne
  have hnodup := l.nodup
  rw [← h.arrivals, ContentionQueue.arrivals, List.map_filterMap,
    List.Nodup, List.pairwise_filterMap] at hnodup
  have hsymm : Std.Symm fun e e' : Event V R =>
      ∀ b, e.arrival?.map Prod.fst = some b →
        ∀ b', e'.arrival?.map Prod.fst = some b' → b ≠ b' :=
    ⟨fun _ _ hab b hb b' hb' => (hab b' hb' b hb).symm⟩
  have hdiff := hnodup.forall he he' hne p.1 (by simp [hp]) p'.1
    (by simp [hp'])
  exact hdiff hcall

/-- The history of a step of the line. -/
theorem SameHistory.append {l l' : Line CallId V} (h : SameHistory log l)
    (harr : l'.arrivals = l.arrivals ++ ContentionQueue.arrivals evs)
    (hacq : l'.acquired = l.acquired ++ acquisitions evs)
    (htaken : l'.taken = l.taken ++ takings evs)
    (hdrop : l'.dropped = l.dropped ++ drops evs) :
    SameHistory (log ++ evs) l' where
  arrivals := by
    rw [harr, ← h.arrivals]
    exact List.filterMap_append
  acquired := by
    rw [hacq, ← h.acquired]
    exact List.filterMap_append
  taken := by
    rw [htaken, ← h.taken]
    exact List.filterMap_append
  dropped := by
    rw [hdrop, ← h.dropped]
    exact List.filterMap_append

/-- A step of the line that the history does not show. -/
theorem SameHistory.quiet {l l' : Line CallId V} (h : SameHistory log l)
    (harr : l'.arrivals = l.arrivals) (hacq : l'.acquired = l.acquired)
    (htaken : l'.taken = l.taken) (hdrop : l'.dropped = l.dropped)
    (hevs : ContentionQueue.arrivals evs = [] ∧ acquisitions evs = [] ∧
      takings evs = [] ∧ drops evs = []) : SameHistory (log ++ evs) l' := by
  obtain ⟨h₁, h₂, h₃, h₄⟩ := hevs
  refine h.append ?_ ?_ ?_ ?_
  · rw [harr, h₁, List.append_nil]
  · rw [hacq, h₂, List.append_nil]
  · rw [htaken, h₃, List.append_nil]
  · rw [hdrop, h₄, List.append_nil]

/-! ## What a call sees of the line -/

/-- The two bits of a state byte as a signal: whether the byte says that its
task is at the front and, if it does, whether it says that a call panicked. -/
def TaskState.signal (t : TaskState) : Option Bool :=
  if t.isFront then some t.isPanic else none

/-- What a call with the state byte `t` sees of the line at a program
counter. -/
def Pc.stage (t : TaskState) : Pc V R → Stage V
  | .wait _ => .waiting t.signal
  | .asleep _ => .waiting t.signal
  | .relock _ => .waiting t.signal
  | .testFront _ => .waiting t.signal
  | .popFront _ processingPanicked => .called processingPanicked
  | .assertQueueGood _ result => .front result.value?
  | .assertMutexUnpoisoned _ value => .front (some value)
  | .callback _ => .serving
  | .unlocked _ => .serving
  | .reLock _ => .serving
  | .handOff _ _ => .front none
  | .errLock _ => .front none
  | .errHandOff _ _ => .front none
  | _ => .outside

/-- Whether a call may have arrived. -/
def Pc.hasArrived : Pc V R → Bool
  | .lock _ => false
  | .assertMutexGood _ _ => false
  | .tryAcquireFrontFast _ _ => false
  | .pushBack _ _ => false
  | .queryAssert => false
  | .queryLock => false
  | .queryAccess _ => false
  | .queryReturn _ _ => false
  | _ => true

/-- The `next_idx` of the handle of a call. -/
def Pc.nextIdx? : Pc V R → Option Nat
  | .callback h => some h.nextIdx
  | .unlocked h => some h.nextIdx
  | .reLock h => some h.nextIdx
  | _ => none

/-- Whether a call has found `front_locked` set and is about to push. -/
def Pc.isPushing : Pc V R → Bool
  | .pushBack _ _ => true
  | _ => false

/-- Whether a call has met undefined behaviour. -/
def Pc.isUndefined : Pc V R → Bool
  | .undefined _ => true
  | _ => false

/-- Call `i` with the state byte `t` at a program counter agrees with the
line. -/
structure PcRefines (l : Line CallId V) (i : CallId) (t : TaskState)
    (pc : Pc V R) : Prop where
  stage : pc.stage t = l.stage i
  arrived : pc.hasArrived = false → i ∉ l.arrivals.map Prod.fst
  nextIdx : ∀ n, pc.nextIdx? = some n → n = l.merged.length
  pushing : pc.isPushing = true → l.baton ≠ .free ∧ t = .new
  bits : t.isFront = false → t.isPanic = false
  defined : pc.isUndefined = false

/-- A state and its history agree with a line. -/
structure Refines (log : List (Event V R)) (s : State M FS V R)
    (l : Line CallId V) : Prop where
  basics : Basics s
  history : SameHistory log l
  locked : s.mutexExclusive.frontLocked = true ↔ l.baton ≠ .free
  queue : s.mutexExclusive.queue.map (fun t => (t.state, t.value)) = l.slots
  frames : ∀ i f, s.frames i = some f → PcRefines l i f.taskState f.pc
  absent : ∀ i, s.frames i = none → i ∉ l.arrivals.map Prod.fst

theorem signal_of_front {t : TaskState} (h : t.isFront = true) :
    t.signal = some t.isPanic := if_pos h

section PcRefines

variable {l l' : Line CallId V} {i : CallId} {t : TaskState}
  {pc pc' : Pc V R}

/-- A call keeps its view while it goes on without the line. -/
theorem PcRefines.move (h : PcRefines l i t pc)
    (hstage : pc'.stage t = pc.stage t)
    (harrived : pc'.hasArrived = false → pc.hasArrived = false)
    (hnextIdx : pc'.nextIdx? = none ∨ pc'.nextIdx? = pc.nextIdx?)
    (hpushing : pc'.isPushing = false) (hdefined : pc'.isUndefined = false) :
    PcRefines l i t pc' where
  stage := hstage.trans h.stage
  arrived := fun ha => h.arrived (harrived ha)
  nextIdx := by
    intro n hn
    rcases hnextIdx with hnone | hsame
    · rw [hnone] at hn
      cases hn
    · exact h.nextIdx n (hsame ▸ hn)
  pushing := by simp [hpushing]
  bits := h.bits
  defined := hdefined

/-- The view of a call at a program counter where only the stage matters. -/
theorem PcRefines.plain (hbits : t.isFront = false → t.isPanic = false)
    (hstage : pc.stage t = l.stage i) (harrived : pc.hasArrived = true)
    (hnextIdx : pc.nextIdx? = none) (hpushing : pc.isPushing = false)
    (hdefined : pc.isUndefined = false) : PcRefines l i t pc where
  stage := hstage
  arrived := by simp [harrived]
  nextIdx := by simp [hnextIdx]
  pushing := by simp [hpushing]
  bits := hbits
  defined := hdefined

/-- A handle belongs to the call that is served. -/
theorem stage_of_nextIdx {n : Nat} (h : pc.nextIdx? = some n) :
    pc.stage t = .serving := by
  cases pc <;> first | (cases h; done) | rfl

/-- Another call keeps its view when the line moves on. -/
theorem PcRefines.other (h : PcRefines l i t pc)
    (hstage : l'.stage i = l.stage i)
    (harrivals : i ∉ l.arrivals.map Prod.fst →
      i ∉ l'.arrivals.map Prod.fst)
    (hmerged : l.baton = .serving i → l'.merged.length = l.merged.length)
    (hbusy : pc.isPushing = true → l'.baton ≠ .free) :
    PcRefines l' i t pc where
  stage := h.stage.trans hstage.symm
  arrived := fun ha => harrivals (h.arrived ha)
  nextIdx := by
    intro n hn
    have hserving := h.stage.symm.trans (stage_of_nextIdx hn)
    rw [hmerged ((l.stage_eq_serving i).mp hserving)]
    exact h.nextIdx n hn
  pushing := fun hp => ⟨hbusy hp, (h.pushing hp).2⟩
  bits := h.bits
  defined := h.defined

end PcRefines

/-! ## Steps of one call -/

section Steps

variable {l l' : Line CallId V} {i : CallId} {f f' : Frame V R}
  {pc pc' : Pc V R}

theorem refines_new (frontState : FS) (data : Addr → M) :
    Refines [] (State.new frontState data : State M FS V R) .empty where
  basics := basics_new frontState data
  history := ⟨rfl, rfl, rfl, rfl⟩
  locked := by simp [State.new, MutexExclusive.new, Line.empty]
  queue := rfl
  frames := by simp [State.new]
  absent := by simp [Line.empty]

theorem Refines.at (h : Refines log s l) (hat : s.At i f pc) :
    PcRefines l i f.taskState pc :=
  hat.pc ▸ h.frames i f hat.frame

/-- The baton of a call that has front permission. -/
theorem Refines.front (h : Refines log s l) (hat : s.At i f pc) {v : Option V}
    (hstage : pc.stage f.taskState = .front v) : l.baton = .front i v :=
  (l.stage_eq_front i v).mp ((h.at hat).stage.symm.trans hstage)

theorem Refines.serving (h : Refines log s l) (hat : s.At i f pc)
    (hstage : pc.stage f.taskState = .serving) : l.baton = .serving i :=
  (l.stage_eq_serving i).mp ((h.at hat).stage.symm.trans hstage)

/-- The people in the line are the calls whose tasks are in the queue. -/
theorem Refines.ids (h : Refines log s l) :
    s.mutexExclusive.queue.map Task.state = l.ids := by
  rw [← l.slots_map_fst, ← h.queue, List.map_map]
  rfl

theorem Refines.mem_ids (h : Refines log s l) {t : Task V}
    (ht : t ∈ s.mutexExclusive.queue) : t.state ∈ l.ids :=
  h.ids ▸ List.mem_map_of_mem ht

theorem Refines.mem_slots (h : Refines log s l) {t : Task V}
    (ht : t ∈ s.mutexExclusive.queue) : (t.state, t.value) ∈ l.slots :=
  h.queue ▸ List.mem_map_of_mem ht

/-- A task in the queue without a value is merged. -/
theorem Refines.mem_merged (h : Refines log s l) {t : Task V}
    (ht : t ∈ s.mutexExclusive.queue) (hnone : t.value = none) :
    t.state ∈ l.merged := by
  simpa [Line.slots, hnone] using h.mem_slots ht

/-- The value that a handle has popped was taken. -/
theorem Refines.taken_of_pop (h : Refines log s l) {i o : CallId} {v : V}
    (hpop : .pop i o v ∈ log) : (⟨i, o, v⟩ : Taking CallId V) ∈ l.taken := by
  rw [← h.history.taken]
  exact mem_takings.mpr (.inr hpop)

/-- The value of a merged call was popped by a handle of another call. -/
theorem Refines.pop_of_merged (h : Refines log s l) {o : CallId}
    (ho : o ∈ l.merged) :
    ∃ i v, i ≠ o ∧ .pop i o v ∈ log ∧
      (⟨i, o, v⟩ : Taking CallId V) ∈ l.taken := by
  obtain ⟨r, hr, rfl, htaker⟩ := l.merged_taken o ho
  refine ⟨r.taker, r.value, htaker, ?_, hr⟩
  rw [← h.history.taken, mem_takings] at hr
  exact hr.resolve_left fun hself => htaker hself.1

/-- Nothing that the line shows changes. -/
theorem Refines.still (h : Refines log s l) (hb : Basics s')
    (hlocked : s'.mutexExclusive.frontLocked = s.mutexExclusive.frontLocked)
    (hqueue : s'.mutexExclusive.queue = s.mutexExclusive.queue)
    (hframes : s'.frames = s.frames)
    (hevs : arrivals evs = [] ∧ acquisitions evs = [] ∧
      takings evs = [] ∧ drops evs = []) : Refines (log ++ evs) s' l where
  basics := hb
  history := h.history.quiet rfl rfl rfl rfl hevs
  locked := hlocked ▸ h.locked
  queue := hqueue ▸ h.queue
  frames := hframes ▸ h.frames
  absent := hframes ▸ h.absent

/-- Call `i` and the line move on. -/
theorem Refines.advance (h : Refines log s l) (hb : Basics s')
    (hframes : s'.frames = Function.update s.frames i (some f'))
    (hlocked : s'.mutexExclusive.frontLocked = true ↔ l'.baton ≠ .free)
    (hqueue : s'.mutexExclusive.queue.map (fun t => (t.state, t.value)) =
      l'.slots)
    (hhistory : SameHistory (log ++ evs) l')
    (hself : PcRefines l' i f'.taskState f'.pc)
    (hstage : ∀ j, j ≠ i → l'.stage j = l.stage j)
    (harrivals : ∀ j, j ≠ i → j ∉ l.arrivals.map Prod.fst →
      j ∉ l'.arrivals.map Prod.fst)
    (hmerged : ∀ j, j ≠ i → l.baton = .serving j →
      l'.merged.length = l.merged.length)
    (hbusy : ∀ j g, j ≠ i → s.frames j = some g →
      g.pc.isPushing = true → l'.baton ≠ .free) :
    Refines (log ++ evs) s' l' where
  basics := hb
  history := hhistory
  locked := hlocked
  queue := hqueue
  frames := by
    intro j g hg
    rw [hframes] at hg
    rcases eq_or_ne j i with rfl | hj
    · rw [Function.update_self, Option.some.injEq] at hg
      exact hg ▸ hself
    · rw [Function.update_of_ne hj] at hg
      have hold := h.frames j g hg
      exact hold.other (hstage j hj) (harrivals j hj) (hmerged j hj)
        (hbusy j g hj hg)
  absent := by
    intro j hg
    rw [hframes] at hg
    rcases eq_or_ne j i with rfl | hj
    · rw [Function.update_self] at hg
      cases hg
    · rw [Function.update_of_ne hj] at hg
      exact harrivals j hj (h.absent j hg)

/-- Call `i` goes on without the line. -/
theorem Refines.move (h : Refines log s l) (hb : Basics s')
    (hframes : s'.frames = Function.update s.frames i (some f'))
    (hlocked : s'.mutexExclusive.frontLocked = s.mutexExclusive.frontLocked)
    (hqueue : s'.mutexExclusive.queue = s.mutexExclusive.queue)
    (hevs : arrivals evs = [] ∧ acquisitions evs = [] ∧
      takings evs = [] ∧ drops evs = [])
    (hself : PcRefines l i f'.taskState f'.pc) : Refines (log ++ evs) s' l :=
  h.advance hb hframes (hlocked ▸ h.locked) (hqueue ▸ h.queue)
    (h.history.quiet rfl rfl rfl rfl hevs) hself (fun _ _ => rfl)
    (fun _ _ => id) (fun _ _ _ => rfl)
    (fun j g _ hg hp => ((h.frames j g hg).pushing hp).1)

/-- A sleeper that is woken, or a waiter that is told, still waits. -/
theorem stage_notifyOne {t t' : TaskState} {x : Option Bool}
    (h : pc.stage t = .waiting x) :
    pc.notifyOne.stage t' = .waiting t'.signal := by
  cases pc <;> first | (cases h; done) | rfl

theorem signal_of_stage {t : TaskState} {x : Option Bool}
    (h : pc.stage t = .waiting x) : t.signal = x := by
  cases pc <;> first | (cases h; done) | exact Stage.waiting.inj h

/-- A call that waits and has not been told is told. -/
theorem PcRefines.wake {t : TaskState} {wake : TaskState → TaskState}
    {failed : Bool} (h : PcRefines l i t pc)
    (hwait : l.stage i = .waiting none)
    (hwake : ∀ t, t.isPanic = false →
      (wake t).isFront = true ∧ (wake t).isPanic = failed)
    (hstage : l'.stage i = .waiting (some failed)) :
    PcRefines l' i (wake t) pc.notifyOne := by
  have hpc := h.stage.trans hwait
  have hfront : t.isFront = false := by
    have hsignal := signal_of_stage hpc
    cases hf : t.isFront with
    | false => rfl
    | true => simp [signal_of_front hf] at hsignal
  obtain ⟨hf, hp⟩ := hwake t (h.bits hfront)
  have hsignal : (wake t).signal = some failed := by
    rw [signal_of_front hf, hp]
  refine .plain (by simp [hf]) ?_ ?_ ?_ ?_ ?_
  · rw [stage_notifyOne hpc, hstage, hsignal]
  all_goals cases pc <;> first | rfl | cases hpc

/-- Nobody else is between the test of `front_locked` and its push while call
`i` has a guard. -/
theorem Refines.not_pushing (h : Refines log s l) (hinside : s.Inside i)
    {j : CallId} {g : Frame V R} (hj : j ≠ i) (hg : s.frames j = some g) :
    g.pc.isPushing = false := by
  cases hp : g.pc.isPushing with
  | false => rfl
  | true =>
      obtain ⟨b, v, hpc⟩ : ∃ b v, g.pc = .pushBack b v := by
        cases hpc : g.pc <;> rw [hpc] at hp <;>
          first | exact ⟨_, _, rfl⟩ | cases hp
      have hin := h.basics.inside (g := b) hg (by rw [hpc]; rfl)
        (by rw [hpc]; rfl)
      exact absurd (h.basics.exclusive hin hinside) hj

/-- The call with front permission gives it up, since the queue is empty. -/
theorem Refines.passNil {s₁ : State M FS V R} {wake : TaskState → TaskState}
    {failed : Bool} (h : Refines log s l) (hinside : s.Inside i)
    (hline : l.baton = .front i none) (hids : l.ids = [])
    (hb : Basics (s₁.wakeNext wake))
    (hframes : s₁.frames = Function.update s.frames i (some f'))
    (hqueue : s₁.mutexExclusive.queue = s.mutexExclusive.queue)
    (hself : PcRefines (l.pass i failed hline) i f'.taskState f'.pc) :
    Refines log (s₁.wakeNext wake) (l.pass i failed hline) := by
  have hnil : s₁.mutexExclusive.queue = [] := by
    rw [hqueue, ← List.map_eq_nil_iff (f := Task.state), h.ids, hids]
  have hbaton : (l.pass i failed hline).baton = .free := if_pos hids
  rw [wakeNext_nil s₁ wake hnil] at hb ⊢
  rw [← List.append_nil log]
  refine h.advance hb hframes ?_ ?_ ?_ hself ?_ ?_ ?_ ?_
  · simp [hbaton]
  · show s₁.mutexExclusive.queue.map _ = l.slots
    rw [hqueue]
    exact h.queue
  · exact h.history.quiet rfl rfl rfl rfl ⟨rfl, rfl, rfl, rfl⟩
  · intro j hj
    rw [l.stage_pass_nil i failed hline hids, Function.update_of_ne hj]
  · exact fun _ _ => id
  · exact fun _ _ _ => rfl
  · intro j g hj hg hp
    rw [h.not_pushing hinside hj hg] at hp
    cases hp

/-- The call with front permission hands it to the head of the queue. -/
theorem Refines.passCons {s₁ : State M FS V R} {wake : TaskState → TaskState}
    {failed : Bool} (h : Refines log s l)
    (hline : l.baton = .front i none) {k : CallId} {rest : List CallId}
    (hids : l.ids = k :: rest) (hb : Basics (s₁.wakeNext wake))
    (hframes : s₁.frames = Function.update s.frames i (some f'))
    (hlocked : s₁.mutexExclusive.frontLocked = s.mutexExclusive.frontLocked)
    (hqueue : s₁.mutexExclusive.queue = s.mutexExclusive.queue)
    (hself : PcRefines (l.pass i failed hline) i f'.taskState f'.pc)
    (hwake : ∀ t, t.isPanic = false →
      (wake t).isFront = true ∧ (wake t).isPanic = failed) :
    Refines log (s₁.wakeNext wake) (l.pass i failed hline) := by
  have hperson : l.baton.person = some i := by
    rw [hline]
    rfl
  have hbaton : (l.pass i failed hline).baton = .signalled failed :=
    if_neg (by simp [hids])
  have hk : k ∈ l.ids := by simp [hids]
  have hki : k ≠ i := by
    rintro rfl
    exact l.not_mem_ids_of_person hperson hk
  obtain ⟨t, ts, hts, htk⟩ :
      ∃ t ts, s₁.mutexExclusive.queue = t :: ts ∧ t.state = k := by
    have hmap := h.ids
    rw [hids, ← hqueue] at hmap
    cases hq : s₁.mutexExclusive.queue with
    | nil => simp [hq] at hmap
    | cons t ts =>
        rw [hq, List.map_cons] at hmap
        exact ⟨t, ts, rfl, (List.cons.inj hmap).1⟩
  have hframes' : ∀ j, (s₁.wakeNext wake).frames j =
      if j = k then (s.frames k).map (Frame.wake wake)
      else if j = i then some f' else s.frames j := by
    intro j
    rw [wakeNext_cons s₁ wake hts, htk]
    show Function.update s₁.frames k _ j = _
    rw [hframes, Function.update_of_ne hki, Function.update_apply,
      Function.update_apply]
  refine ⟨hb, ?_, ?_, ?_, ?_, ?_⟩
  · rw [← List.append_nil log]
    exact h.history.quiet rfl rfl rfl rfl ⟨rfl, rfl, rfl, rfl⟩
  · have hold := h.locked.mpr (by simp [hline])
    rw [wakeNext_cons s₁ wake hts]
    simp [hlocked, hold, hbaton]
  · show (s₁.wakeNext wake).mutexExclusive.queue.map _ = l.slots
    rw [wakeNext_queue, hqueue]
    exact h.queue
  · intro j g hg
    rw [hframes' j] at hg
    split_ifs at hg with hjk hji
    · subst hjk
      obtain ⟨g', hg', rfl⟩ := Option.map_eq_some_iff.mp hg
      refine (h.frames j g' hg').wake (l.stage_of_person hperson hk) hwake ?_
      rw [l.stage_pass_cons i failed hline hids, Function.update_self]
    · cases hg
      exact hji ▸ hself
    · refine (h.frames j g hg).other ?_ id (fun _ => rfl)
        (fun _ => by simp [hbaton])
      rw [l.stage_pass_cons i failed hline hids, Function.update_of_ne hjk,
        Function.update_of_ne hji]
  · intro j hj
    rw [hframes' j] at hj
    split_ifs at hj with hjk hji
    · subst hjk
      exact h.absent j (Option.map_eq_none_iff.mp hj)
    · exact h.absent j hj

/-- A hand-off passes the baton.  `s₁` is the state before it, in which the
call has gone on to `f'`. -/
theorem Refines.pass {s₁ : State M FS V R} {wake : TaskState → TaskState}
    (failed : Bool) {g : Addr} (h : Refines log s l) (hat : s.At i f pc)
    (hfront : pc.stage f.taskState = .front none)
    (hreg : pc.isRegistered = true) (hguard : pc.guard? = some g)
    (hb : Basics (s₁.wakeNext wake))
    (hframes : s₁.frames = Function.update s.frames i
      (some { f with pc := pc' }))
    (hlocked : s₁.mutexExclusive.frontLocked = s.mutexExclusive.frontLocked)
    (hqueue : s₁.mutexExclusive.queue = s.mutexExclusive.queue)
    (hstage : pc'.stage f.taskState = .outside)
    (harrived : pc'.hasArrived = true) (hnextIdx : pc'.nextIdx? = none)
    (hpushing : pc'.isPushing = false) (hdefined : pc'.isUndefined = false)
    (hwake : ∀ t, t.isPanic = false →
      (wake t).isFront = true ∧ (wake t).isPanic = failed) :
    ∃ l', Line.Step l l' ∧ Refines log (s₁.wakeNext wake) l' := by
  have hat' := h.at hat
  have hline := h.front hat hfront
  have hinside : s.Inside i :=
    h.basics.inside hat.frame (hat.pc ▸ hreg) (hat.pc ▸ hguard)
  have hself : (l.pass i failed hline).stage i = .outside →
      PcRefines (l.pass i failed hline) i f.taskState pc' := fun hout =>
    .plain hat'.bits (hstage.trans hout.symm) harrived hnextIdx hpushing
      hdefined
  refine ⟨_, .pass l i failed hline, ?_⟩
  cases hids : l.ids with
  | nil =>
      refine h.passNil hinside hline hids hb hframes hqueue (hself ?_)
      rw [l.stage_pass_nil i failed hline hids, Function.update_self]
  | cons k rest =>
      have hik : i ≠ k := by
        rintro rfl
        exact l.not_mem_ids_of_person (by rw [hline]; rfl) (by simp [hids])
      refine h.passCons hline hids hb hframes hlocked hqueue (hself ?_) hwake
      rw [l.stage_pass_cons i failed hline hids, Function.update_of_ne hik,
        Function.update_self]

/-- A step of the line after the arrival of call `i`, which changes what call
`i` sees and nothing else. -/
theorem Refines.along (h : Refines log s l) (hat : s.At i f pc)
    (hb : Basics s')
    (hframes : s'.frames = Function.update s.frames i
      (some { f with pc := pc' }))
    (hlocked : s'.mutexExclusive.frontLocked = s.mutexExclusive.frontLocked)
    (hqueue : s'.mutexExclusive.queue.map (fun t => (t.state, t.value)) =
      l'.slots)
    (hhistory : SameHistory (log ++ evs) l')
    (hold : l.baton ≠ .free) (hnew : l'.baton ≠ .free)
    (hstage : l'.stage =
      Function.update l.stage i (pc'.stage f.taskState))
    (harrivals : l'.arrivals = l.arrivals)
    (hmerged : ∀ j, j ≠ i → l.baton = .serving j →
      l'.merged.length = l.merged.length)
    (hself : pc'.hasArrived = true ∧ pc'.isPushing = false ∧
      pc'.isUndefined = false)
    (hnextIdx : ∀ n, pc'.nextIdx? = some n → n = l'.merged.length) :
    Refines (log ++ evs) s' l' := by
  obtain ⟨harrived, hpushing, hdefined⟩ := hself
  refine h.advance hb hframes ?_ hqueue hhistory ?_ ?_ ?_ hmerged
    (fun _ _ _ _ _ => hnew)
  · rw [hlocked, h.locked]
    exact iff_of_true hold hnew
  · exact {
      stage := by rw [hstage, Function.update_self]
      arrived := by simp [harrived]
      nextIdx := hnextIdx
      pushing := by simp [hpushing]
      bits := (h.at hat).bits
      defined := hdefined }
  · intro j hj
    rw [hstage, Function.update_of_ne hj]
  · intro j _ hj
    rwa [harrivals]

/-- Call `i` goes on without the line, to a program counter where it sees the
same. -/
theorem Refines.goto (h : Refines log s l) (hat : s.At i f pc)
    (hb : Basics s')
    (hframes : s'.frames = Function.update s.frames i
      (some { f with pc := pc' }))
    (hlocked : s'.mutexExclusive.frontLocked = s.mutexExclusive.frontLocked)
    (hqueue : s'.mutexExclusive.queue = s.mutexExclusive.queue)
    (hevs : arrivals evs = [] ∧ acquisitions evs = [] ∧
      takings evs = [] ∧ drops evs = [])
    (hstage : pc'.stage f.taskState = pc.stage f.taskState)
    (harrived : pc'.hasArrived = false → pc.hasArrived = false)
    (hnextIdx : pc'.nextIdx? = none ∨ pc'.nextIdx? = pc.nextIdx?)
    (hself : pc'.isPushing = false ∧ pc'.isUndefined = false) :
    Refines (log ++ evs) s' l :=
  h.move hb hframes hlocked hqueue hevs
    ((h.at hat).move hstage harrived hnextIdx hself.1 hself.2)

/-- The fast path takes the baton. -/
theorem Refines.flip {g : Addr} {v : V} (h : Refines log s l)
    (hat : s.At i f (.tryAcquireFrontFast g v))
    (hlocked : s.mutexExclusive.frontLocked = false)
    (hb : Basics s')
    (hs' : s' = (s.setExclusive { s.mutexExclusive with
      frontLocked := true }).goto i f (.assertMutexUnpoisoned g v)) :
    ∃ l', Line.Step l l' ∧ Refines (log ++ [.flip i v]) s' l' := by
  subst hs'
  have hfree : l.baton = .free := by
    by_contra hne
    rw [h.locked.mpr hne] at hlocked
    cases hlocked
  have hnew := (h.at hat).arrived rfl
  refine ⟨_, .flip l i v hfree hnew, ?_⟩
  have hstage := l.stage_flip i v hfree hnew
  refine h.advance hb rfl ?_ ?_ ?_ ?_ ?_ ?_ ?_ ?_
  · simp [Line.flip]
  · exact h.queue
  · exact h.history.append rfl rfl (List.append_nil _).symm
      (List.append_nil _).symm
  · refine .plain (h.at hat).bits ?_ rfl rfl rfl rfl
    rw [hstage, Function.update_self]
    rfl
  · intro j hj
    rw [hstage, Function.update_of_ne hj]
  · intro j hj hmem
    simpa [Line.flip, hj] using hmem
  · exact fun _ _ _ => rfl
  · simp [Line.flip]

/-- The slow path joins the line. -/
theorem Refines.push {g : Addr} {v : V} (h : Refines log s l)
    (hat : s.At i f (.pushBack g v)) (hb : Basics s')
    (hs' : s' = (s.setExclusive (s.mutexExclusive.pushBack
      ⟨i, some v⟩)).goto i f (.wait g)) :
    ∃ l', Line.Step l l' ∧ Refines (log ++ [.push i v]) s' l' := by
  subst hs'
  obtain ⟨hbusy, htask⟩ := (h.at hat).pushing rfl
  have hnew := (h.at hat).arrived rfl
  refine ⟨_, .push l i v hbusy hnew, ?_⟩
  have hstage := l.stage_push i v hbusy hnew
  refine h.advance hb rfl ?_ ?_ ?_ ?_ ?_ ?_ ?_ ?_
  · exact h.locked
  · have hslots := h.queue
    simp only [Line.slots] at hslots
    simp [MutexExclusive.pushBack, Line.slots, Line.push, hslots]
  · exact h.history.append rfl (List.append_nil _).symm
      (List.append_nil _).symm (List.append_nil _).symm
  · refine .plain (h.at hat).bits ?_ rfl rfl rfl rfl
    rw [hstage, Function.update_self, htask]
    rfl
  · intro j hj
    rw [hstage, Function.update_of_ne hj]
  · intro j hj hmem
    simpa [Line.push, hj] using hmem
  · exact fun _ _ _ => rfl
  · exact fun _ _ _ _ _ => hbusy

/-- A call that waits and sees `FRONT_BIT` is called. -/
theorem Refines.testFront {g : Addr} (h : Refines log s l)
    (hat : s.At i f (.testFront g)) (hfront : f.taskState.isFront = true)
    (hb : Basics s')
    (hs' : s' = s.goto i f (.popFront g f.taskState.isPanic)) :
    ∃ l', Line.Step l l' ∧ Refines (log ++ []) s' l' := by
  subst hs'
  have hsignal : l.stage i = .waiting (some f.taskState.isPanic) := by
    rw [← (h.at hat).stage, ← signal_of_front hfront]
    rfl
  obtain ⟨hline, hhead⟩ := (l.stage_eq_signalled i _).mp hsignal
  refine ⟨_, .call l f.taskState.isPanic hline, ?_⟩
  refine h.along hat hb rfl rfl h.queue
    (h.history.quiet rfl rfl rfl rfl ⟨rfl, rfl, rfl, rfl⟩)
    (by simp [hline]) (by simp [Line.call]) (l.stage_call _ hline hhead) rfl
    (fun _ _ _ => rfl) ⟨rfl, rfl, rfl⟩ (by simp [Pc.nextIdx?])

/-- The head of the line has its own task at the head of the queue. -/
theorem Refines.head (h : Refines log s l) (hhead : l.ids.head? = some i) :
    ∃ t rest, s.mutexExclusive.queue = t :: rest ∧ t.state = i := by
  have hmap := h.ids
  cases hq : s.mutexExclusive.queue with
  | nil =>
      rw [hq, List.map_nil] at hmap
      simp [← hmap] at hhead
  | cons t rest =>
      rw [hq, List.map_cons] at hmap
      rw [← hmap, List.head?_cons, Option.some.injEq] at hhead
      exact ⟨t, rest, rfl, hhead⟩

/-- The call at the head of the queue pops its own task. -/
theorem Refines.popFront {g : Addr} {processingPanicked : Bool}
    {result : TaskWaitResult V} {x : MutexExclusive V} (h : Refines log s l)
    (hat : s.At i f (.popFront g processingPanicked))
    (hpop : s.mutexExclusive.popFront processingPanicked = some (result, x))
    (hb : Basics s')
    (hs' : s' = (s.setExclusive x).goto i f (.assertQueueGood g result)) :
    ∃ l', Line.Step l l' ∧ Refines (log ++ [.popFront i]) s' l' := by
  subst hs'
  obtain ⟨hline, hhead⟩ :=
    (l.stage_eq_called i _).mp (h.at hat).stage.symm
  obtain ⟨t, rest, hq, hti⟩ := h.head hhead
  have hslots := h.queue
  simp only [MutexExclusive.popFront, hq, Option.some.injEq,
    Prod.mk.injEq] at hpop
  obtain ⟨rfl, rfl⟩ := hpop
  rw [hq, List.map_cons, Line.slots] at hslots
  cases hm : l.merged with
  | cons j merged =>
      rw [hm, List.map_cons, List.cons_append, List.cons.injEq,
        Prod.mk.injEq, hti] at hslots
      obtain ⟨⟨rfl, hvalue⟩, hrest⟩ := hslots
      refine ⟨_, .takeMerged l processingPanicked i merged hline hm, ?_⟩
      refine h.along hat hb rfl rfl hrest ?_ (by simp [hline])
        (by simp [Line.takeMerged]) ?_ rfl ?_ ⟨rfl, rfl, rfl⟩
        (by simp [Pc.nextIdx?])
      · exact h.history.append (List.append_nil _).symm rfl
          (List.append_nil _).symm (List.append_nil _).symm
      · rw [l.stage_takeMerged processingPanicked i merged hline hm, hvalue]
        cases processingPanicked <;> rfl
      · simp [hline]
  | nil =>
      obtain ⟨⟨j, v⟩, pending, hp⟩ : ∃ p pending, l.pending = p :: pending :=
        List.exists_cons_of_ne_nil (by
          simpa [hm] using l.ready processingPanicked (.inr hline))
      rw [hm, hp, List.map_nil, List.nil_append, List.map_cons,
        List.cons.injEq, Prod.mk.injEq, hti] at hslots
      obtain ⟨⟨rfl, hvalue⟩, hrest⟩ := hslots
      refine ⟨_, .takePending l processingPanicked i v pending hline hm hp, ?_⟩
      refine h.along hat hb rfl rfl hrest ?_ (by simp [hline])
        (by simp [Line.takePending]) ?_ rfl ?_ ⟨rfl, rfl, rfl⟩
        (by simp [Pc.nextIdx?])
      · exact h.history.append (List.append_nil _).symm rfl
          (List.append_nil _).symm (List.append_nil _).symm
      · rw [l.stage_takePending processingPanicked i v pending hline hm hp,
          hvalue]
        rfl
      · simp [hline]

/-- A call whose poison assertion fails drops its value. -/
theorem Refines.drop {g : Addr} {p : Panic} {v : V} {m : Mutex M}
    (h : Refines log s l) (hat : s.At i f pc)
    (hstage : pc.stage f.taskState = .front (some v)) (hb : Basics s')
    (hs' : s' = (s.setMutex g m).goto i f (.errLock p)) :
    ∃ l', Line.Step l l' ∧
      Refines (log ++ [.assertFailed i p (some v)]) s' l' := by
  subst hs'
  have hline := h.front hat hstage
  refine ⟨_, .drop l i v hline, ?_⟩
  refine h.along hat hb rfl rfl h.queue ?_ (by simp [hline])
    (by simp [Line.drop]) (l.stage_drop i v hline) rfl (fun _ _ _ => rfl)
    ⟨rfl, rfl, rfl⟩ (by simp [Pc.nextIdx?])
  exact h.history.append (List.append_nil _).symm (List.append_nil _).symm
    (List.append_nil _).symm rfl

/-- The callback starts on the call's own value. -/
theorem Refines.start {g : Addr} {v : V} (h : Refines log s l)
    (hat : s.At i f (.assertMutexUnpoisoned g v)) (hb : Basics s')
    (hs' : s' = s.goto i f (.callback (.new g))) :
    ∃ l', Line.Step l l' ∧ Refines (log ++ [.callback i v]) s' l' := by
  subst hs'
  have hline : l.baton = .front i (some v) := h.front hat rfl
  refine ⟨_, .start l i v hline, ?_⟩
  refine h.along hat hb rfl rfl h.queue ?_ (by simp [hline])
    (by simp [Line.start]) (l.stage_start i v hline) rfl (fun _ _ _ => rfl)
    ⟨rfl, rfl, rfl⟩ ?_
  · exact h.history.append (List.append_nil _).symm (List.append_nil _).symm
      rfl (List.append_nil _).symm
  · intro n hn
    cases hn
    simp [Line.start, l.fresh i v hline, QueueHandle.new]

/-- The value that a handle sees next is the first one that is pending. -/
theorem Refines.next {hd : QueueHandle} (h : Refines log s l)
    (hat : s.At i f (.callback hd)) :
    (s.mutexExclusive.queue[hd.nextIdx]?).map (fun t => (t.state, t.value)) =
      l.pending.head?.map fun p => (p.1, some p.2) := by
  have hn := (h.at hat).nextIdx hd.nextIdx rfl
  rw [← List.getElem?_map, h.queue, hn, Line.slots,
    List.getElem?_append_right (by simp)]
  simp [List.head?_eq_getElem?]

/-- A handle pops the first value that is pending. -/
theorem Refines.pop {hd : QueueHandle} {o : CallId} {v : V}
    (h : Refines log s l) (hat : s.At i f (.callback hd))
    (htask : s.mutexExclusive.queue[hd.nextIdx]? = some ⟨o, some v⟩)
    (hb : Basics s')
    (hs' : s' = (s.setExclusive { s.mutexExclusive with
      queue := s.mutexExclusive.queue.set hd.nextIdx ⟨o, none⟩ }).goto i f
        (.callback { hd with nextIdx := hd.nextIdx + 1 })) :
    ∃ l', Line.Step l l' ∧ Refines (log ++ [.pop i o v]) s' l' := by
  subst hs'
  have hline := h.serving hat rfl
  have hn := (h.at hat).nextIdx hd.nextIdx rfl
  obtain ⟨rest, hp⟩ : ∃ rest, l.pending = (o, v) :: rest := by
    have hnext := h.next hat
    rw [htask] at hnext
    cases hp : l.pending with
    | nil => simp [hp] at hnext
    | cons p rest =>
        obtain ⟨j, w⟩ := p
        simp only [hp, Option.map_some, List.head?_cons, Option.some.injEq,
          Prod.mk.injEq] at hnext
        obtain ⟨rfl, rfl⟩ := hnext
        exact ⟨rest, rfl⟩
  refine ⟨_, .pop l i o v rest hline hp, ?_⟩
  refine h.along hat hb rfl rfl ?_ ?_ (by simp [hline]) (by simp [Line.pop])
    ?_ rfl ?_ ⟨rfl, rfl, rfl⟩ ?_
  · have hslots := h.queue
    rw [Line.slots, hp] at hslots
    show (s.mutexExclusive.queue.set hd.nextIdx ⟨o, none⟩).map _ = _
    rw [List.map_set, hslots, hn]
    simp [Line.slots, Line.pop]
  · exact h.history.append (List.append_nil _).symm (List.append_nil _).symm
      rfl (List.append_nil _).symm
  · rw [l.stage_pop i o v rest hline hp]
    refine (Function.update_eq_self_iff.mpr ?_).symm
    exact ((l.stage_eq_serving i).mpr hline).symm
  · intro j hj hserving
    rw [hline] at hserving
    exact absurd (Baton.serving.inj hserving).symm hj
  · intro n hn'
    cases hn'
    simp [Line.pop, hn]

/-- The callback returns or unwinds. -/
theorem Refines.finish (s₁ : State M FS V R) {hd : QueueHandle}
    (h : Refines log s l) (hat : s.At i f (.callback hd)) (hb : Basics s')
    (hs' : s' = s₁.goto i f pc') (hframes : s₁.frames = s.frames)
    (hexclusive : s₁.mutexExclusive = s.mutexExclusive)
    (hstage : pc'.stage f.taskState = .front none)
    (hself : pc'.hasArrived = true ∧ pc'.isPushing = false ∧
      pc'.isUndefined = false) (hnextIdx : pc'.nextIdx? = none)
    (hevs : arrivals evs = [] ∧ acquisitions evs = [] ∧
      takings evs = [] ∧ drops evs = []) :
    ∃ l', Line.Step l l' ∧ Refines (log ++ evs) s' l' := by
  subst hs'
  have hline := h.serving hat rfl
  refine ⟨_, .finish l i hline, ?_⟩
  refine h.along hat hb (by rw [goto_frames, hframes])
    (by rw [goto_mutexExclusive, hexclusive])
    (by rw [goto_mutexExclusive, hexclusive]; exact h.queue)
    (h.history.quiet rfl rfl rfl rfl hevs) (by simp [hline])
    (by simp [Line.finish]) ?_ rfl (fun _ _ _ => rfl) hself
    (by simp [hnextIdx])
  rw [hstage]
  exact l.stage_finish i hline

end Steps

/-! ## The refinement -/

/-- An existential over at most one step of the line, from exactly one. -/
theorem refines_of_step {l : Line CallId V}
    (h : ∃ l', Line.Step l l' ∧ Refines log s l') :
    ∃ l', Relation.ReflGen Line.Step l l' ∧ Refines log s l' := by
  obtain ⟨l', hstep, h'⟩ := h
  exact ⟨l', .single hstep, h'⟩

/-- A new call is outside the line. -/
theorem Refines.pushFrame {l : Line CallId V} {i : CallId} {c : Call V}
    (h : Refines log s l) (hb : Basics s')
    (hnew : s.frames i = none)
    (hs' : s' = (s.pushFrame i ⟨c, .new, c.method.entry⟩) ∨
      ∃ b m, s' = (s.pushFrame i ⟨c, .new, c.method.entry⟩).setMutex b m) :
    Refines (log ++ []) s' l := by
  have harrived := h.absent i hnew
  have hself : PcRefines l i .new (c.method.entry : Pc V R) := by
    refine ⟨?_, fun _ => harrived, ?_, ?_, by simp, ?_⟩
    · rw [l.stage_of_not_arrived harrived]
      cases c.method <;> rfl
    · cases c.method <;> simp [Method.entry, Pc.nextIdx?]
    · cases c.method <;> simp [Method.entry, Pc.isPushing]
    · cases c.method <;> rfl
  rcases hs' with rfl | ⟨b, m, rfl⟩ <;>
    exact h.move hb rfl rfl rfl ⟨rfl, rfl, rfl, rfl⟩ hself

/-- Every step without a wrong guard is matched by at most one step of the
line. -/
theorem Transition.refines {l : Line CallId V}
    (ht : Transition cfg s a s' evs) (hmatches : GuardMatches s a)
    (h : Refines log s l) :
    ∃ l', Relation.ReflGen Line.Step l l' ∧ Refines (log ++ evs) s' l' := by
  have hb := ht.basics hmatches h.basics
  cases ht
  case flip hat hlocked => exact refines_of_step (h.flip hat hlocked hb rfl)
  case push hat => exact refines_of_step (h.push hat hb rfl)
  case testFront hat hfront =>
    exact refines_of_step (h.testFront hat hfront hb rfl)
  case popFront hat hpop =>
    exact refines_of_step (h.popFront hat hpop hb rfl)
  case startCallback hat _ => exact refines_of_step (h.start hat hb rfl)
  case pop hin htask => exact refines_of_step (h.pop hin.loc htask hb rfl)
  case ret hin =>
    exact refines_of_step (h.finish s hin.loc hb rfl rfl rfl rfl
      ⟨rfl, rfl, rfl⟩ rfl ⟨rfl, rfl, rfl, rfl⟩)
  case unwind i f hd g hin =>
    exact refines_of_step (h.finish
      (s.setMutex g ((s.mutexes g).move (.leaked i))) hin.loc hb rfl rfl rfl
      rfl ⟨rfl, rfl, rfl⟩ rfl ⟨rfl, rfl, rfl, rfl⟩)
  case mutexPoisoned hat _ _ =>
    exact refines_of_step (h.drop hat rfl hb rfl)
  case queuePoisoned i f g result hat _ _ =>
    cases result with
    | process v => exact refines_of_step (h.drop hat rfl hb rfl)
    | processedElsewhere =>
        exact ⟨l, .refl, h.goto hat hb rfl rfl rfl ⟨rfl, rfl, rfl, rfl⟩ rfl
          (by simp [Pc.hasArrived]) (.inl rfl) ⟨rfl, rfl⟩⟩
    | processingPanicked =>
        exact ⟨l, .refl, h.goto hat hb rfl rfl rfl ⟨rfl, rfl, rfl, rfl⟩ rfl
          (by simp [Pc.hasArrived]) (.inl rfl) ⟨rfl, rfl⟩⟩
  case handOff hat =>
    rw [List.append_nil]
    refine refines_of_step (h.pass false hat rfl rfl rfl hb rfl rfl rfl rfl
      rfl rfl rfl rfl ?_)
    intro t hpanic
    exact ⟨t.isFront_wakeFrontTask, t.isPanic_wakeFrontTask.trans hpanic⟩
  case errHandOff hat =>
    rw [List.append_nil]
    refine refines_of_step (h.pass true hat rfl rfl rfl hb rfl rfl rfl rfl
      rfl rfl rfl rfl ?_)
    intro t _
    exact ⟨t.isFront_wakeFrontTaskPanicking, t.isPanic_wakeFrontTaskPanicking⟩
  all_goals refine ⟨l, .refl, ?_⟩
  case popNothing i f g p hat hpop =>
    obtain ⟨-, hhead⟩ := (l.stage_eq_called i _).mp (h.at hat).stage.symm
    obtain ⟨t, rest, hq, -⟩ := h.head hhead
    rw [hq] at hpop
    cases hpop
  case popPanic hin htask =>
    have hnext := h.next hin.loc
    rw [htask] at hnext
    cases hp : l.pending <;> simp [hp] at hnext
  case uninit hat hslot => exact (h.basics.slots.not_uninit hat hslot).elim
  case callProcess hnew _ _ =>
    exact h.pushFrame hb hnew (.inr ⟨_, _, rfl⟩)
  case callOther hnew _ _ => exact h.pushFrame hb hnew (.inl rfl)
  -- a call goes on without the line
  case contended hat hlocked =>
    refine h.move hb rfl rfl rfl ⟨rfl, rfl, rfl, rfl⟩ ?_
    exact {
      stage := (h.at hat).stage
      arrived := fun _ => (h.at hat).arrived rfl
      nextIdx := by simp [Pc.nextIdx?]
      pushing := fun _ => ⟨h.locked.mp hlocked, rfl⟩
      bits := by simp
      defined := rfl }
  case spuriousWake hframe hpc =>
    refine h.move hb rfl rfl rfl ⟨rfl, rfl, rfl, rfl⟩ ?_
    have hat := h.frames _ _ hframe
    rw [hpc] at hat
    exact hat.move rfl (by simp [Pc.hasArrived]) (.inl rfl) rfl rfl
  case lockPoisoned hat _ _ _ | lock hat _ _ =>
    exact h.goto hat hb rfl rfl rfl ⟨rfl, rfl, rfl, rfl⟩ rfl
      (by simp [Pc.hasArrived]) (.inl rfl) ⟨rfl, rfl⟩
  case unlocked hin =>
    exact h.goto hin.loc hb rfl rfl rfl ⟨rfl, rfl, rfl, rfl⟩ rfl
      (by simp [Pc.hasArrived]) (.inr rfl) ⟨rfl, rfl⟩
  case endUnlocked hat =>
    exact h.goto hat hb rfl rfl rfl ⟨rfl, rfl, rfl, rfl⟩ rfl
      (by simp [Pc.hasArrived]) (.inr rfl) ⟨rfl, rfl⟩
  case reLock hat _ =>
    exact h.goto hat hb rfl rfl rfl ⟨rfl, rfl, rfl, rfl⟩ rfl
      (by simp [Pc.hasArrived]) (.inr rfl) ⟨rfl, rfl⟩
  case wait hat | resumeUnwind hat | queryReturn hat | ending hat =>
    exact h.goto hat hb rfl rfl rfl ⟨rfl, rfl, rfl, rfl⟩ rfl
      (by simp [Pc.hasArrived]) (.inl rfl) ⟨rfl, rfl⟩
  case mutexGood hat _ | mutexMismatch hat _ | relock hat _ |
      testNotFront hat _ | resultProcess hat _ | resultElsewhere hat _ |
      resultPanicked hat _ | returnProcess hat _ | returnOther hat _ |
      errLock hat _ | queryGood hat _ | queryMismatch hat _ |
      queryLock hat _ | queryClear hat _ | queryRead hat _ =>
    exact h.goto hat hb rfl rfl rfl ⟨rfl, rfl, rfl, rfl⟩ rfl
      (by simp [Pc.hasArrived]) (.inl rfl) ⟨rfl, rfl⟩
  -- no call goes on
  all_goals exact h.still hb rfl rfl rfl ⟨rfl, rfl, rfl, rfl⟩

section Runs

variable {frontState : FS} {data : Addr → M} {acts : List (Action M FS V R)}

/-- Every run without wrong guards is a run of the line. -/
theorem GuardedRun.refines (h : GuardedRun cfg frontState data acts log s) :
    ∃ l, Relation.ReflTransGen Line.Step .empty l ∧ Refines log s l :=
  Machine.Exec.refines (refines_new frontState data)
    (fun _ hR hmatches hstep =>
      (transition_of_step hstep).refines hmatches hR) h

theorem Run.refines (h : Run cfg frontState data acts log s) :
    ∃ l, Relation.ReflTransGen Line.Step .empty l ∧ Refines log s l :=
  h.guarded.refines

end Runs

/-- What each call sees of the line. -/
def State.stage (s : State M FS V R) (i : CallId) : Stage V :=
  match s.frames i with
  | none => .outside
  | some f => f.pc.stage f.taskState

theorem State.stage_of_frame {i : CallId} {f : Frame V R}
    (h : s.frames i = some f) : s.stage i = f.pc.stage f.taskState := by
  unfold State.stage
  rw [h]

theorem Refines.stage_eq {l : Line CallId V} (h : Refines log s l)
    (i : CallId) : s.stage i = l.stage i := by
  unfold State.stage
  cases hf : s.frames i with
  | none => exact (l.stage_of_not_arrived (h.absent i hf)).symm
  | some f => exact (h.frames i f hf).stage

end ContentionQueue
