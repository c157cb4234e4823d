import ContentionQueue.Lib.Sequential
import ContentionQueue.Poison

/-!
# The queue poison as one flag

`queue_poisoned` is set by the `Err` branch, cleared through
`clear_queue_poison` of the queue and of the handle, and asked for through
`is_queue_poisoned` of the queue and of the handle and by the assertion after a
wait.  This module shows that all of them act as if the flag was a sequential
object: an answer is not out of date as long as its call has the mutex, and the
queue is not poisoned when `clear_queue_poison` drops its guard.

* `poisonFlag` is the object, and `poisonOps` reads the operations off a step.
  The methods of the queue count when they drop their guard, after the access
  and before they return, so what they did to the flag must still stand then.
* `State.PoisonOk` is the invariant, and `Transition.poisonOk` its step lemma.
* `queue_poison_linearizes` is the result.
-/

namespace ContentionQueue

open Machines State Sequential

variable {M FS V R : Type} {cfg : Config} {s s' : State M FS V R}
  {a : Action M FS V R} {evs log : List (Event V R)}
  {acts : List (Action M FS V R)} {frontState : FS} {data : Addr → M}
  {i : CallId} {f : Frame V R}

/-! ## The flag and its operations -/

/-- What is done with the queue poison. -/
inductive PoisonOp where
  | poison
  | clear
  | ask
  deriving DecidableEq, Repr

/-- A flag.  Only a question has an answer. -/
def poisonFlag : Object Bool PoisonOp (Option Bool) where
  next := fun b op =>
    match op with
    | .poison => true
    | .clear => false
    | .ask => b
  output := fun b op =>
    match op with
    | .ask => some b
    | _ => none

/-- The operations on the queue poison, each with its call and its answer. -/
abbrev PoisonLog := Log CallId PoisonOp (Option Bool)

/-- The operation that an event shows. -/
def Event.poisonOp? : Event V R → Option ((CallId × PoisonOp) × Option Bool)
  | .isQueuePoisoned i b => some ((i, .ask), some b)
  | .leave i (.answered (some b)) => some ((i, .ask), some b)
  | .leave i (.answered none) => some ((i, .clear), none)
  | _ => none

/-- The operation of a block that shows no answer.  The assertion after a wait
asks, and its answer is whether it fails. -/
def Pc.poisonOp? (cfg : Config) (failed : Bool) :
    Pc V R → Option (PoisonOp × Option Bool)
  | .errHandOff _ _ => some (.poison, none)
  | .assertQueueGood _ _ =>
      if cfg.options.unwrapQueuePoison then some (.ask, some failed) else none
  | _ => none

/-- The operations of a step. -/
def poisonOps (cfg : Config) (s : State M FS V R) (a : Action M FS V R)
    (evs : List (Event V R)) : PoisonLog :=
  match a with
  | .step i =>
      match (s.frames i).bind fun f => f.pc.poisonOp? cfg (!evs.isEmpty) with
      | some (op, answer) => [((i, op), answer)]
      | none => evs.filterMap Event.poisonOp?
  | .callback i .clearQueuePoison => [((i, .clear), none)]
  | _ => evs.filterMap Event.poisonOp?

/-- The operations of a run, from one state to another. -/
def PoisonRun (cfg : Config) (frontState : FS) (data : Addr → M)
    (acts : List (Action M FS V R)) (log : List (Event V R))
    (s : State M FS V R) (ops : PoisonLog) : Prop :=
  ((machine M FS V R cfg).observe fun ops s a evs =>
    ops ++ poisonOps cfg s a evs).Exec (fun _ a => a.Matched)
      (State.new frontState data, []) acts log (s, ops)

/-! ## The operations of a step -/

/-- `clear_queue_poison` has cleared the flag and still has the mutex. -/
def Pc.isClearing : Pc V R → Bool
  | .queryReturn _ none => true
  | _ => false

/-- The answer of a call that still has the mutex is up to date, and what was
cleared is clear. -/
def Frame.AnswerOk (poisoned : Bool) (f : Frame V R) : Prop :=
  ∀ g answer, f.pc = .queryReturn g answer → poisoned = answer.getD false

/-- The step does nothing to the flag that counts yet. -/
structure PoisonQuiet (cfg : Config) (s : State M FS V R)
    (a : Action M FS V R) (s' : State M FS V R) (evs : List (Event V R)) :
    Prop where
  ops : poisonOps cfg s a evs = []
  same : s'.mutexExclusive.queuePoisoned = s.mutexExclusive.queuePoisoned
  not_clearing : ∀ i f, a.call? = some i → s.frames i = some f →
    f.pc.isClearing = false

/-- The step of call `i` does `op`, and call `i` has the mutex. -/
structure PoisonDone (cfg : Config) (s : State M FS V R)
    (a : Action M FS V R) (s' : State M FS V R) (evs : List (Event V R))
    (i : CallId) (op : PoisonOp) : Prop where
  call : a.call? = some i
  inside : s.Inside i
  ops : poisonOps cfg s a evs =
    [((i, op), poisonFlag.output s.mutexExclusive.queuePoisoned op)]
  next : s'.mutexExclusive.queuePoisoned =
    poisonFlag.next s.mutexExclusive.queuePoisoned op
  clearing : ∀ f, s.frames i = some f → f.pc.isClearing = true → op = .clear

theorem State.At.poisonOps_some {pc : Pc V R} {op : PoisonOp}
    {answer : Option Bool} (hat : s.At i f pc)
    (hop : pc.poisonOp? cfg (!evs.isEmpty) = some (op, answer)) :
    poisonOps cfg s (.step i) evs = [((i, op), answer)] := by
  simp [poisonOps, hat.frame, hat.pc, hop]

theorem State.At.poisonOps_none {pc : Pc V R} (hat : s.At i f pc)
    (hop : pc.poisonOp? cfg (!evs.isEmpty) = none) :
    poisonOps cfg s (.step i) evs = evs.filterMap Event.poisonOp? := by
  simp [poisonOps, hat.frame, hat.pc, hop]

/-- A step of a call that has nothing to do with the flag. -/
theorem State.At.poisonQuiet {pc : Pc V R} (hat : s.At i f pc)
    (hcall : a.call? = some i) (hops : poisonOps cfg s a evs = [])
    (hclear : pc.isClearing = false)
    (hsame : s'.mutexExclusive.queuePoisoned =
      s.mutexExclusive.queuePoisoned) :
    PoisonQuiet cfg s a s' evs where
  ops := hops
  same := hsame
  not_clearing := by
    intro j f' hj hf'
    obtain rfl : i = j := Option.some.inj (hcall.symm.trans hj)
    rwa [hat.pc_eq hf']

/-- An operation of a call that was not clearing the flag already. -/
theorem State.At.poisonDone {pc : Pc V R} {op : PoisonOp} (hat : s.At i f pc)
    (hcall : a.call? = some i) (hinside : s.Inside i)
    (hops : poisonOps cfg s a evs =
      [((i, op), poisonFlag.output s.mutexExclusive.queuePoisoned op)])
    (hclear : pc.isClearing = false)
    (hnext : s'.mutexExclusive.queuePoisoned =
      poisonFlag.next s.mutexExclusive.queuePoisoned op) :
    PoisonDone cfg s a s' evs i op where
  call := hcall
  inside := hinside
  ops := hops
  next := hnext
  clearing := by
    intro f' hf' hclearing
    rw [hat.pc_eq hf', hclear] at hclearing
    cases hclearing

/-- The assertion after a wait passes. -/
theorem State.At.poison_passed {g : Addr} {result : TaskWaitResult V}
    (hat : s.At i f (.assertQueueGood g result)) (hinside : s.Inside i)
    (hgood : cfg.options.unwrapQueuePoison = true →
      s.mutexExclusive.queuePoisoned = false)
    (hsame : s'.mutexExclusive.queuePoisoned =
      s.mutexExclusive.queuePoisoned) :
    PoisonQuiet cfg s (.step i) s' [] ∨
      PoisonDone cfg s (.step i) s' [] i .ask := by
  cases hunwrap : cfg.options.unwrapQueuePoison
  · refine .inl (hat.poisonQuiet rfl ?_ rfl hsame)
    exact hat.poisonOps_none (by simp [Pc.poisonOp?, hunwrap])
  · refine .inr (hat.poisonDone rfl hinside (hat.poisonOps_some ?_) rfl hsame)
    simp [Pc.poisonOp?, hunwrap, poisonFlag, hgood hunwrap]

/-- What a step does to the flag. -/
theorem Transition.poison_cases (ht : Transition cfg s a s' evs)
    (hb : Basics s)
    (hok : AllFrames (Frame.AnswerOk s.mutexExclusive.queuePoisoned)
      s.frames) :
    PoisonQuiet cfg s a s' evs ∨
      (poisonOps cfg s a evs = [] ∧
        ∃ i f, s'.frames i = some f ∧ f.pc.isClearing = true) ∨
      ∃ i op, PoisonDone cfg s a s' evs i op := by
  have hinside : ∀ {j f pc g}, s.At j f pc → pc.isRegistered = true →
      pc.guard? = some g → s.Inside j := by
    intro j f pc g hat hreg hguard
    exact hb.inside hat.frame (by rwa [hat.pc]) (by rwa [hat.pc])
  cases ht
  case errHandOff hat =>
    exact .inr (.inr ⟨_, .poison, hat.poisonDone rfl (hinside hat rfl rfl)
      (hat.poisonOps_some rfl) rfl (wakeNext_queuePoisoned _ _)⟩)
  case queuePoisoned hat hunwrap hpoison =>
    refine .inr (.inr ⟨_, .ask, hat.poisonDone rfl (hinside hat rfl rfl)
      (hat.poisonOps_some ?_) rfl rfl⟩)
    simp [Pc.poisonOp?, hunwrap, poisonFlag, hpoison]
  case resultProcess hat hgood | resultElsewhere hat hgood |
      resultPanicked hat hgood =>
    refine (hat.poison_passed (hinside hat rfl rfl) hgood ?_).imp id
      fun hdone => .inr ⟨_, _, hdone⟩
    rfl
  case queryClear i f g hat hmethod =>
    refine .inr (.inl ⟨hat.poisonOps_none rfl, i,
      { f with pc := .queryReturn g none }, ?_, rfl⟩)
    exact Function.update_self ..
  case queryReturn i f g answer hat =>
    have hans := hok i f hat.frame g answer hat.pc
    have hin := hinside hat rfl rfl
    cases answer
    case some b =>
      obtain rfl : _ = b := hans
      exact .inr (.inr ⟨i, .ask, hat.poisonDone rfl hin
        (hat.poisonOps_none rfl) rfl rfl⟩)
    case none =>
      exact .inr (.inr ⟨i, .clear, rfl, hin, hat.poisonOps_none rfl, hans,
        fun _ _ _ => rfl⟩)
  case clearQueuePoison hin =>
    exact .inr (.inr ⟨_, .clear, hin.loc.poisonDone rfl
      (hinside hin.loc rfl hin.guard) rfl rfl rfl⟩)
  case isQueuePoisoned hin =>
    exact .inr (.inr ⟨_, .ask, hin.loc.poisonDone rfl
      (hinside hin.loc rfl hin.guard) rfl rfl rfl⟩)
  case peek hin _ | peekPanic hin _ | pop hin _ | popPanic hin _ |
      popNone hin _ | mutexState hin | frontState hin | unlocked hin |
      ret hin | unwind hin =>
    exact .inl (hin.loc.poisonQuiet rfl rfl rfl rfl)
  case frontUnlocked hat | endUnlocked hat =>
    exact .inl (hat.poisonQuiet rfl rfl rfl rfl)
  case uninit hat hslot => exact (hb.slots.not_uninit hat hslot).elim
  case callProcess hnew _ _ | callOther hnew _ _ =>
    refine .inl ⟨rfl, rfl, ?_⟩
    intro j f hj hf
    cases hj
    cases hf.symm.trans hnew
  case spuriousWake hframe hpc =>
    refine .inl ⟨rfl, rfl, ?_⟩
    intro j f hj hf
    cases hj
    obtain rfl := Option.some.inj (hframe.symm.trans hf)
    rw [hpc]
    rfl
  case userLock | userUnlock | poison | clearPoison | releaseLeaked =>
    refine .inl ⟨rfl, rfl, ?_⟩
    intro j f hj
    cases hj
  case handOff hat =>
    exact .inl (hat.poisonQuiet rfl (hat.poisonOps_none rfl) rfl
      (wakeNext_queuePoisoned _ _))
  case popFront hat hpop =>
    obtain ⟨t, -, -, hx⟩ := MutexExclusive.popFront_eq_some hpop
    have hsame := congrArg MutexExclusive.queuePoisoned hx
    exact .inl (hat.poisonQuiet rfl (hat.poisonOps_none rfl) rfl hsame)
  all_goals
    exact .inl (State.At.poisonQuiet ‹_› rfl
      (State.At.poisonOps_none ‹_› rfl) rfl rfl)

/-! ## The invariant -/

/-- What holds of the state after the operations `ops`. -/
structure State.PoisonOk (s : State M FS V R) (ops : PoisonLog) : Prop where
  answers : AllFrames (Frame.AnswerOk s.mutexExclusive.queuePoisoned) s.frames
  accepts : poisonFlag.Accepts false ops
  flag : AllFrames (fun f => f.pc.isClearing = false) s.frames →
    s.mutexExclusive.queuePoisoned = poisonFlag.run false (ops.map Prod.fst)

/-- A call that answers has the mutex. -/
theorem Basics.inside_of_answer (hb : Basics s) {g : Addr}
    {answer : Option Bool} (hf : s.frames i = some f)
    (hpc : f.pc = .queryReturn g answer) : s.Inside i :=
  hb.inside hf (by rw [hpc]; rfl) (by rw [hpc]; rfl)

theorem notifyOne_eq_queryReturn {pc : Pc V R} {g : Addr}
    {answer : Option Bool} :
    pc.notifyOne = .queryReturn g answer ↔ pc = .queryReturn g answer := by
  cases pc <;> simp [Pc.notifyOne]

@[simp] theorem isClearing_notifyOne (pc : Pc V R) :
    pc.notifyOne.isClearing = pc.isClearing := by
  cases pc <;> rfl

theorem entry_ne_queryReturn (m : Method V) {g : Addr}
    {answer : Option Bool} :
    (m.entry : Pc V R) ≠ .queryReturn g answer := by
  cases m <;> simp [Method.entry]

/-- The answer of a call that a step is about is up to date. -/
theorem Transition.answerOk_self (ht : Transition cfg s a s' evs)
    (hi : a.call? = some i) (hf : s'.frames i = some f) :
    f.AnswerOk s'.mutexExclusive.queuePoisoned := by
  intro g answer hpc
  cases ht <;> cases hi
  case queryClear | queryRead =>
    obtain rfl := frame_of_update hf
    cases hpc
    rfl
  case callOther c _ _ _ =>
    obtain rfl := frame_of_update hf
    exact absurd hpc (entry_ne_queryReturn c.method)
  case handOff | errHandOff =>
    rw [pc_of_handOff hf rfl] at hpc
    cases hpc
  case peek _ hin | peekPanic _ hin | popNone _ hin | isQueuePoisoned hin |
      clearQueuePoison hin | frontState hin | mutexState hin =>
    cases (hin.loc.pc_eq hf).symm.trans hpc
  case frontUnlocked hat => cases (hat.pc_eq hf).symm.trans hpc
  all_goals
    obtain rfl := frame_of_update hf
    cases hpc

/-- The answers stay up to date: no call changes the flag while another one
answers. -/
theorem Transition.answerOk (ht : Transition cfg s a s' evs) (hb : Basics s)
    (h : AllFrames (Frame.AnswerOk s.mutexExclusive.queuePoisoned) s.frames) :
    AllFrames (Frame.AnswerOk s'.mutexExclusive.queuePoisoned) s'.frames := by
  intro i f hf
  by_cases hi : a.call? = some i
  · exact ht.answerOk_self hi hf
  · intro g answer hpc
    obtain ⟨f₀, hf₀, -, hpc₀⟩ := ht.pc_before hi hf
      (q := (· = .queryReturn g answer))
      (fun _ => notifyOne_eq_queryReturn.mp) hpc
    rw [ht.queuePoisoned_eq hb (hb.inside_of_answer hf₀ hpc₀) hi]
    exact h i f₀ hf₀ g answer hpc₀

/-- A call that has cleared the flag and not left has a guard of the registered
mutex. -/
theorem Basics.inside_of_clearing (hb : Basics s) (hf : s.frames i = some f)
    (hclear : f.pc.isClearing = true) : s.Inside i := by
  unfold Pc.isClearing at hclear
  split at hclear
  · rename_i hpc
    exact hb.inside_of_answer hf hpc
  · cases hclear

/-- While a call does something to the flag, no other call has cleared it and
not left. -/
theorem PoisonDone.flag {op : PoisonOp} {ops : PoisonLog}
    (hdone : PoisonDone cfg s a s' evs i op) (hb : Basics s)
    (h : s.PoisonOk ops) :
    op = .clear ∨ s.mutexExclusive.queuePoisoned =
      poisonFlag.run false (ops.map Prod.fst) := by
  by_cases hclearing : ∃ f, s.frames i = some f ∧ f.pc.isClearing = true
  · obtain ⟨f, hf, hclear⟩ := hclearing
    exact .inl (hdone.clearing f hf hclear)
  refine .inr (h.flag fun j f hf => ?_)
  by_contra hnot
  have hclear : f.pc.isClearing = true := by simpa using hnot
  obtain rfl := hb.exclusive (hb.inside_of_clearing hf hclear) hdone.inside
  exact hclearing ⟨f, hf, hclear⟩

/-- The step lemma. -/
theorem Transition.poisonOk (ht : Transition cfg s a s' evs) (hb : Basics s)
    {ops : PoisonLog} (h : s.PoisonOk ops) :
    s'.PoisonOk (ops ++ poisonOps cfg s a evs) := by
  have hanswers := ht.answerOk hb h.answers
  rcases ht.poison_cases hb h.answers with hquiet | ⟨hops, i, f, hf, hclear⟩ |
    ⟨i, op, hdone⟩
  · rw [hquiet.ops, List.append_nil]
    refine ⟨hanswers, h.accepts, fun hnone => ?_⟩
    rw [hquiet.same]
    refine h.flag fun i f hf => ?_
    by_cases hi : a.call? = some i
    · exact hquiet.not_clearing i f hi hf
    obtain ⟨f', hf', -, hpc | hpc⟩ := ht.frame_after hi hf
    · rw [← hpc]
      exact hnone i f' hf'
    · rw [← isClearing_notifyOne, ← hpc]
      exact hnone i f' hf'
  · rw [hops, List.append_nil]
    refine ⟨hanswers, h.accepts, fun hnone => ?_⟩
    have hfalse : f.pc.isClearing = false := hnone i f hf
    rw [hclear] at hfalse
    cases hfalse
  · rw [hdone.ops]
    rcases hdone.flag hb h with rfl | hflag
    · refine ⟨hanswers, h.accepts.concat rfl, fun _ => ?_⟩
      have hclear : poisonFlag.next s.mutexExclusive.queuePoisoned .clear =
          poisonFlag.next (poisonFlag.run false (ops.map Prod.fst)) .clear :=
        rfl
      rw [hdone.next, hclear, List.map_append]
      exact Object.run_concat.symm
    · refine ⟨hanswers, h.accepts.concat (by rw [hflag]), fun _ => ?_⟩
      rw [hdone.next, hflag, List.map_append]
      exact Object.run_concat.symm

/-! ## Runs -/

theorem poisonOk_new (frontState : FS) (data : Addr → M) :
    (State.new frontState data : State M FS V R).PoisonOk [] where
  answers := by simp [AllFrames, State.new]
  accepts := rfl
  flag := fun _ => rfl

/-- The invariant holds of every run. -/
theorem PoisonRun.poisonOk {ops : PoisonLog}
    (h : PoisonRun cfg frontState data acts log s ops) : s.PoisonOk ops := by
  have hall : Run cfg frontState data acts log s ∧ s.PoisonOk ops := by
    unfold PoisonRun at h
    generalize hp : (s, ops) = p at h
    induction h generalizing s ops with
    | nil =>
        cases hp
        exact ⟨.nil, poisonOk_new frontState data⟩
    | snoc run hallow hstep ih =>
        rename_i p a evs p'
        obtain ⟨s₁, ops₁⟩ := p
        obtain ⟨run, hok⟩ := ih rfl
        subst hp
        obtain ⟨hs, rfl⟩ := Machine.step_of_observe hstep
        have ht := transition_of_step hs
        exact ⟨.snoc run hallow hs, ht.poisonOk (Run.basics run) hok⟩
  exact hall.2

/-- The queue poison is one flag.  In every run the answers of
`is_queue_poisoned`, of the queue and of the handle, and the outcomes of the
assertions after a wait are the answers of the flag, where the operations come
one after the other: the methods of the queue in the order in which they drop
their guards, and all others when they are done.  When no `clear_queue_poison`
is between its access and its drop of the guard, `queue_poisoned` is the flag
after these operations. -/
theorem queue_poison_linearizes (h : Run cfg frontState data acts log s) :
    ∃ ops, PoisonRun cfg frontState data acts log s ops ∧
      poisonFlag.Accepts false ops ∧
      (AllFrames (fun f => f.pc.isClearing = false) s.frames →
        s.mutexExclusive.queuePoisoned =
          poisonFlag.run false (ops.map Prod.fst)) := by
  obtain ⟨ops, hrun⟩ := Machine.Exec.observed
    (fun ops s a evs => ops ++ poisonOps cfg s a evs) [] h
  have hok := PoisonRun.poisonOk hrun
  exact ⟨ops, hrun, hok.accepts, hok.flag⟩

/-- After `poisonedRun` call 1 asks for the queue poison while call 3 waits for
the mutex.  Call 2 clears the poison, and then call 3 asks. -/
def askingRun : List (Action Unit Nat Nat Nat) :=
  poisonedRun ++ [.call 1 ⟨1, 1, .isQueuePoisoned⟩, .step 1, .step 1,
    .call 3 ⟨3, 1, .isQueuePoisoned⟩, .step 3, .step 1, .step 1,
    .call 2 ⟨2, 1, .clearQueuePoison⟩, .step 2, .step 2, .step 2, .step 2,
    .step 3, .step 3, .step 3]

/-- In `askingRun` call 1 is told that the queue is poisoned, and call 3 that it
is not. -/
theorem queue_poison_linearizes_asking :
    let r := (run ⟨.default, false⟩ 0 (fun _ => ())
      askingRun).get (by decide)
    .leave 1 (.answered (some true)) ∈ r.2 ∧
      .leave 3 (.answered (some false)) ∈ r.2 ∧
      ∃ ops, PoisonRun ⟨.default, false⟩ 0 (fun _ => ()) askingRun r.2 r.1
          ops ∧
        poisonFlag.Accepts false ops ∧
        (AllFrames (fun f => f.pc.isClearing = false) r.1.frames →
          r.1.mutexExclusive.queuePoisoned =
            poisonFlag.run false (ops.map Prod.fst)) :=
  ⟨by decide, by decide, queue_poison_linearizes (Run.of_run (by decide))⟩

end ContentionQueue
