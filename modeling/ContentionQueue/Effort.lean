import ContentionQueue.Lib.Budget
import ContentionQueue.Nesting
import ContentionQueue.Progress
import Mathlib.Algebra.Group.Action.Defs
import Mathlib.Algebra.Order.BigOperators.Group.Finset

/-!
# How much a call does

A call does not poll.  `Frame.effort` is the number of blocks that a call may
still take, where a call that sleeps counts on being told to go on.  Every
block of the call pays for itself (`Transition.effort`), the steps of other
calls cost it nothing, and only a spurious wake-up and a call of `unlocked` add
to it.

* `call_effort` is the bound on the blocks of a call that follows.
* `drained` says that a quiet run comes to its end: from every state, the
  blocks that are left are bounded, and where none is enabled every call has
  ended.
-/

namespace ContentionQueue

open Machines State

variable {M FS V R : Type} {cfg : Config} {s s' : State M FS V R}
  {a : Action M FS V R} {evs log : List (Event V R)}
  {acts : List (Action M FS V R)} {frontState : FS} {data : Addr → M}

/-! ## Blocks -/

/-- Whether an action is a block of call `i`: a block of the source, or the
end of user code that the call waits for. -/
def Action.isBlock (i : CallId) : Action M FS V R → Bool
  | .step j => j = i
  | .callback j (.ret _) => j = i
  | .callback j .unwind => j = i
  | .callback j .endUnlocked => j = i
  | _ => false

/-- Whether an action is a spurious wake-up of call `i`. -/
def Action.isSpurious (i : CallId) : Action M FS V R → Bool
  | .spuriousWake j => j = i
  | _ => false

/-- Whether an action is a call of `unlocked` by the callback of call `i`. -/
def Action.isUnlocked (i : CallId) : Action M FS V R → Bool
  | .callback j .unlocked => j = i
  | _ => false

/-! ## Effort -/

/-- The number of blocks that a call may still take at a program counter, when
it is told to go on before it wakes up.  `front` is its `FRONT_BIT`. -/
def Pc.effort (front : Bool) : Pc V R → Nat
  | .lock _ => 15
  | .assertMutexGood _ _ => 14
  | .tryAcquireFrontFast _ _ => 13
  | .pushBack _ _ => 12
  | .wait _ => 11
  | .asleep _ => 10
  | .relock _ => if front then 10 else 13
  | .testFront _ => if front then 9 else 12
  | .popFront _ _ => 8
  | .assertQueueGood _ _ => 7
  | .assertMutexUnpoisoned _ _ => 6
  | .callback _ => 5
  | .unlocked _ => 7
  | .reLock _ => 6
  | .handOff _ _ => 3
  | .returning _ _ => 2
  | .errLock _ => 4
  | .errHandOff _ _ => 3
  | .resumeUnwind _ _ => 2
  | .queryAssert => 5
  | .queryLock => 4
  | .queryAccess _ => 3
  | .queryReturn _ _ => 2
  | .ending _ => 1
  | .done _ => 0
  | .undefined _ => 0

def Frame.effort (f : Frame V R) : Nat :=
  f.pc.effort f.taskState.isFront

/-- The effort of call `i`.  A call that has not been started may still take
all of its blocks. -/
def State.effort (s : State M FS V R) (i : CallId) : Nat :=
  match s.frames i with
  | none => 15
  | some f => f.effort

/-- What an action adds to the effort of call `i`. -/
def Action.credit (i : CallId) (a : Action M FS V R) : Nat :=
  3 * (a.isSpurious i).toNat + 2 * (a.isUnlocked i).toNat

section Effort

variable {i : CallId} {f : Frame V R} {pc pc' : Pc V R}

theorem effort_of_frame (hf : s.frames i = some f) :
    s.effort i = f.pc.effort f.taskState.isFront := by
  simp only [State.effort, hf, Frame.effort]

theorem State.At.effort (hat : s.At i f pc) :
    s.effort i = pc.effort f.taskState.isFront := by
  rw [effort_of_frame hat.frame, hat.pc]

theorem effort_update (hf : s'.frames = Function.update s.frames i (some f)) :
    s'.effort i = f.pc.effort f.taskState.isFront :=
  effort_of_frame (by rw [hf, Function.update_self])

theorem Pc.effort_le (front : Bool) (pc : Pc V R) : pc.effort front ≤ 15 := by
  cases front <;> cases pc <;> simp [Pc.effort]

/-- A wake-up costs a call nothing. -/
theorem effort_notifyOne_le (front : Bool) (pc : Pc V R) :
    pc.notifyOne.effort true ≤ pc.effort front := by
  cases pc <;> simp [Pc.notifyOne, Pc.effort]
  all_goals split_ifs <;> omega

theorem effort_wake_le {wake : TaskState → TaskState}
    (hwake : ∀ t, (wake t).isFront = true) :
    (f.wake wake).effort ≤ f.effort := by
  rw [Frame.effort, Frame.effort, Frame.wake, hwake]
  exact effort_notifyOne_le _ _

/-- A step of another call costs a call nothing. -/
theorem Transition.effort_other (ht : Transition cfg s a s' evs)
    (hi : a.call? ≠ some i) : s'.effort i ≤ s.effort i := by
  rcases ht.woken hi with hsame | ⟨_, _, _, _, -, -, -, hwoken⟩
  · rw [State.effort, State.effort, hsame]
  obtain ⟨wake, hwake, hwoken⟩ : ∃ wake : TaskState → TaskState,
      (∀ t, (wake t).isFront = true) ∧
        s'.frames i = (s.frames i).map (Frame.wake wake) := by
    rcases hwoken with ⟨_, _, -, hwoken⟩ | ⟨_, _, -, -, hwoken⟩
    · exact ⟨_, TaskState.isFront_wakeFrontTask, hwoken⟩
    · exact ⟨_, TaskState.isFront_wakeFrontTaskPanicking, hwoken⟩
  rw [State.effort, State.effort, hwoken]
  cases s.frames i with
  | none => exact le_rfl
  | some f => exact effort_wake_le hwake

/-- The effort of a call that hands the front over. -/
theorem effort_handOff {wake : TaskState → TaskState}
    (hpc : pc.notifyOne = pc)
    (hsame : ∀ front, pc.effort front = pc.effort true) :
    ((s.goto i f pc).wakeNext wake).effort i = pc.effort true := by
  rcases wakeNext_frames (s.goto i f pc) wake i with h | h <;>
    rw [goto_frames, Function.update_self] at h
  · rw [effort_of_frame h]
    exact hsame _
  · rw [effort_of_frame (f := Frame.wake wake { f with pc := pc }) h]
    exact (congrArg _ hpc).trans (hsame _)

/-- Every block of a call pays for itself. -/
theorem Transition.effort_self (ht : Transition cfg s a s' evs)
    (hi : a.call? = some i) :
    (a.isBlock i).toNat + s'.effort i ≤ s.effort i + a.credit i := by
  have hgo : ∀ {f pc pc'}, s.At i f pc →
      s'.frames = Function.update s.frames i (some { f with pc := pc' }) →
      (a.isBlock i).toNat + pc'.effort f.taskState.isFront ≤
        pc.effort f.taskState.isFront + a.credit i →
      (a.isBlock i).toNat + s'.effort i ≤ s.effort i + a.credit i := by
    intro f pc pc' hat hs' hle
    rwa [effort_update hs', hat.effort]
  have hnew : ∀ {c : Call V}, s.frames i = none → a.isBlock i = false →
      s'.frames = Function.update s.frames i
        (some ⟨c, .new, c.method.entry⟩) →
      (a.isBlock i).toNat + s'.effort i ≤ s.effort i + a.credit i := by
    intro c hnone ha hs'
    have hold : s.effort i = 15 := by rw [State.effort, hnone]
    have hentry := (c.method.entry : Pc V R).effort_le false
    rw [effort_update hs', ha, hold, TaskState.isFront_new]
    simp only [Bool.toNat_false]
    omega
  have hle := Bool.toNat_le (a.isBlock i)
  cases ht <;> cases hi
  case callProcess guard value _ _ hnone =>
    exact hnew (c := ⟨_, _, .process guard value⟩) hnone rfl rfl
  case callOther _ _ hnone => exact hnew hnone rfl rfl
  case handOff hat =>
    rw [effort_handOff rfl (fun _ => rfl), hat.effort]
    simp [Action.isBlock, Pc.effort]
  case errHandOff hat =>
    rw [effort_handOff rfl (fun _ => rfl), hat.effort]
    simp [Action.isBlock, Pc.effort]
  case contended hat =>
    rw [hat.effort, effort_update rfl]
    simp [Action.isBlock, Pc.effort]
  -- a task that has been told to go on does not wait again
  case testFront hfront hat =>
    exact hgo hat rfl (by simp [Action.isBlock, Pc.effort, hfront])
  case testNotFront hfront hat =>
    exact hgo hat rfl (by simp [Action.isBlock, Pc.effort, hfront])
  case relock hat =>
    refine hgo hat rfl ?_
    simp only [Action.isBlock, Pc.effort, decide_true, Bool.toNat_true]
    split_ifs <;> omega
  case spuriousWake hpc hframe =>
    rw [effort_of_frame hframe, hpc, effort_update rfl]
    simp only [Action.isBlock, Pc.effort, Action.credit, Action.isSpurious,
      decide_true, Bool.toNat_true, Bool.toNat_false]
    split_ifs <;> omega
  case uninit hslot hat =>
    refine hgo hat rfl ?_
    simp only [Pc.effort]
    omega
  case unlocked hin =>
    exact hgo hin.loc rfl
      (by simp [Action.isBlock, Action.credit, Action.isSpurious,
        Action.isUnlocked, Pc.effort])
  all_goals
    first
    | exact hgo ‹_› rfl (by simp [Action.isBlock, Pc.effort]; try omega)
    | exact hgo (State.InCallback.loc ‹_›) rfl
        (by simp [Action.isBlock, Pc.effort]; try omega)
    | simp [Action.isBlock, State.effort]

theorem call_of_isBlock (h : a.isBlock i = true) : a.call? = some i := by
  cases a
  case step j => simpa [Action.isBlock, Action.call?] using h
  case callback j op =>
    cases op <;> simp only [Action.isBlock, decide_eq_true_eq,
      Bool.false_eq_true] at h <;> exact congrArg some h
  all_goals cases h

/-- Every block of a call pays for itself, and nothing else costs the call
anything. -/
theorem Transition.effort (ht : Transition cfg s a s' evs) (i : CallId) :
    (a.isBlock i).toNat + s'.effort i ≤ s.effort i + a.credit i := by
  by_cases hi : a.call? = some i
  · exact ht.effort_self hi
  · have hle := ht.effort_other hi
    have hblock : a.isBlock i = false := by
      by_contra hblock
      exact hi (call_of_isBlock (Bool.eq_true_of_not_eq_false hblock))
    rw [hblock, Bool.toNat_false]
    omega

/-- A call takes at most fifteen blocks, three more for each spurious wake-up
and two more for each call of `unlocked`. -/
theorem call_effort (h : Run cfg frontState data acts log s) (i : CallId) :
    acts.countP (Action.isBlock i) + s.effort i ≤
      15 + 3 * acts.countP (Action.isSpurious i) +
        2 * acts.countP (Action.isUnlocked i) := by
  have hbudget := Machine.Exec.budget (fun s => s.effort i)
    (fun a => (a.isBlock i).toNat) (Action.credit i)
    (fun _ _ hs => (transition_of_step hs : Transition cfg _ _ _ _).effort i)
    h
  have hcredit : (acts.map (Action.credit i)).sum =
      3 * acts.countP (Action.isSpurious i) +
        2 * acts.countP (Action.isUnlocked i) := by
    unfold Action.credit
    rw [List.sum_map_add, List.sum_map_mul_left, List.sum_map_mul_left,
      Machine.sum_map_toNat, Machine.sum_map_toNat]
  rw [Machine.sum_map_toNat, hcredit] at hbudget
  have hnew : (State.new frontState data : State M FS V R).effort i = 15 := rfl
  omega

end Effort

/-- Call 1 sleeps in `handOverRun` and has been told to go on at its end. -/
theorem call_effort_handOver :
    let s := ((run ⟨.default, false⟩ 0 (fun _ => ())
      handOverRun).get (by decide)).1
    handOverRun.countP (Action.isBlock 1) + s.effort 1 ≤
      15 + 3 * handOverRun.countP (Action.isSpurious 1) +
        2 * handOverRun.countP (Action.isUnlocked 1) :=
  call_effort (Run.of_run (by decide)) 1

/-! ## The end of a run -/

/-- The actions that bring a run to its end: a block of a call, a return of a
callback or of the closure of `unlocked`, and a drop of a guard that a call
waits for. -/
def Drains (s : State M FS V R) : Action M FS V R → Prop
  | .step _ => True
  | .callback _ (.ret _) => True
  | .callback _ .endUnlocked => True
  | .unlock _ b => s.Awaited b
  | _ => False

/-- Whether user code has the guard of the mutex at `b`. -/
def State.isLent (s : State M FS V R) (b : Addr) : Bool :=
  match s.guardAt b with
  | some (.user _) => true
  | _ => false

/-- Whether a call is on its way to its first lock. -/
def Pc.isEntering : Pc V R → Bool
  | .lock _ => true
  | .queryAssert => true
  | .queryLock => true
  | _ => false

/-- No thread that is on its way to the first lock of a call has a guard in
its user code. -/
def State.EntersFree (s : State M FS V R) : Prop :=
  ∀ i f b, s.frames i = some f → f.pc.isEntering = true →
    s.guardAt b ≠ some (.user f.call.thread)

/-- What is left to do: the effort of the calls, and the guards that user code
has. -/
def State.remaining (s : State M FS V R) (calls : Finset CallId)
    (addrs : Finset Addr) : Nat :=
  2 * ∑ i ∈ calls, s.effort i + (addrs.filter fun b => s.isLent b).card

section Drains

variable {i : CallId} {f : Frame V R}

theorem quiet_of_drains (h : Drains s a) : a.Matched ∧ Quiet s a := by
  cases a
  case callback j op =>
    refine ⟨trivial, ?_⟩
    cases op <;> trivial
  all_goals first | exact ⟨trivial, trivial⟩ | exact h.elim

/-- An action that drains is a block of a call or the drop of a guard. -/
theorem drains_cases (h : Drains s a) :
    (∃ i, a.call? = some i ∧ a.isBlock i = true ∧ a.credit i = 0) ∨
      ∃ t b, a = .unlock t b ∧ s.Awaited b := by
  cases a
  case step i =>
    exact .inl ⟨i, rfl, by simp [Action.isBlock],
      by simp [Action.credit, Action.isSpurious, Action.isUnlocked]⟩
  case callback i op =>
    refine .inl ⟨i, rfl, ?_⟩
    cases op <;> first
      | exact h.elim
      | simp [Action.isBlock, Action.credit, Action.isSpurious,
          Action.isUnlocked]
  case unlock t b => exact .inr ⟨t, b, rfl, h⟩
  all_goals exact h.elim

/-- A step moves the guard of at most one mutex. -/
theorem Transition.guardAt_cases (ht : Transition cfg s a s' evs) :
    ∃ b x, s'.guardAt = Function.update s.guardAt b x := by
  have hsame : s'.guardAt = s.guardAt →
      ∃ b x, s'.guardAt = Function.update s.guardAt b x :=
    fun h => ⟨1, s.guardAt 1, by rw [h, Function.update_eq_self]⟩
  cases ht
  case handOff => exact hsame (by simp)
  case errHandOff => exact hsame (by simp)
  all_goals first | exact hsame rfl | exact ⟨_, _, guardAt_setMutex _ _ _⟩

/-- A call that has been started is there before an action that drains. -/
theorem Transition.frame_of_drains (ht : Transition cfg s a s' evs)
    (h : Drains s a) (hf : s'.frames i = some f) : (s.frames i).isSome := by
  by_contra hnone
  rw [Option.not_isSome_iff_eq_none] at hnone
  rw [ht.eq_call hnone hf] at h
  exact h

/-- What a block or the drop of a guard leaves to do. -/
theorem Transition.remaining_lt (ht : Transition cfg s a s' evs)
    (h : Drains s a) {calls : Finset CallId} {addrs : Finset Addr}
    (hcalls : ∀ i, (s.frames i).isSome → i ∈ calls)
    (haddrs : ∀ b, s.Awaited b → b ∈ addrs) :
    s'.remaining calls addrs < s.remaining calls addrs := by
  unfold State.remaining
  rcases drains_cases h with ⟨i, hi, hblock, hcredit⟩ | ⟨t, b, rfl, hb⟩
  · have heffort : ∀ j,
        s'.effort j + (if j = i then 1 else 0) ≤ s.effort j := by
      intro j
      split_ifs with hj
      · subst hj
        have hpay := ht.effort j
        rw [hblock, hcredit] at hpay
        simp only [Bool.toNat_true] at hpay
        omega
      · refine ht.effort_other fun hcall => hj ?_
        rw [hi, Option.some.injEq] at hcall
        exact hcall.symm
    have hmem : i ∈ calls := by
      obtain ⟨f, hf⟩ := Option.isSome_iff_exists.mp (ht.isSome_call hi)
      exact hcalls i (ht.frame_of_drains h hf)
    have hsum : ∑ j ∈ calls, s'.effort j < ∑ j ∈ calls, s.effort j := by
      refine Finset.sum_lt_sum (fun j _ => ?_) ⟨i, hmem, ?_⟩
      · have hj := heffort j
        omega
      · have hj := heffort i
        rw [if_pos rfl] at hj
        omega
    have hcard : (addrs.filter fun b => s'.isLent b).card ≤
        (addrs.filter fun b => s.isLent b).card + 1 := by
      obtain ⟨b₀, x, hguard⟩ := ht.guardAt_cases
      refine (Finset.card_le_card fun b hb => ?_).trans
        (Finset.card_insert_le b₀ _)
      rw [Finset.mem_filter] at hb
      rw [Finset.mem_insert, Finset.mem_filter]
      refine or_iff_not_imp_left.mpr fun hne => ⟨hb.1, ?_⟩
      rw [State.isLent, hguard, Function.update_of_ne hne] at hb
      exact hb.2
    omega
  · have heffort : ∀ j, s'.effort j ≤ s.effort j := fun j =>
      ht.effort_other (by simp [Action.call?])
    have hsum := Finset.sum_le_sum fun j (_ : j ∈ calls) => heffort j
    cases ht with
    | userUnlock huser hguard =>
        have hlent : s.isLent b = true := by
          rw [State.isLent, State.guardAt, hguard]
        have hcard : (addrs.filter fun c =>
            (s.setMutex b (s.mutexes b).unlock).isLent c).card <
              (addrs.filter fun c => s.isLent c).card := by
          refine Finset.card_lt_card ((Finset.ssubset_iff_of_subset ?_).mpr
            ⟨b, by simp [haddrs b hb, hlent], by simp [State.isLent]⟩)
          intro c hc
          rw [Finset.mem_filter] at hc ⊢
          refine ⟨hc.1, ?_⟩
          rcases eq_or_ne c b with rfl | hne
          · exact hlent
          · simpa [State.isLent, hne] using hc.2
        omega

/-- User code gets a guard from an action that drains when `process` returns
the guard that it was given. -/
theorem Transition.lent_before (ht : Transition cfg s a s' evs)
    (h : Drains s a) {b : Addr} {t : ThreadId}
    (hg : s'.guardAt b = some (.user t)) :
    s.guardAt b = some (.user t) ∨
      ∃ i f g r, s.At i f (.returning g r) ∧ f.call.thread = t := by
  have hupdate : ∀ {c : Addr} {p : Option Place},
      s'.guardAt = Function.update s.guardAt c p → p ≠ some (.user t) →
        s.guardAt b = some (.user t) := by
    intro c p heq hp
    rw [heq] at hg
    rcases eq_or_ne b c with rfl | hne
    · rw [Function.update_self] at hg
      exact absurd hg hp
    · rwa [Function.update_of_ne hne] at hg
  cases ht <;> try exact h.elim
  case returnProcess i f g result guard value hat hmethod =>
    rcases eq_or_ne b g with rfl | hne
    · refine .inr ⟨i, f, b, result, hat, ?_⟩
      simpa using hg
    · exact .inl (by simpa [hne] using hg)
  case handOff => exact .inl (by simpa using hg)
  case errHandOff => exact .inl (by simpa using hg)
  all_goals
    first
    | exact .inl hg
    | exact .inl (hupdate (guardAt_setMutex _ _ _) (by simp))

/-- A call that is on its way to its first lock was so before. -/
theorem Transition.entering_before (ht : Transition cfg s a s' evs)
    (h : Drains s a) (hf : s'.frames i = some f)
    (hpc : f.pc.isEntering = true) :
    ∃ f₀, s.frames i = some f₀ ∧ f.call = f₀.call ∧
      f₀.pc.isEntering = true := by
  have hself : a.call? = some i → ∃ f₀, s.frames i = some f₀ ∧
      f.call = f₀.call ∧ f₀.pc.isEntering = true := by
    intro hi
    cases ht <;> cases hi <;> try exact h.elim
    case queryGood hat =>
      obtain rfl := frame_of_update hf
      exact ⟨_, hat.frame, rfl, by rw [hat.pc]; rfl⟩
    case handOff =>
      rw [pc_of_handOff hf rfl] at hpc
      cases hpc
    case errHandOff =>
      rw [pc_of_handOff hf rfl] at hpc
      cases hpc
    all_goals
      obtain rfl := frame_of_update hf
      cases hpc
  by_cases hi : a.call? = some i
  · exact hself hi
  · refine ht.pc_before hi hf (q := fun pc => pc.isEntering = true) ?_ hpc
    intro pc hpc
    cases pc <;> exact hpc

/-- An action that drains keeps the threads that are on their way to a first
lock free of guards. -/
theorem Transition.entersFree (ht : Transition cfg s a s' evs)
    (hrun : QuietRun cfg frontState data acts log s) (hdrains : Drains s a)
    (h : s.EntersFree) : s'.EntersFree := by
  intro i f b hf hpc hg
  obtain ⟨f₀, hf₀, hcall, hpc₀⟩ := ht.entering_before hdrains hf hpc
  rw [hcall] at hg
  rcases ht.lent_before hdrains hg with hg | ⟨j, f', g, r, hat, hthread⟩
  · exact h i f₀ b hf₀ hpc₀ hg
  -- the thread is in one call only
  have hlive : f₀.pc.isLive = true := by
    cases hp : f₀.pc <;> rw [hp] at hpc₀ <;> first | rfl | cases hpc₀
  obtain rfl := (hrun.at hf₀ hlive).2.eq_of_thread hat hthread.symm
  rw [hat.pc_eq hf₀] at hpc₀
  cases hpc₀

/-- While a call has not ended, somebody can move. -/
theorem QuietRun.moves (h : QuietRun cfg frontState data acts log s)
    (hf : s.frames i = some f) (hlive : f.pc.isLive = true) :
    s.Moves cfg := by
  have hregistered : ∀ {j f'}, s.frames j = some f' →
      f'.pc.isRegistered = true → s.Moves cfg := by
    intro j f' hf' hreg
    by_cases hasleep : ∃ g, f'.pc = .asleep g
    · obtain ⟨g, hg⟩ := hasleep
      exact h.moves_of_asleep hf' hg
    · exact h.moves_of_registered hf' hreg fun g hg => hasleep ⟨g, hg⟩
  cases hreg : f.pc.isRegistered with
  | true => exact hregistered hf hreg
  | false =>
      have hasleep : ∀ g, f.pc ≠ .asleep g := by
        intro g hg
        rw [hg] at hreg
        cases hreg
      rcases h.canGo hf hlive hasleep with hmoves | ⟨b, p, hwants, hg⟩
      · exact hmoves
      rcases h.owner ⟨i, f, hf, hwants⟩ hg with
        hmoves | ⟨k, f', -, hf', hreg', -⟩
      · exact hmoves
      · exact hregistered hf' hreg'

/-- Where nothing that drains is enabled, every call has ended. -/
theorem QuietRun.all_ended [Inhabited R]
    (h : QuietRun cfg frontState data acts log s) (hfree : s.EntersFree)
    (hstop : ∀ a, Drains s a → ¬ (machine M FS V R cfg).Enabled s a) :
    ∀ i, ¬ s.IsLive i := by
  rintro i ⟨f, hf, hlive⟩
  rcases h.moves hf hlive with ⟨j, -, hgo⟩ | ⟨t, b, hb, -, hunlock⟩ |
    ⟨t, b, j, f', -, hg, hf', hthread, hfirst, -⟩
  · cases hgo with
    | step hstep => exact hstop (.step j) trivial hstep
    | callback hop =>
        exact hstop (.callback j (.ret default)) trivial
          (hop (.ret default) (by simp))
    | endUnlocked hend => exact hstop (.callback j .endUnlocked) trivial hend
  · exact hstop (.unlock t b) hb hunlock
  · refine hfree j f' b hf' ?_ (hthread ▸ hg)
    cases hp : f'.pc <;> rw [hp] at hfirst <;> first | rfl | cases hfirst

/-- The calls that were started. -/
def Action.started? : Action M FS V R → Option (CallId × Call V)
  | .call i c => some (i, c)
  | _ => none

def started (acts : List (Action M FS V R)) : List (CallId × Call V) :=
  acts.filterMap Action.started?

theorem mem_started {c : Call V} (h : .call i c ∈ acts) :
    (i, c) ∈ started acts :=
  List.mem_filterMap.mpr ⟨_, h, rfl⟩

theorem effort_le (s : State M FS V R) (i : CallId) : s.effort i ≤ 15 := by
  unfold State.effort
  cases s.frames i with
  | none => exact le_rfl
  | some f => exact f.pc.effort_le _

/-- What is left to do in a state, when `acts` has started its calls. -/
theorem remaining_le (s : State M FS V R) (acts : List (Action M FS V R)) :
    s.remaining ((started acts).map Prod.fst).toFinset
      ((started acts).map fun c => c.2.mutex).toFinset ≤
        31 * (started acts).length := by
  have hcalls := List.toFinset_card_le ((started acts).map Prod.fst)
  have haddrs := List.toFinset_card_le
    ((started acts).map fun c => c.2.mutex)
  rw [List.length_map] at hcalls haddrs
  have hsum : ∑ i ∈ ((started acts).map Prod.fst).toFinset, s.effort i ≤
      ((started acts).map Prod.fst).toFinset.card • 15 :=
    Finset.sum_le_card_nsmul _ _ _ fun i _ => effort_le s i
  rw [smul_eq_mul] at hsum
  have hfilter := Finset.card_filter_le
    ((started acts).map fun c => c.2.mutex).toFinset fun b => s.isLent b
  unfold State.remaining
  omega

/-- A quiet run together with a part that drains. -/
theorem QuietRun.trans_drains (h : QuietRun cfg frontState data acts log s)
    {acts₂ : List (Action M FS V R)} {log₂ : List (Event V R)}
    (h₂ : (machine M FS V R cfg).Exec Drains s acts₂ log₂ s') :
    QuietRun cfg frontState data (acts ++ acts₂) (log ++ log₂) s' :=
  Machine.Exec.trans h (h₂.mono fun _ _ => quiet_of_drains)

/-- The calls of a run that has been drained for a while were started
before. -/
theorem QuietRun.started_of_drains
    (h : QuietRun cfg frontState data acts log s)
    {acts₂ : List (Action M FS V R)} {log₂ : List (Event V R)}
    (h₂ : (machine M FS V R cfg).Exec Drains s acts₂ log₂ s')
    (hf : s'.frames i = some f) : (i, f.call) ∈ started acts := by
  refine mem_started ?_
  rcases List.mem_append.mp ((h.trans_drains h₂).run.call_mem hf) with
    hmem | hmem
  · exact hmem
  · have hnone := h₂.forall_mem
      (P := fun a : Action M FS V R => ∀ i c, a ≠ .call i c) ?_ _ hmem
    · exact absurd rfl (hnone i f.call)
    · rintro s a hdrains i c rfl
      exact hdrains

end Drains

/-- A quiet run comes to its end.  When no thread that is on its way to a first
lock has a guard in its user code, the actions that drain the queue are
bounded by the number of calls, whatever their order, and where none of them is
enabled every call has ended. -/
theorem drained [Inhabited R] (h : QuietRun cfg frontState data acts log s)
    (hfree : s.EntersFree) {acts₂ : List (Action M FS V R)}
    {log₂ : List (Event V R)}
    (h₂ : (machine M FS V R cfg).Exec Drains s acts₂ log₂ s') :
    acts₂.length ≤ 31 * (started acts).length ∧
      ((∀ a, Drains s' a → ¬ (machine M FS V R cfg).Enabled s' a) →
        ∀ i, ¬ s'.IsLive i) := by
  constructor
  · refine (Machine.Exec.length_le (fun s =>
      s.remaining ((started acts).map Prod.fst).toFinset
        ((started acts).map fun c => c.2.mutex).toFinset) ?_ h₂).trans
      (remaining_le s acts)
    intro acts₁ log₁ s₁ a s₂ evs run hdrains hstep
    refine (transition_of_step hstep).remaining_lt hdrains ?_ ?_
    · intro i hsome
      obtain ⟨f, hf⟩ := Option.isSome_iff_exists.mp hsome
      exact List.mem_toFinset.mpr (List.mem_map.mpr
        ⟨_, h.started_of_drains run hf, rfl⟩)
    · rintro b ⟨i, f, hf, hwants⟩
      have hb := (h.trans_drains run).run.basics
      exact List.mem_toFinset.mpr (List.mem_map.mpr
        ⟨_, h.started_of_drains run hf, (hb.wants_eq hf hwants).symm⟩)
  · intro hstop
    refine (h.trans_drains h₂).all_ended ?_ hstop
    clear hstop
    induction h₂ with
    | nil => exact hfree
    | snoc run hdrains hstep ih =>
        exact (transition_of_step hstep).entersFree (h.trans_drains run)
          hdrains ih

/-- Call 1 sleeps while the callback of call 0 is in `unlocked`. -/
def waitingRun : List (Action Unit Nat Nat Nat) :=
  [.call 0 ⟨0, 1, .lockAndProcess 10⟩, .step 0, .step 0, .step 0, .step 0,
    .callback 0 .unlocked,
    .call 1 ⟨1, 1, .lockAndProcess 20⟩, .step 1, .step 1, .step 1, .step 1,
    .step 1]

/-- The callback of call 0 goes on and returns, and then call 1 is served. -/
def drainingRun : List (Action Unit Nat Nat Nat) :=
  [.callback 0 .endUnlocked, .step 0, .callback 0 (.ret 5), .step 0, .step 0,
    .step 0, .step 1, .step 1, .step 1, .step 1, .step 1, .callback 1 (.ret 6),
    .step 1, .step 1, .step 1]

theorem drained_waiting :
    let start := ((quietRun ⟨.default, false⟩ 0 (fun _ => ())
      waitingRun).get (by decide)).1
    let stop := (((machine Unit Nat Nat Nat ⟨.default, false⟩).exec
      (fun _ a => a ∈ drainingRun) start drainingRun).get (by decide)).1
    drainingRun.length ≤ 31 * (started waitingRun).length ∧
      ((∀ a, Drains stop a →
        ¬ (machine Unit Nat Nat Nat ⟨.default, false⟩).Enabled stop a) →
          ∀ i, ¬ stop.IsLive i) := by
  refine drained (QuietRun.of_quietRun (by decide)) ?_
    (Machine.Exec.mono ?_ (Machine.Exec.of_isSome (by decide)))
  · intro i f b hf hpc
    match i with
    | 0 => cases hf; cases hpc
    | 1 => cases hf; cases hpc
    | i + 2 => cases hf
  · intro s a ha
    simp only [drainingRun, List.mem_cons, List.not_mem_nil, or_false] at ha
    rcases ha with rfl | rfl | rfl | rfl | rfl | rfl | rfl | rfl | rfl | rfl |
      rfl | rfl | rfl | rfl | rfl <;> exact trivial

end ContentionQueue
