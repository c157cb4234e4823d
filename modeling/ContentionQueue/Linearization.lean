import ContentionQueue.Lib.Sequential
import ContentionQueue.Service

/-!
# The queue as a combining object

The front state is the state of a sequential object here.  Each callback does
the operation of its own value on the front state, keeps its answer, then pops
values as often as it likes and does their operations, and returns its answer.
`ObjectRun` are the runs with such callbacks.  They may use `unlocked` and read
and clear poison, mutexes may be poisoned, and assertions may fail, but the
callbacks do not unwind.

* `Memory` is what the callbacks have in their variables, and the operations
  that were done.
* `Combines` is the invariant, and `Transition.combines` its step lemma.
* `queue_linearizes` is the result: the queue linearizes the object.
-/

namespace ContentionQueue

open Machines State HandOff Sequential

variable {M FS V R : Type} {cfg : Config} {s s' : State M FS V R}
  {a : Action M FS V R} {evs log : List (Event V R)}
  {acts : List (Action M FS V R)} {frontState : FS} {data : Addr → M}

/-! ## Combining callbacks -/

/-- What the callbacks have done and remember. -/
structure Memory (V R : Type) where
  /-- The operations that were done, in order. -/
  applied : History CallId V
  /-- The value that each callback has taken and not yet applied, with its
  owner. -/
  held : CallId → Option (CallId × V)
  /-- The answer of the operation of each callback. -/
  answer : CallId → Option R

namespace Memory

def empty : Memory V R := ⟨[], fun _ => none, fun _ => none⟩

/-- A callback takes a value. -/
def take (m : Memory V R) : Event V R → Memory V R
  | .callback i v =>
      { m with
        held := Function.update m.held i (some (i, v))
        answer := Function.update m.answer i none }
  | .pop i owner v =>
      { m with held := Function.update m.held i (some (owner, v)) }
  | _ => m

/-- The callback of call `i` does the operation of `x`, whose answer is `r`.
It keeps the answer of its first operation. -/
def apply (m : Memory V R) (i : CallId) (x : CallId × V) (r : R) :
    Memory V R where
  applied := m.applied ++ [x]
  held := Function.update m.held i none
  answer := Function.update m.answer i (some ((m.answer i).getD r))

/-- The memory after an action.  A write of the front state does the operation
of the value that its callback holds. -/
def next (O : Object FS V R) (m : Memory V R) (s : State M FS V R)
    (a : Action M FS V R) (evs : List (Event V R)) : Memory V R :=
  match a with
  | .callback i (.frontState _) =>
      match m.held i with
      | some x => m.apply i x (O.output s.frontExclusive.frontState x.2)
      | none => m
  | _ => evs.foldl take m

end Memory

/-- What a schedule of combining callbacks may do: a callback writes the result
of the operation of the value that it holds, it pops and returns when it holds
nothing, and it returns its answer. -/
def Combining (O : Object FS V R) (p : State M FS V R × Memory V R) :
    Action M FS V R → Prop
  | .callback i .pop => p.2.held i = none
  | .callback i (.frontState x) =>
      (p.2.held i).map (fun y => O.next p.1.frontExclusive.frontState y.2) =
        some x
  | .callback i (.ret r) => p.2.held i = none ∧ p.2.answer i = some r
  | .callback _ .unwind => False
  | _ => True

instance [DecidableEq FS] [DecidableEq V] [DecidableEq R] (O : Object FS V R)
    (p : State M FS V R × Memory V R) :
    (a : Action M FS V R) → Decidable (Combining O p a)
  | .callback i .pop => inferInstanceAs (Decidable (p.2.held i = none))
  | .callback i (.frontState x) => inferInstanceAs (Decidable
      ((p.2.held i).map (fun y => O.next p.1.frontExclusive.frontState y.2) =
        some x))
  | .callback i (.ret r) => inferInstanceAs
      (Decidable (p.2.held i = none ∧ p.2.answer i = some r))
  | .callback _ .unwind => isFalse id
  | .callback _ .peek => isTrue trivial
  | .callback _ (.mutexState _) => isTrue trivial
  | .callback _ .isQueuePoisoned => isTrue trivial
  | .callback _ .clearQueuePoison => isTrue trivial
  | .callback _ .unlocked => isTrue trivial
  | .callback _ .endUnlocked => isTrue trivial
  | .call _ _ => isTrue trivial
  | .step _ => isTrue trivial
  | .spuriousWake _ => isTrue trivial
  | .lock _ _ => isTrue trivial
  | .unlock _ _ => isTrue trivial
  | .poison _ => isTrue trivial
  | .clearPoison _ => isTrue trivial
  | .releaseLeaked _ => isTrue trivial

/-- The runs of matched calls from one state to another with combining
callbacks. -/
def ObjectExec (O : Object FS V R) (cfg : Config)
    (p : State M FS V R × Memory V R) (acts : List (Action M FS V R))
    (log : List (Event V R)) (p' : State M FS V R × Memory V R) : Prop :=
  ((machine M FS V R cfg).observe (Memory.next O)).Exec
    (fun p a => a.Matched ∧ Combining O p a) p acts log p'

/-- The runs of a new queue with combining callbacks. -/
def ObjectRun (O : Object FS V R) (cfg : Config) (frontState : FS)
    (data : Addr → M) (acts : List (Action M FS V R))
    (log : List (Event V R)) (s : State M FS V R) (m : Memory V R) : Prop :=
  ObjectExec O cfg (State.new frontState data, .empty) acts log (s, m)

/-- The events, the state and the memory of a list of actions, if each of them
is enabled and allowed. -/
def objectRun [DecidableEq FS] [DecidableEq V] [DecidableEq R]
    (O : Object FS V R) (cfg : Config) (frontState : FS) (data : Addr → M)
    (acts : List (Action M FS V R)) :
    Option ((State M FS V R × Memory V R) × List (Event V R)) :=
  ((machine M FS V R cfg).observe (Memory.next O)).exec
    (fun p a => a.Matched ∧ Combining O p a)
    (State.new frontState data, .empty) acts

theorem ObjectRun.of_objectRun [DecidableEq FS] [DecidableEq V] [DecidableEq R]
    {O : Object FS V R}
    (h : (objectRun O cfg frontState data acts).isSome) :
    ObjectRun O cfg frontState data acts
      ((objectRun O cfg frontState data acts).get h).2
      ((objectRun O cfg frontState data acts).get h).1.1
      ((objectRun O cfg frontState data acts).get h).1.2 :=
  Machine.Exec.of_isSome h

theorem ObjectRun.run {O : Object FS V R} {m : Memory V R}
    (h : ObjectRun O cfg frontState data acts log s m) :
    Run cfg frontState data acts log s :=
  Machine.Exec.of_observe (fun _ _ hallow => hallow.1) h

/-! ## The invariant -/

/-- The values that were taken, with their owners, in order. -/
def taken (log : List (Event V R)) : History CallId V :=
  (takings log).map Taking.item

theorem taken_append :
    taken (log ++ evs) = taken log ++ taken evs := by
  rw [taken, takings, List.filterMap_append, List.map_append]
  rfl

/-- The values that were taken have been applied, but for the one that a
running callback holds. -/
def Pending (log : List (Event V R)) (s : State M FS V R) (m : Memory V R) :
    Prop :=
  ((∀ i, m.held i = none) ∧ taken log = m.applied) ∨
  ∃ j x, (∀ i, i ≠ j → m.held i = none) ∧ m.held j = some x ∧ s.InSpan j ∧
    taken log = m.applied ++ [x]

/-- The callbacks have done what they remember. -/
structure Combines (O : Object FS V R) (frontState : FS)
    (log : List (Event V R)) (s : State M FS V R) (m : Memory V R) :
    Prop where
  pending : Pending log s m
  state : s.frontExclusive.frontState = O.run frontState m.applied
  answer : ∀ i r, m.answer i = some r → O.Answers frontState m.applied i r
  returned : ∀ i r, .callbackReturn i r ∈ log →
    O.Answers frontState m.applied i r
  own : ∀ j x, m.held j = some x → m.answer j = none → x.1 = j
  first : ∀ i, IsCalled log i → m.held i = none → m.answer i ≠ none

section Combines

variable {O : Object FS V R} {m : Memory V R} {l : Line CallId V} {i : CallId}

theorem isCalled_append (hevs : ∀ v, .callback i v ∉ evs)
    (h : IsCalled (log ++ evs) i) : IsCalled log i := by
  obtain ⟨v, hv⟩ := h
  exact ⟨v, (List.mem_append.mp hv).resolve_right (hevs v)⟩

/-- A callback that holds nothing runs alone, so nothing is held. -/
theorem Pending.of_none (h : Pending log s m) (hR : Refines log s l)
    (hi : s.InSpan i) (hnone : m.held i = none) :
    (∀ j, m.held j = none) ∧ taken log = m.applied := by
  rcases h with h | ⟨j, x, -, hheld, hj, -⟩
  · exact h
  · have hij : i = j := Baton.serving.inj
      ((hR.baton_of_inSpan hi).symm.trans (hR.baton_of_inSpan hj))
    rw [hij, hheld] at hnone
    cases hnone

/-- Nothing is taken, applied or returned. -/
theorem Combines.keep (h : Combines O frontState log s m)
    (hevs : taken evs = []) (hreturn : ∀ i r, .callbackReturn i r ∉ evs)
    (hcall : ∀ i v, .callback i v ∉ evs)
    (hfront : s'.frontExclusive = s.frontExclusive)
    (hspan : ∀ j, s.InSpan j → s'.InSpan j) :
    Combines O frontState (log ++ evs) s' m where
  pending := by
    unfold Pending
    rw [taken_append, hevs, List.append_nil]
    rcases h.pending with hnone | ⟨j, x, hothers, hheld, hj, htaken⟩
    · exact .inl hnone
    · exact .inr ⟨j, x, hothers, hheld, hspan j hj, htaken⟩
  state := by rw [hfront, h.state]
  answer := h.answer
  returned := fun i r hmem =>
    h.returned i r ((List.mem_append.mp hmem).resolve_right (hreturn i r))
  own := h.own
  first := fun i hcalled => h.first i (isCalled_append (hcall i) hcalled)

/-- A callback starts. -/
theorem Combines.start {v : V} (h : Combines O frontState log s m)
    (hnone : ∀ j, m.held j = none) (htaken : taken log = m.applied)
    (hfront : s'.frontExclusive = s.frontExclusive) (hi : s'.InSpan i) :
    Combines O frontState (log ++ [.callback i v]) s'
      (m.take (.callback i v : Event V R)) where
  pending := by
    refine .inr ⟨i, (i, v), ?_, Function.update_self _ _ _, hi, ?_⟩
    · intro j hj
      exact (Function.update_of_ne hj _ _).trans (hnone j)
    · rw [taken_append, htaken]
      rfl
  state := by
    rw [hfront, h.state]
    rfl
  answer := by
    intro j r hr
    rcases eq_or_ne j i with rfl | hj
    · simp [Memory.take] at hr
    · refine h.answer j r ?_
      simpa [Memory.take, hj] using hr
  returned := by
    intro j r hmem
    exact h.returned j r (by simpa using hmem)
  own := by
    intro j x hx _
    rcases eq_or_ne j i with rfl | hj
    · simp only [Memory.take, Function.update_self, Option.some.injEq] at hx
      rw [← hx]
    · simp [Memory.take, hj, hnone] at hx
  first := by
    intro j hcalled hheld
    rcases eq_or_ne j i with rfl | hj
    · simp [Memory.take] at hheld
    · have hold : IsCalled log j :=
        isCalled_append (by simp [hj]) hcalled
      simpa [Memory.take, hj] using h.first j hold (hnone j)

/-- A callback that has done its own operation pops. -/
theorem Combines.pop {o : CallId} {v : V} (h : Combines O frontState log s m)
    (hnone : ∀ j, m.held j = none) (htaken : taken log = m.applied)
    (hcalled : IsCalled log i)
    (hfront : s'.frontExclusive = s.frontExclusive) (hi : s'.InSpan i) :
    Combines O frontState (log ++ [.pop i o v]) s'
      (m.take (.pop i o v : Event V R)) where
  pending := by
    refine .inr ⟨i, (o, v), ?_, Function.update_self _ _ _, hi, ?_⟩
    · intro j hj
      exact (Function.update_of_ne hj _ _).trans (hnone j)
    · rw [taken_append, htaken]
      rfl
  state := by
    rw [hfront, h.state]
    rfl
  answer := h.answer
  returned := by
    intro j r hmem
    exact h.returned j r (by simpa using hmem)
  own := by
    intro j x hx hanswer
    rcases eq_or_ne j i with rfl | hj
    · exact absurd hanswer (h.first j hcalled (hnone j))
    · simp [Memory.take, hj, hnone] at hx
  first := by
    intro j hcalled' hheld
    have hold : IsCalled log j :=
      isCalled_append (by simp) hcalled'
    exact h.first j hold (hnone j)

/-- A callback does the operation of the value that it holds. -/
theorem Combines.apply {x : CallId × V} (h : Combines O frontState log s m)
    (hx : m.held i = some x) :
    Combines O frontState (log ++ [])
      (s.setFrontState (O.next s.frontExclusive.frontState x.2))
      (m.apply i x (O.output s.frontExclusive.frontState x.2)) := by
  obtain ⟨hothers, htaken⟩ : (∀ j, j ≠ i → m.held j = none) ∧
      taken log = m.applied ++ [x] := by
    rcases h.pending with ⟨hnone, -⟩ | ⟨j, y, hothers, hheld, -, htaken⟩
    · rw [hnone i] at hx
      cases hx
    · have hij : i = j := by
        by_contra hne
        rw [hothers i hne] at hx
        cases hx
      subst hij
      obtain rfl : y = x := Option.some.inj (hheld.symm.trans hx)
      exact ⟨hothers, htaken⟩
  have hheld : ∀ j, (m.apply i x (O.output s.frontExclusive.frontState
      x.2)).held j = none := by
    intro j
    rcases eq_or_ne j i with rfl | hj
    · exact Function.update_self _ _ _
    · exact (Function.update_of_ne hj _ _).trans (hothers j hj)
  rw [List.append_nil]
  refine ⟨.inl ⟨hheld, htaken⟩, ?_, ?_, ?_, ?_, ?_⟩
  · show O.next _ x.2 = O.run frontState (m.applied ++ [(x.1, x.2)])
    rw [Object.run_concat, ← h.state]
  · intro j r hr
    rcases eq_or_ne j i with rfl | hj
    · have hr' : (m.answer j).getD (O.output s.frontExclusive.frontState
          x.2) = r := by simpa [Memory.apply] using hr
      cases hanswer : m.answer j with
      | some r₀ =>
          rw [hanswer, Option.getD_some] at hr'
          exact (h.answer j r (hr' ▸ hanswer)).append [x]
      | none =>
          -- the first operation of a callback is its own
          obtain rfl := h.own j x hx hanswer
          rw [hanswer, Option.getD_none, h.state] at hr'
          rw [← hr']
          exact Object.answers_concat
    · refine (h.answer j r ?_).append [x]
      simpa [Memory.apply, hj] using hr
  · intro j r hmem
    exact (h.returned j r hmem).append [x]
  · intro j y hy
    rw [hheld j] at hy
    cases hy
  · intro j hcalled _
    rcases eq_or_ne j i with rfl | hj
    · simp [Memory.apply]
    · simpa [Memory.apply, hj] using h.first j hcalled (hothers j hj)

/-- A callback returns its answer. -/
theorem Combines.ret {r : R} (h : Combines O frontState log s m)
    (hnone : ∀ j, m.held j = none) (htaken : taken log = m.applied)
    (hanswer : m.answer i = some r)
    (hfront : s'.frontExclusive = s.frontExclusive) :
    Combines O frontState (log ++ [.callbackReturn i r]) s' m where
  pending := by
    refine .inl ⟨hnone, ?_⟩
    rw [taken_append, htaken]
    exact List.append_nil _
  state := by rw [hfront, h.state]
  answer := h.answer
  returned := by
    intro j r' hmem
    rcases List.mem_append.mp hmem with hold | hnew
    · exact h.returned j r' hold
    · obtain ⟨rfl, rfl⟩ : j = i ∧ r' = r := by simpa using hnew
      exact h.answer j r' hanswer
  own := h.own
  first := fun j hcalled =>
    h.first j (isCalled_append (by simp) hcalled)

/-- The step lemma. -/
theorem Transition.combines (ht : Transition cfg s a s' evs)
    (hR : Refines log s l)
    (hpast : ∀ i f, s.frames i = some f → CallPast log i f)
    (hcombining : Combining O (s, m) a)
    (h : Combines O frontState log s m) :
    Combines O frontState (log ++ evs) s' (m.next O s a evs) := by
  have hspan : (∀ i r, a ≠ .callback i (.ret r)) →
      ∀ j, s.InSpan j → s'.InSpan j := fun hret j hj =>
    ht.inSpan hR.basics.slots (hret j) (by rintro rfl; exact hcombining) hj
  cases ht
  case startCallback i f g v hat _ =>
    have hline := hR.front hat rfl
    obtain ⟨hnone, htaken⟩ : (∀ j, m.held j = none) ∧
        taken log = m.applied := by
      rcases h.pending with hnone | ⟨j, x, -, -, hj, -⟩
      · exact hnone
      · rw [hR.baton_of_inSpan hj] at hline
        cases hline
    exact h.start hnone htaken rfl ⟨_, Function.update_self _ _ _, rfl⟩
  case pop i f hd g o v hin _ =>
    have hi := hin.loc.inSpan rfl
    obtain ⟨hnone, htaken⟩ := h.pending.of_none hR hi hcombining
    have hcalled := (hpast i f hin.loc.frame).past
    rw [hin.loc.pc] at hcalled
    exact h.pop hnone htaken hcalled rfl ⟨_, Function.update_self _ _ _, rfl⟩
  case frontState i f hd g x _ | frontUnlocked i f hd x _ =>
    obtain ⟨y, hy, rfl⟩ := Option.map_eq_some_iff.mp hcombining
    have hheld : m.held i = some y := hy
    simpa only [Memory.next, hheld] using h.apply hheld
  case ret i f hd g r hin =>
    obtain ⟨hheld, hanswer⟩ := hcombining
    obtain ⟨hnone, htaken⟩ := h.pending.of_none hR (hin.loc.inSpan rfl) hheld
    exact h.ret hnone htaken hanswer rfl
  case unwind => cases hcombining
  case uninit hat hslot =>
    exact (hR.basics.slots.not_uninit hat hslot).elim
  case handOff =>
    exact h.keep rfl (by simp) (by simp) (by simp) (hspan (by simp))
  case errHandOff =>
    exact h.keep rfl (by simp) (by simp) (by simp) (hspan (by simp))
  all_goals exact h.keep rfl (by simp) (by simp) rfl (hspan (by simp))

/-- The callbacks of a run have done what they remember. -/
theorem ObjectRun.combines
    (h : ObjectRun O cfg frontState data acts log s m) :
    Combines O frontState log s m := by
  have hall : Run cfg frontState data acts log s ∧
      Combines O frontState log s m := by
    unfold ObjectRun ObjectExec at h
    generalize hp : (s, m) = p at h
    induction h generalizing s m with
    | nil =>
        cases hp
        refine ⟨.nil, .inl ⟨fun _ => rfl, rfl⟩, rfl, nofun, nofun, nofun, ?_⟩
        rintro i ⟨v, hv⟩
        cases hv
    | snoc run hallow hstep ih =>
        rename_i p a evs p'
        obtain ⟨s₁, m₁⟩ := p
        obtain ⟨hrun, hcombines⟩ := ih rfl
        subst hp
        obtain ⟨hs, rfl⟩ := Machine.step_of_observe hstep
        obtain ⟨l, -, hR⟩ := Run.refines hrun
        exact ⟨.snoc hrun hallow.1 hs, (transition_of_step hs).combines hR
          (Run.callPast hrun) hallow.2 hcombines⟩
  exact hall.2

end Combines

/-! ## Linearization -/

section Linearizes

variable {O : Object FS V R} {m : Memory V R} {i j : CallId}

/-- Call `i` left with whatever result, which it returns. -/
def Returned (log : List (Event V R)) (i : CallId) : Prop :=
  ∃ result, .leave i (.returned result) ∈ log

/-- Call `i` had left with a result at a moment of the run at which call `j` had
not been made. -/
def ReturnedBefore (O : Object FS V R) (cfg : Config) (frontState : FS)
    (data : Addr → M) (acts : List (Action M FS V R))
    (log : List (Event V R)) (s : State M FS V R) (m : Memory V R)
    (i j : CallId) : Prop :=
  ((machine M FS V R cfg).observe (Memory.next O)).Passed
    (fun p a => a.Matched ∧ Combining O p a)
    (State.new frontState data, .empty) acts log (s, m)
    fun log₁ p => Returned log₁ i ∧ p.1.frames j = none

/-- The applied operations are among the taken values. -/
theorem Pending.applied_taken (h : Pending log s m) :
    m.applied <+: taken log := by
  rcases h with ⟨-, htaken⟩ | ⟨j, x, -, -, -, htaken⟩
  · rw [htaken]
  · rw [htaken]
    exact List.prefix_append _ _

/-- A call that has left with a result has had its value taken. -/
theorem Run.taken_of_returned (h : Run cfg frontState data acts log s)
    (hi : Returned log i) : i ∈ (taken log).map Prod.fst := by
  obtain ⟨result, hleave⟩ := hi
  obtain ⟨f, hf, hpc⟩ := h.over_of_leave hleave
  have hpast := (h.callPast i f hf).past.outcome hpc
  have hmem : ∀ r, r ∈ takings log → r.owner ∈ (taken log).map Prod.fst := by
    intro r hr
    exact List.mem_map_of_mem (List.mem_map_of_mem hr)
  have hmerged : IsMerged log i → i ∈ (taken log).map Prod.fst := by
    rintro ⟨j, v, -, hpop⟩
    exact hmem ⟨j, i, v⟩ (mem_takings.mpr (.inr hpop))
  cases result with
  | processed r =>
      obtain ⟨⟨v, hcall⟩, -⟩ := hpast
      exact hmem ⟨i, i, v⟩ (mem_takings.mpr (.inl ⟨rfl, hcall⟩))
  | processedElsewhere => exact hmerged hpast
  | processingPanicked => exact hmerged hpast

/-- A call that has left with a result has had its operation done. -/
theorem ObjectRun.applied_of_returned
    (h : ObjectRun O cfg frontState data acts log s m)
    (hi : Returned log i) : i ∈ m.applied.map Prod.fst := by
  have hmem := h.run.taken_of_returned hi
  obtain ⟨result, hleave⟩ := hi
  obtain ⟨f, hf, hpc⟩ := h.run.over_of_leave hleave
  rcases h.combines.pending with ⟨-, htaken⟩ | ⟨j, x, -, -, hj, htaken⟩
  · rwa [htaken] at hmem
  rw [htaken, List.map_append, List.mem_append] at hmem
  refine hmem.resolve_right fun hx => ?_
  obtain rfl : i = x.1 := by simpa using hx
  -- the value that is held belongs to a call that has not left
  obtain ⟨l, -, hR⟩ := h.run.refines
  obtain ⟨hlast, hserved⟩ := l.served j (hR.baton_of_inSpan hj)
  obtain ⟨r, hr, hitem⟩ : ∃ r, l.taken.getLast? = some r ∧ r.item = x := by
    have hgetLast := congrArg List.getLast? htaken
    rw [taken, hR.history.taken, List.getLast?_map, List.getLast?_concat]
      at hgetLast
    exact Option.map_eq_some_iff.mp hgetLast
  have htaker : r.taker = j := by simpa [hr] using hlast
  have howner : r.owner = x.1 := congrArg Prod.fst hitem
  rcases hserved r (List.mem_of_getLast? hr) htaker with hown | hmerged
  · obtain ⟨f', hf', hpc'⟩ := hj
    rw [← hown, howner, hf, Option.some.injEq] at hf'
    rw [hf', outcome_of_inCallback hpc'] at hpc
    cases hpc
  · have hids : x.1 ∈ l.ids := howner ▸ List.mem_append_left _ hmerged
    obtain ⟨f', hf', hqueued⟩ := (hR.mem_ids_iff_pc x.1).mp hids
    rw [hf, Option.some.injEq] at hf'
    rw [hf', outcome_of_isQueued hqueued] at hpc
    cases hpc

/-- An operation that was done was asked for by its call. -/
theorem ObjectRun.asked_of_applied
    (h : ObjectRun O cfg frontState data acts log s m) {v : V}
    (hi : (i, v) ∈ m.applied) :
    ∃ f, s.frames i = some f ∧ f.call.method.value? = some v := by
  have hmem : (i, v) ∈ taken log := h.combines.pending.applied_taken.subset hi
  obtain ⟨r, hr, hitem⟩ := List.mem_map.mp hmem
  obtain ⟨l, -, hR⟩ := h.run.refines
  obtain ⟨rfl, rfl⟩ := Prod.mk.inj hitem
  exact hR.value_of_taking h.run.callPast hr

/-- The operations that were done stay done. -/
theorem ObjectExec.applied_prefix {p p' : State M FS V R × Memory V R}
    (h : ObjectExec O cfg p acts log p') : p.2.applied <+: p'.2.applied := by
  have htake : ∀ (evs : List (Event V R)) (m : Memory V R),
      (evs.foldl Memory.take m).applied = m.applied := by
    intro evs
    induction evs with
    | nil => exact fun _ => rfl
    | cons e evs ih =>
        intro m
        rw [List.foldl_cons, ih]
        cases e <;> rfl
  have hnext : ∀ (m : Memory V R) (s : State M FS V R)
      (a : Action M FS V R) (evs : List (Event V R)),
      m.applied <+: (m.next O s a evs).applied := by
    intro m s a evs
    unfold Memory.next
    split
    · split
      · exact List.prefix_append _ _
      · exact List.prefix_rfl
    · rw [htake]
  unfold ObjectExec at h
  induction h with
  | nil => exact List.prefix_rfl
  | snoc _ _ hstep ih =>
      rename_i p₁ a evs p₂
      obtain ⟨-, hmemory⟩ := Machine.step_of_observe hstep
      rw [hmemory]
      exact ih.trans (hnext _ _ _ _)

/-- The queue linearizes the object.  In every run with combining callbacks,
the operations that were done explain the state, once for each call, with its
own value; every call that has left with a result, and so every call that has
returned, has had its operation done; a call that returns `Processed` returns
the answer of its operation at its place; and the operation of a call that left
before another call was made comes first. -/
theorem queue_linearizes
    (h : ObjectRun O cfg frontState data acts log s m) :
    Linearizes O frontState s.frontExclusive.frontState m.applied
      (fun i v => ∃ f, s.frames i = some f ∧ f.call.method.value? = some v)
      (Returned log)
      (fun i r => .leave i (.returned (.processed r)) ∈ log)
      (ReturnedBefore O cfg frontState data acts log s m) where
  state := h.combines.state
  once := by
    obtain ⟨l, -, hR⟩ := h.run.refines
    have hnodup : ((taken log).map Prod.fst).Nodup := by
      rw [taken, List.map_map]
      exact hR.nodup_takings
    exact hnodup.sublist (h.combines.pending.applied_taken.sublist.map Prod.fst)
  asked := fun i v hi => h.asked_of_applied hi
  complete := fun i hi => h.applied_of_returned hi
  answers := by
    intro i r hleave
    obtain ⟨f, hf, hpc⟩ := h.run.over_of_leave hleave
    have hpast := (h.run.callPast i f hf).past.outcome hpc
    exact h.combines.returned i r hpast.2
  order := by
    rintro i j ⟨acts₁, log₁, ⟨s₁, m₁⟩, acts₂, log₂, h₁, h₂, -, -, hi, hj⟩
    obtain ⟨rest, hrest⟩ := ObjectExec.applied_prefix h₂
    have happlied := ObjectRun.applied_of_returned h₁ hi
    refine ⟨m₁.applied, rest, hrest.symm, happlied, ?_⟩
    intro hmem
    obtain ⟨⟨o, v⟩, hov, rfl⟩ := List.mem_map.mp hmem
    obtain ⟨f, hf, -⟩ := ObjectRun.asked_of_applied h₁ hov
    rw [hj] at hf
    cases hf

/-- A counter: an operation adds its value and answers the sum. -/
def counter : Object Nat Nat Nat := ⟨fun n v => n + v, fun n v => n + v⟩

/-- Call 0 adds 10 in the closure of `unlocked`, pops the value of call 1, adds
it, and returns 10.  Call 1 returns, and call 2 is made after that. -/
def countingRun : List (Action Unit Nat Nat Nat) :=
  [.call 0 ⟨0, 1, .lockAndProcess 10⟩, .step 0, .step 0, .step 0, .step 0,
    .callback 0 .unlocked,
    .call 1 ⟨1, 1, .lockAndProcess 20⟩, .step 1, .step 1, .step 1, .step 1,
    .step 1,
    .callback 0 (.frontState 10), .callback 0 .endUnlocked, .step 0,
    .callback 0 .pop, .callback 0 (.frontState 30),
    .callback 0 (.ret 10), .step 0, .step 0, .step 0,
    .step 1, .step 1, .step 1, .step 1, .step 1, .step 1, .step 1,
    .call 2 ⟨0, 1, .lockAndProcess 30⟩, .step 2, .step 2, .step 2, .step 2,
    .callback 2 (.frontState 60), .callback 2 (.ret 60)]

/-- The operations of `countingRun` were done in the order of their calls. -/
theorem queue_linearizes_counting :
    let r := (objectRun counter ⟨.default, false⟩ 0 (fun _ => ())
      countingRun).get (by decide)
    r.1.2.applied = [(0, 10), (1, 20), (2, 30)] ∧
      Linearizes counter 0 r.1.1.frontExclusive.frontState r.1.2.applied
        (fun i v => ∃ f, r.1.1.frames i = some f ∧
          f.call.method.value? = some v)
        (Returned r.2)
        (fun i n => .leave i (.returned (.processed n)) ∈ r.2)
        (ReturnedBefore counter ⟨.default, false⟩ 0 (fun _ => ()) countingRun
          r.2 r.1.1 r.1.2) :=
  ⟨by decide, queue_linearizes (ObjectRun.of_objectRun (by decide))⟩

end Linearizes

end ContentionQueue
